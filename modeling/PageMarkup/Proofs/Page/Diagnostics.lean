import PageMarkup.Proofs.Page.Located
import PageMarkup.Proofs.Page.Outcome

/-! # Where diagnostics are located

A diagnostic is told at the opening marker of the part that it is about. For a fault that is
the marker left open, or the opener of a node of the nested page that breaks a rule; for
everything else it is what the passes point at. The line and the column say the same as the
offset.
-/

namespace PageMarkup

open Node Forest Draft

variable {source : Source} {registries : Registries} {page : Forest}

/-! ## Faults -/

namespace Fault

/-- The fault is about the tree of the page: it names the tree, and the tree breaks the rule. -/
def IsAbout (page : Forest) (tree : Tree) : Fault Nat → Prop
  | .invalidChildren name _ => tree.kind.name = name ∧ tree.WrongChildren
  | .misplacedNode name _ =>
    tree.kind.name = name ∧ tree.Misplaced false ∧ (false, tree) ∈ page.placed
  | .nestedAggregate name child _ =>
    tree.kind.name = child ∧ ∃ outer ∈ page.subtrees, outer.kind.name = name ∧ outer.Nests tree
  | _ => False

/-- Where the fault points, if anywhere: at the marker that is left open last, or at the opening
marker of a tree of the page. -/
inductive Points (source : Source) : Fault Nat → Prop where
  | general {fault : Fault Nat} : fault.place? = none → Points source fault
  | unclosed {opener : Lexeme} {aggregate : Aggregate} :
      Lexeme.LeavesOpen source.lexemes (some opener) → opener.kind = aggregate.startedBy →
      source.Opens aggregate opener.span.start →
      Points source (.unclosedAggregate opener.kind.name opener.span.start)
  | broken {page : Forest} {fault : Fault Nat} {tree : Tree} {aggregate : Aggregate}
      {opener : Span} :
      ofLexemes source.lexemes = .ok page → page.FirstFault fault → tree ∈ page.subtrees →
      tree.kind = .aggregate aggregate → tree.data.opener = some opener →
      source.Opens aggregate opener.start → fault.IsAbout page tree →
      fault.place? = some opener.start → Points source fault

/-- A fault points at an aggregate of the page that it is about and whose offset it tells. -/
theorem points_of_tree {fault : Fault Nat} {tree : Tree} {aggregate : Aggregate}
    (hpage : ofLexemes source.lexemes = .ok page) (hfirst : page.FirstFault fault)
    (hmem : tree ∈ page.subtrees) (hkind : tree.kind = .aggregate aggregate)
    (habout : fault.IsAbout page tree) (hplace : fault.place? = some tree.data.offset) :
    fault.Points source := by
  obtain ⟨opener, hopener, hopens⟩ := Source.opens_of_mem_subtrees hpage hmem hkind
  have hoffset : tree.data.offset = opener.start := by rw [Node.offset, hopener]
  exact .broken hpage hfirst hmem hkind hopener hopens habout (hoffset ▸ hplace)

end Fault

namespace Forest

theorem mem_subtrees_of_mem_placed {forest : Forest} {node : Bool × Tree}
    (hmem : node ∈ forest.placed) : node.2 ∈ forest.subtrees := by
  obtain ⟨tree, htree, hnode⟩ := List.mem_flatMap.mp hmem
  refine mem_subtrees.mpr ⟨tree, htree, Tree.mem_subtrees_iff.mpr ?_⟩
  rcases List.mem_cons.mp hnode with rfl | hnode
  · exact .inl rfl
  · obtain ⟨below, hbelow, rfl⟩ := List.mem_map.mp hnode
    exact .inr hbelow

/-- A node of a nested page that can have children is an aggregate. -/
theorem aggregate_of_canHaveChildren (hpage : ofLexemes source.lexemes = .ok page) {tree : Tree}
    (hmem : tree ∈ page.subtrees) (hcan : tree.kind.canHaveChildren = true) :
    ∃ aggregate, tree.kind = .aggregate aggregate := by
  have hraw := (Tree.forestObeys_of_mem_subtrees (built_ofLexemes hpage) hmem).data.raw
  change tree.kind.aggregate? = none → tree.kind.isProcessed = false at hraw
  cases hkind : tree.kind with
  | aggregate aggregate => exact ⟨aggregate, rfl⟩
  | documentRoot | paragraph | container => rw [hkind] at hraw; cases hraw rfl
  | _ => rw [hkind] at hcan; cases hcan

/-- The first fault of a nested page points at the node that breaks the rule. -/
theorem FirstFault.points (hpage : ofLexemes source.lexemes = .ok page) {fault : Fault Nat}
    (hfirst : page.FirstFault fault) : fault.Points source := by
  obtain ⟨before, ⟨atRoot, tree⟩, after, hplaced, -, hbreaks⟩ := id hfirst
  have hnode : (atRoot, tree) ∈ page.placed := by
    rw [hplaced]
    exact List.mem_append_right _ List.mem_cons_self
  have hmem : tree ∈ page.subtrees := mem_subtrees_of_mem_placed hnode
  cases hbreaks with
  | children hwrong =>
      obtain ⟨aggregate, hkind⟩ := Kind.aggregate_of_any hwrong.1
      exact Fault.points_of_tree hpage hfirst hmem hkind ⟨rfl, hwrong⟩ rfl
  | place hright hmisplaced =>
      obtain ⟨aggregate, hkind⟩ := Kind.aggregate_of_any hmisplaced.1
      obtain ⟨hrootOnly, rfl⟩ := hmisplaced
      exact Fault.points_of_tree hpage hfirst hmem hkind ⟨rfl, ⟨hrootOnly, rfl⟩, hnode⟩ rfl
  | nesting child hright hplace hnests =>
      -- The fault is told at the child, not at the node that must not hold it.
      obtain ⟨hflat, first, rest, hchildren, hearlier, hcan⟩ := id hnests
      have hchild : child ∈ page.subtrees := by
        refine Tree.forestSubtrees_children_subset hmem (mem_subtrees.mpr ⟨child, ?_, ?_⟩)
        · rw [hchildren]
          exact List.mem_append_right _ List.mem_cons_self
        · exact Tree.mem_subtrees_iff.mpr (.inl rfl)
      obtain ⟨aggregate, hkind⟩ := aggregate_of_canHaveChildren hpage hchild hcan
      exact Fault.points_of_tree hpage hfirst hchild hkind ⟨rfl, tree, hmem, rfl, hnests⟩ rfl

end Forest

/-- The marker that lexemes leave open is one of them. -/
theorem Lexeme.mem_of_leavesOpen {lexemes : List Lexeme} {opener : Lexeme}
    (hopen : LeavesOpen lexemes (some opener)) :
    opener ∈ lexemes ∧ ∃ aggregate : Aggregate, opener.kind = aggregate.startedBy := by
  cases hopen with
  | some _ aggregate _ _ hstarts =>
      exact ⟨List.mem_append_right _ List.mem_cons_self, aggregate,
        Kind.starts?_eq_some_iff.mp hstarts⟩

/-- The fault of a text that is refused points at the reason. -/
theorem Refused.points {text : String} {fault : Fault Nat} (hrefused : Refused text fault) :
    fault.Points (Source.ofText text) := by
  cases hrefused with
  | empty => exact .general rfl
  | unclosed name offset _ herror =>
      obtain ⟨opener, hopen, hfault⟩ :=
        (Forest.ofLexemes_eq_error_iff (Source.isRaw_lexemes _) _).mp herror
      obtain ⟨hmem, aggregate, hkind⟩ := Lexeme.mem_of_leavesOpen hopen
      rw [hfault]
      exact .unclosed hopen hkind (Source.opens_of_mem_lexemes hmem hkind)
  | broken body _ hbody hfirst => exact hfirst.points hbody
  | untitled => exact .general rfl

/-! ## Notices -/

namespace Source

/-- Whatever is told of a page points at what it is about. -/
theorem points_compile (source : Source) (registries : Registries) :
    ∀ notice ∈ Happening.notices (source.compile registries).1,
      ∃ page, ofLexemes source.lexemes = .ok page ∧ notice.Points source registries page := by
  rw [compile]
  split
  next => exact List.forall_mem_nil _
  next =>
    cases hpage : ofLexemes source.lexemes with
    | error fault => exact List.forall_mem_nil _
    | ok page =>
        have hbuilt : Notice.Points source registries page ⟨.treeBuilt (page.size + 1), none⟩ :=
          .general rfl
        have hrun : ∀ notice ∈ Happening.notices
            (runPasses source registries Pass.inOrder { body := page }).1,
            notice.Points source registries page :=
          points_runPasses hpage (List.nil_append Pass.inOrder).symm rfl
        have hall := List.forall_mem_cons.mpr ⟨hbuilt, hrun⟩
        refine fun notice hmem => ⟨page, rfl, ?_⟩
        dsimp only at hmem
        split at hmem
        next => exact hall notice hmem
        next document _ =>
          rw [Happening.notices_append] at hmem
          rcases List.mem_append.mp hmem with hmem | hmem
          · exact hall notice hmem
          · rw [List.mem_singleton.mp hmem]
            exact .general rfl

/-- A compiled page is told the openers of what was removed from it, each of them once, and none
of them is left. -/
theorem nodup_removals (source : Source) {document : Document}
    (hcompile : (source.compile registries).2 = .ok document) :
    (document.body.openings ++
      Notice.removals (Happening.notices (source.compile registries).1)).Nodup := by
  obtain ⟨page, final, hpage, hrun, hfinish, hhappenings⟩ := compile_eq_ok hcompile
  -- Nothing is opened twice, so what is told as removed is told once and is not left.
  have hsheds := sheds_runPasses hpage (List.nil_append Pass.inOrder).symm rfl hrun
  have hnotices : Notice.removals (Happening.notices (source.compile registries).1) =
      Notice.removals (Happening.notices
        (runPasses source registries Pass.inOrder { body := page }).1) := by
    rw [hhappenings, Happening.notices_append, Notice.removals_append]
    exact List.append_nil _
  rw [hnotices, (finish_eq_ok hfinish).2.1, List.nodup_iff_count_le_one]
  intro offset
  rw [List.count_append]
  exact (hsheds offset).trans (List.nodup_iff_count_le_one.mp (nodup_openings hpage) offset)

end Source

/-! ## Diagnostics -/

namespace Fault

/-- A fault that is told at a place points at the opener of an aggregate. -/
theorem Points.opens {fault : Fault Nat} (hpoints : fault.Points source) {offset : Nat}
    (hplace : fault.place? = some offset) : ∃ aggregate, source.Opens aggregate offset := by
  cases hpoints with
  | general hnone =>
      rw [hnone] at hplace
      cases hplace
  | unclosed _ _ hopens =>
      cases hplace
      exact ⟨_, hopens⟩
  | broken _ _ _ _ _ hopens _ hsame =>
      rw [hsame] at hplace
      cases hplace
      exact ⟨_, hopens⟩

end Fault

/-- A notice that is told at a place points at the opener of an aggregate. -/
theorem Notice.Points.opens {notice : Notice} (hpoints : notice.Points source registries page)
    {offset : Nat} (hoffset : notice.offset = some offset) :
    ∃ aggregate, source.Opens aggregate offset := by
  cases hpoints with
  | general => cases hoffset
  | directive _ hopens =>
      cases hoffset
      exact ⟨_, hopens⟩
  | tree _ _ _ hopens =>
      cases hoffset
      exact ⟨_, hopens⟩

/-- The fault of a text that does not compile points at the reason. -/
theorem points_of_outcome {text : String} {file : Option String} {fault : Fault Location}
    (houtcome : (compilePage text file registries).outcome = .error fault) :
    ∃ refusal : Fault Nat, fault = refusal.map ((Source.ofText text).location file) ∧
      refusal.Points (Source.ofText text) := by
  obtain ⟨refusal, hrefused, rfl⟩ := exists_refused_of_outcome houtcome
  exact ⟨refusal, rfl, hrefused.points⟩

/-- A diagnostic is located where an aggregate opens. -/
theorem opens_of_mem_diagnostics {text : String} {file : Option String} {diagnostic : Diagnostic}
    (hmem : diagnostic ∈ (compilePage text file registries).diagnostics) {location : Location}
    (hlocation : diagnostic.location = some location) :
    ∃ offset, location = (Source.ofText text).location file offset ∧
      ∃ aggregate, (Source.ofText text).Opens aggregate offset := by
  rw [compilePage, Source.diagnostics_compilation] at hmem
  rcases List.mem_append.mp hmem with hnoticed | hfault
  · obtain ⟨notice, hnotice, rfl⟩ := List.mem_map.mp hnoticed
    obtain ⟨page, -, hpoints⟩ := (Source.ofText text).points_compile registries notice hnotice
    obtain ⟨offset, hoffset, rfl⟩ := Option.map_eq_some_iff.mp hlocation
    exact ⟨offset, rfl, hpoints.opens hoffset⟩
  · split at hfault
    next => cases hfault
    next fault houtcome =>
      obtain ⟨refusal, rfl, hpoints⟩ := points_of_outcome houtcome
      rw [List.mem_singleton.mp hfault] at hlocation
      have hplace : (refusal.map ((Source.ofText text).location file)).place? = some location :=
        hlocation
      rw [Fault.place?_map] at hplace
      obtain ⟨offset, hoffset, rfl⟩ := Option.map_eq_some_iff.mp hplace
      exact ⟨offset, rfl, hpoints.opens hoffset⟩

/-- Every diagnostic tells a notice that points at a directive or a tree of the page, or the fault,
which points at the marker or the tree that it is about. What the location tells is an offset in
the text, where an aggregate opens with its marker, in the file that was given; the line is one
more than the newlines before it, and the column is one more than the clusters since the last of
them. What was removed is told once for each opener, and is not in the document. -/
theorem compilePage_locates (text : String) (file : Option String) (registries : Registries) :
    let source := Source.ofText text
    let compilation := compilePage text file registries
    ∃ notices : List Notice,
      compilation.diagnostics = notices.map (.ofNotice (source.location file)) ++
        (match compilation.outcome with
        | .ok _ => []
        | .error fault => [.ofFault fault]) ∧
      (∀ notice ∈ notices, ∃ page, ofLexemes source.lexemes = .ok page ∧
        notice.Points source registries page) ∧
      (∀ fault, compilation.outcome = .error fault → ∃ refusal : Fault Nat,
        fault = refusal.map (source.location file) ∧ refusal.Points source) ∧
      (∀ diagnostic ∈ compilation.diagnostics, ∀ location ∈ diagnostic.location,
        location.offset < source.length ∧
        (∃ aggregate, source.Opens aggregate location.offset) ∧
        location =
          { file
            offset := location.offset
            line := 1 +
              (source.clusters.toList.take location.offset).countP Source.isNewline
            column := 1 +
              (Source.sinceNewline (source.clusters.toList.take location.offset)).length }) ∧
      ∀ document, compilation.outcome = .ok document →
        (document.body.openings ++ Notice.removals notices).Nodup := by
  intro source compilation
  refine ⟨Happening.notices (source.compile registries).1,
    source.diagnostics_compilation file registries, source.points_compile registries,
    fun fault => points_of_outcome, ?_, ?_⟩
  · intro diagnostic hmem location hlocation
    obtain ⟨offset, rfl, aggregate, hopens⟩ := opens_of_mem_diagnostics hmem hlocation
    have hlength := hopens.lt_length
    exact ⟨hlength, ⟨aggregate, hopens⟩, source.location_eq file hlength.le⟩
  · intro document hdocument
    cases hcompile : (source.compile registries).2 with
    | error refusal =>
        have hfailed : compilation.outcome = .error _ := outcome_of_error hcompile
        rw [hfailed] at hdocument
        cases hdocument
    | ok found =>
        have hdone : compilation.outcome = .ok found := outcome_of_ok hcompile
        rw [hdone] at hdocument
        cases hdocument
        exact source.nodup_removals hcompile

/-- A reference to no note and an empty link on the second line of a page, and an emphasis on the
second line that is left open. -/
theorem compilePage_locates_second_line :
    let page := compilePage "!title T\na\x7bx\x7d [[]]" (some "p") .empty
    let source := Source.ofText "!title T\na\x7bx\x7d [[]]"
    let faulty := compilePage "!title T\n*a" none .empty
    page.diagnostics.filter (·.location.isSome) =
      [⟨.warning, "Removed empty 'external_link'", some ⟨some "p", 14, 2, 6⟩⟩,
        ⟨.verbose, "Found directive 'title'", some ⟨some "p", 0, 1, 1⟩⟩,
        ⟨.warning, "Note 'x' is referenced but never defined", some ⟨some "p", 10, 2, 2⟩⟩] ∧
    (∃ aggregate, source.Opens aggregate 14) ∧ (∃ aggregate, source.Opens aggregate 10) ∧
    ∃ fault : Fault Nat, faulty.outcome = .error (fault.map
      ((Source.ofText "!title T\n*a").location none)) ∧ fault.Points (.ofText "!title T\n*a") := by
  intro page source faulty
  have hdiagnostics : page.diagnostics.filter (·.location.isSome) =
      [⟨.warning, "Removed empty 'external_link'", some ⟨some "p", 14, 2, 6⟩⟩,
        ⟨.verbose, "Found directive 'title'", some ⟨some "p", 0, 1, 1⟩⟩,
        ⟨.warning, "Note 'x' is referenced but never defined", some ⟨some "p", 10, 2, 2⟩⟩] := by
    decide +kernel
  have hmem : ∀ diagnostic ∈ page.diagnostics.filter (·.location.isSome),
      diagnostic ∈ page.diagnostics := fun _ hmem => (List.mem_filter.mp hmem).1
  rw [hdiagnostics] at hmem
  obtain ⟨hlink, -, hnote, -⟩ := by simpa only [List.forall_mem_cons] using hmem
  obtain ⟨_, -, -, -, hlocated, -⟩ :=
    compilePage_locates "!title T\na\x7bx\x7d [[]]" (some "p") .empty
  refine ⟨hdiagnostics, ?_, ?_, ?_⟩
  · exact (hlocated _ hlink _ rfl).2.1
  · exact (hlocated _ hnote _ rfl).2.1
  · obtain ⟨_, -, -, hrefused, -⟩ := compilePage_locates "!title T\n*a" none .empty
    have hfailed : faulty.succeeded = false := by decide +kernel
    cases houtcome : faulty.outcome with
    | ok document => rw [Compilation.succeeded, houtcome] at hfailed; cases hfailed
    | error fault =>
        obtain ⟨refusal, rfl, hpoints⟩ := hrefused fault houtcome
        exact ⟨refusal, rfl, hpoints⟩

end PageMarkup
