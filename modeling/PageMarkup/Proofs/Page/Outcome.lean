import PageMarkup.Proofs.Directive.Accounts

/-! # Which texts are refused

Whether a text compiles, and the fault if it does not, are a matter of the text alone. A
text is refused because it is empty, because an aggregate is left open, because a node
breaks a rule of its kind, or because no directive gives a title; the first of these that
holds is the fault. Nothing can go wrong after that.
-/

namespace PageMarkup

/-! ## Rules of a node -/

namespace Tree

/-- The node must hold a single text and holds something else. -/
def WrongChildren (tree : Tree) : Prop :=
  tree.kind.singleText = true ∧ tree.children ≠ [] ∧
    ¬∃ child, tree.children = [child] ∧ child.kind = .text

/-- The node belongs to the root and stands elsewhere. -/
def Misplaced (atRoot : Bool) (tree : Tree) : Prop := tree.kind.rootOnly = true ∧ atRoot = false

/-- The node is flat, and the child is the first of its children that could have children. -/
def Nests (tree child : Tree) : Prop :=
  tree.kind.flat = true ∧ ∃ before after, tree.children = before ++ child :: after ∧
    (∀ other ∈ before, other.kind.canHaveChildren = false) ∧ child.kind.canHaveChildren = true

/-- The fault of a node that breaks a rule of its kind. Of several rules the first counts. -/
inductive Breaks (atRoot : Bool) (tree : Tree) : Fault Nat → Prop where
  | children : tree.WrongChildren →
      Breaks atRoot tree (.invalidChildren tree.kind.name tree.data.offset)
  | place : ¬tree.WrongChildren → tree.Misplaced atRoot →
      Breaks atRoot tree (.misplacedNode tree.kind.name tree.data.offset)
  | nesting (child : Tree) : ¬tree.WrongChildren → ¬tree.Misplaced atRoot → tree.Nests child →
      Breaks atRoot tree (.nestedAggregate tree.kind.name child.kind.name child.data.offset)

variable {atRoot : Bool} {tree : Tree}

theorem isSingleText_iff {children : Forest} :
    isSingleText children = true ↔ ∃ child, children = [child] ∧ child.kind = .text := by
  unfold isSingleText
  split
  next child => simp
  next hnot =>
    simp only [Bool.false_eq_true, false_iff]
    rintro ⟨child, rfl, -⟩
    exact hnot child rfl

theorem arityFault?_of_wrong (hwrong : tree.WrongChildren) :
    tree.arityFault? = some (.invalidChildren tree.kind.name tree.data.offset) := by
  obtain ⟨hkind, hsome, hnot⟩ := hwrong
  have hleaf : ¬tree.isLeaf := by simpa [isLeaf] using hsome
  rw [arityFault?, if_pos ⟨hkind, hleaf, mt isSingleText_iff.mp hnot⟩]

theorem arityFault?_of_not_wrong (hright : ¬tree.WrongChildren) : tree.arityFault? = none := by
  refine if_neg fun ⟨hkind, hleaf, hnot⟩ => hright ⟨hkind, ?_, mt isSingleText_iff.mpr hnot⟩
  simpa [isLeaf] using hleaf

theorem placeFault?_of_misplaced (hplace : tree.Misplaced atRoot) :
    tree.placeFault? atRoot = some (.misplacedNode tree.kind.name tree.data.offset) :=
  if_pos ⟨hplace.1, by simp [hplace.2]⟩

theorem placeFault?_of_not_misplaced (hplace : ¬tree.Misplaced atRoot) :
    tree.placeFault? atRoot = none :=
  if_neg fun ⟨hkind, hroot⟩ => hplace ⟨hkind, by simpa using hroot⟩

theorem nestingFault?_eq_some_iff {fault : Fault Nat} :
    tree.nestingFault? = some fault ↔ ∃ child, tree.Nests child ∧
      fault = .nestedAggregate tree.kind.name child.kind.name child.data.offset := by
  unfold nestingFault?
  split
  next hflat =>
    rw [Option.map_eq_some_iff]
    refine exists_congr fun child => ?_
    rw [List.find?_eq_some_iff_append, eq_comm (a := fault)]
    refine and_congr_left fun _ => ?_
    constructor
    · rintro ⟨hcan, before, after, hchildren, hbefore⟩
      exact ⟨hflat, before, after, hchildren, fun other hmem => by simpa using hbefore other hmem,
        hcan⟩
    · rintro ⟨-, before, after, hchildren, hbefore, hcan⟩
      exact ⟨hcan, before, after, hchildren, fun other hmem => by simp [hbefore other hmem]⟩
  next hflat =>
    simp only [reduceCtorEq, false_iff]
    rintro ⟨child, ⟨hkind, -⟩, -⟩
    exact hflat hkind

/-- A node breaks a rule just if it has faults of its own, and the first of them is that. -/
theorem breaks_iff {fault : Fault Nat} :
    tree.Breaks atRoot fault ↔ (tree.ownFaults atRoot).head? = some fault := by
  unfold ownFaults
  by_cases hwrong : tree.WrongChildren
  · rw [arityFault?_of_wrong hwrong]
    constructor
    · intro hbreaks
      cases hbreaks with
      | children => rfl
      | place hright => exact absurd hwrong hright
      | nesting _ hright => exact absurd hwrong hright
    · rintro ⟨⟩
      exact .children hwrong
  · rw [arityFault?_of_not_wrong hwrong]
    by_cases hplace : tree.Misplaced atRoot
    · rw [placeFault?_of_misplaced hplace]
      constructor
      · intro hbreaks
        cases hbreaks with
        | children hwrong' => exact absurd hwrong' hwrong
        | place => rfl
        | nesting _ _ hplaced => exact absurd hplace hplaced
      · rintro ⟨⟩
        exact .place hwrong hplace
    · rw [placeFault?_of_not_misplaced hplace]
      simp only [Option.toList_none, List.nil_append, Option.head?_toList]
      rw [nestingFault?_eq_some_iff]
      constructor
      · intro hbreaks
        cases hbreaks with
        | children hwrong' => exact absurd hwrong' hwrong
        | place _ hplace' => exact absurd hplace' hplace
        | nesting child _ _ hnests => exact ⟨child, hnests, rfl⟩
      · rintro ⟨child, hnests, rfl⟩
        exact .nesting child hwrong hplace hnests

end Tree

namespace Forest

/-- The nodes of a document in preorder, each with whether it stands at the root. -/
def placed (forest : Forest) : List (Bool × Tree) :=
  forest.flatMap fun tree => (true, tree) :: tree.children.subtrees.map (false, ·)

/-- No node of the document breaks a rule. -/
def Fits (forest : Forest) : Prop :=
  ∀ node ∈ forest.placed, ∀ fault, ¬node.2.Breaks node.1 fault

/-- The fault of the first node of the document that breaks a rule. -/
def FirstFault (forest : Forest) (fault : Fault Nat) : Prop :=
  ∃ before node after, forest.placed = before ++ node :: after ∧
    (∀ earlier ∈ before, ∀ other, ¬earlier.2.Breaks earlier.1 other) ∧
    node.2.Breaks node.1 fault

end Forest

mutual

theorem Tree.faults_eq_flatMap (tree : Tree) :
    tree.faults false = tree.subtrees.flatMap (Tree.ownFaults false) := by
  obtain ⟨data, children⟩ := tree
  rw [Tree.faults, Tree.subtrees_node, List.flatMap_cons, Tree.forestFaults_eq_flatMap children]

theorem Tree.forestFaults_eq_flatMap (forest : Forest) :
    Tree.forestFaults false forest = forest.subtrees.flatMap (Tree.ownFaults false) := by
  cases forest with
  | nil => simp [Tree.forestFaults]
  | cons tree rest =>
      rw [Tree.forestFaults, Forest.subtrees_cons, List.flatMap_append,
        Tree.faults_eq_flatMap tree, Tree.forestFaults_eq_flatMap rest]

end

namespace Forest

theorem forestFaults_eq_placed (forest : Forest) :
    Tree.forestFaults true forest = forest.placed.flatMap fun node => node.2.ownFaults node.1 := by
  induction forest with
  | nil => simp [Tree.forestFaults, placed]
  | cons tree rest ih =>
      obtain ⟨data, children⟩ := tree
      rw [Tree.forestFaults, ih, Tree.faults, Tree.forestFaults_eq_flatMap, placed, placed,
        List.flatMap_cons, List.flatMap_append, List.flatMap_cons, List.flatMap_map]
      rfl

/-- Checking reports the first node that breaks a rule. -/
theorem check_eq_error_iff {forest : Forest} {fault : Fault Nat} :
    forest.check = .error fault ↔ forest.FirstFault fault := by
  have hcheck : forest.check = .error fault ↔
      (Tree.forestFaults true forest).head? = some fault := by
    unfold check
    cases Tree.forestFaults true forest <;> simp
  rw [hcheck, forestFaults_eq_placed, List.head?_flatMap, List.findSome?_eq_some_iff, FirstFault]
  simp only [Tree.breaks_iff, Option.eq_none_iff_forall_ne_some, ne_eq, and_comm]

theorem check_eq_ok_iff {forest : Forest} : forest.check = .ok () ↔ forest.Fits := by
  have hcheck : forest.check = .ok () ↔ Tree.forestFaults true forest = [] := by
    unfold check
    cases Tree.forestFaults true forest <;> simp
  rw [hcheck, forestFaults_eq_placed, List.flatMap_eq_nil_iff, Fits]
  simp only [Tree.breaks_iff, ← List.head?_eq_none_iff, Option.eq_none_iff_forall_ne_some, ne_eq]

end Forest

/-! ## Passes that cannot fail -/

namespace Draft

variable {source : Source} {registries : Registries}

/-- Only checking the structure and reading the title can fail. -/
theorem run_total (source : Source) (registries : Registries) {pass : Pass} (hcheck : pass ≠ .validate) (htitle : pass ≠ .title)
    (draft : Draft) : ∃ answer, pass.run source registries draft = .ok answer := by
  cases pass with
  | validate => exact absurd rfl hcheck
  | title => exact absurd rfl htitle
  | _ => exact ⟨_, rfl⟩

theorem runPasses_total (source : Source) (registries : Registries) {passes : List Pass}
    (hcheck : .validate ∉ passes) (htitle : .title ∉ passes) (draft : Draft) :
    ∃ final, (runPasses source registries passes draft).2 = .ok final := by
  induction passes generalizing draft with
  | nil => exact ⟨draft, rfl⟩
  | cons pass passes ih =>
      rw [List.mem_cons, not_or] at hcheck htitle
      obtain ⟨⟨next, notices⟩, hrun⟩ :=
        run_total source registries (Ne.symm hcheck.1) (Ne.symm htitle.1) draft
      rw [runPasses_cons_outcome hrun]
      exact ih hcheck.2 htitle.2 next

/-- The names that a pass takes from the table. -/
def takenBy : Pass → List String
  | .flags => Flag.all.map Flag.directive
  | .commands => [Command.directive]
  | .title => [PageTitle.directive]
  | .contributors => [Contributor.directive]
  | .notes => [Directive.noteName]
  | _ => []

/-- After the lift a pass leaves the directives alone that it does not take. -/
theorem named_run {pass : Pass} (hlift : pass ≠ .directives) {name : String}
    (hname : name ∉ takenBy pass) {draft next : Draft} {notices : List Notice}
    (hrun : pass.run source registries draft = .ok (next, notices)) :
    next.directives.named name = draft.directives.named name := by
  cases pass with
  | validate =>
      obtain ⟨-, rfl, -⟩ := validate_eq_ok hrun
      rfl
  | directives => exact absurd rfl hlift
  | flags =>
      cases hrun
      refine named_withoutFlags _ fun flag heq => hname ?_
      rw [heq]
      exact List.mem_map_of_mem (by cases flag <;> decide)
  | commands | contributors | notes =>
      cases hrun
      exact named_without _ fun heq => hname (List.mem_singleton.mpr heq)
  | title =>
      obtain ⟨first, others, -, rfl, -⟩ := title_eq_ok hrun
      exact named_without _ fun heq => hname (List.mem_singleton.mpr heq)
  | _ =>
      cases hrun
      rfl

/-- The passes before that for the title. -/
def beforeTitle : List Pass :=
  [.validate, .prune, .directives] ++ [.blockquotes, .trim, .paragraphs, .flags, .commands]

/-- The passes after that for the title. -/
def afterTitle : List Pass :=
  [.contributors, .notes, .externalLinks, .embeddedFiles, .lowering, .residualDirectives]

theorem inOrder_eq_title : Pass.inOrder = beforeTitle ++ .title :: afterTitle := rfl

/-- The pass for the title finds all titles of the source. -/
theorem titles_before_title {body : Forest} {draft : Draft}
    (hbody : Forest.ofLexemes source.lexemes = .ok body)
    (hrun : (runPasses source registries beforeTitle { body }).2 = .ok draft) :
    draft.directives.named PageTitle.directive = Directive.named "title" source.directives := by
  obtain ⟨lifted, hlifted, hrest⟩ := runPasses_append_eq_ok hrun
  have hledger := (lifted_directives hbody hlifted).1
  have hstart : lifted.directives = ⟨source.directives⟩ := congrArg Draft.directives hledger
  refine runPasses_invariant (P := fun other => other.directives.named PageTitle.directive =
    Directive.named "title" source.directives) ?_ hrest (by rw [hstart]; rfl)
  intro pass hpass other next notices hother hnext
  rw [← hother]
  refine named_run ?_ ?_ hnext
  · rintro rfl
    simp at hpass
  · simp only [List.mem_cons, List.not_mem_nil, or_false] at hpass
    rcases hpass with rfl | rfl | rfl | rfl | rfl <;> decide

/-- A page that passes the check reaches the pass for the title. -/
theorem exists_before_title (source : Source) (registries : Registries) {body : Forest}
    (hcheck : body.check = .ok ()) :
    ∃ draft, (runPasses source registries beforeTitle { body }).2 = .ok draft := by
  have hpasses : Pass.validate ∉ beforeTitle.tail ∧ Pass.title ∉ beforeTitle.tail := by decide
  obtain ⟨draft, hdraft⟩ := runPasses_total source registries hpasses.1 hpasses.2 { body }
  have hvalidate : Pass.validate.run source registries { body } = .ok ({ body }, []) := by
    simp only [Pass.run, hcheck, Except.map]
  exact ⟨draft, (runPasses_cons_outcome hvalidate _).trans hdraft⟩

theorem runPasses_of_fault {body : Forest} {fault : Fault Nat} (hcheck : body.check = .error fault) :
    (runPasses source registries Pass.inOrder { body }).2 = .error fault := by
  rw [show Pass.inOrder = .validate :: Pass.inOrder.tail from rfl, runPasses]
  simp only [Pass.run, hcheck, Except.map]

/-- Without a title the run ends at the pass for it. -/
theorem runPasses_untitled {body : Forest} (hbody : Forest.ofLexemes source.lexemes = .ok body)
    (hcheck : body.check = .ok ()) (hnone : Directive.named "title" source.directives = []) :
    (runPasses source registries Pass.inOrder { body }).2 = .error .missingTitle := by
  obtain ⟨draft, hdraft⟩ := exists_before_title source registries hcheck
  have htitles := (titles_before_title hbody hdraft).trans hnone
  rw [inOrder_eq_title, runPasses_append_outcome hdraft, runPasses]
  simp only [Pass.run, readTitle, htitles, PageTitle.ofDirectives?]

/-- With a title the run goes through to a document. -/
theorem exists_document (registries : Registries) {body : Forest} (hbody : Forest.ofLexemes source.lexemes = .ok body)
    (hcheck : body.check = .ok ()) (hsome : Directive.named "title" source.directives ≠ []) :
    ∃ final document, (runPasses source registries Pass.inOrder { body }).2 = .ok final ∧
      final.finish = .ok document := by
  obtain ⟨draft, hdraft⟩ := exists_before_title source registries hcheck
  have htitles := titles_before_title hbody hdraft
  obtain ⟨first, others, hfirst⟩ := List.exists_cons_of_ne_nil hsome
  obtain ⟨⟨titled, notices⟩, htitle⟩ :
      ∃ answer, Pass.title.run source registries draft = .ok answer := by
    simp only [Pass.run, readTitle, htitles, hfirst, PageTitle.ofDirectives?]
    exact ⟨_, rfl⟩
  have hpasses : Pass.validate ∉ afterTitle ∧ Pass.title ∉ afterTitle := by decide
  obtain ⟨final, hfinal⟩ := runPasses_total source registries hpasses.1 hpasses.2 titled
  have hrun : (runPasses source registries Pass.inOrder { body }).2 = .ok final := by
    rw [inOrder_eq_title, runPasses_append_outcome hdraft, runPasses_cons_outcome htitle, hfinal]
  obtain ⟨lifted, hlifted, hrest⟩ := runPasses_append_eq_ok (inOrder_eq_lift ▸ hrun)
  obtain ⟨_, -, hledger, -⟩ := account_of_lifted (lifted_directives hbody hlifted).1 hrest
  obtain ⟨title, htitled⟩ : ∃ title, final.title = some title :=
    ⟨_, congrArg Draft.title (show final.ledger = _ from hledger)⟩
  exact ⟨final, _, hrun, by rw [finish, htitled]⟩

end Draft

open Draft

/-! ## Texts -/

/-- The text is refused with the fault. -/
inductive Refused (text : String) : Fault Nat → Prop where
  | empty : text = "" → Refused text .emptyInput
  | unclosed (name : String) (opener : Nat) : text ≠ "" →
      Forest.ofLexemes (Source.ofText text).lexemes = .error (.unclosedAggregate name opener) →
      Refused text (.unclosedAggregate name opener)
  | broken (body : Forest) {fault : Fault Nat} : text ≠ "" →
      Forest.ofLexemes (Source.ofText text).lexemes = .ok body → body.FirstFault fault →
      Refused text fault
  | untitled (body : Forest) : text ≠ "" →
      Forest.ofLexemes (Source.ofText text).lexemes = .ok body → body.Fits →
      (∀ directive ∈ (Source.ofText text).directives, directive.name ≠ "title") →
      Refused text .missingTitle

theorem Source.isEmpty_ofText {text : String} : (ofText text).isEmpty = true ↔ text = "" := by
  rw [ofText, isEmpty, List.isEmpty_toArray, List.isEmpty_iff, Text.clusters, List.map_eq_nil_iff]
  constructor
  · intro hnone
    have hchars := Text.clusterLists_flatten text.toList
    rw [hnone] at hchars
    exact String.toList_eq_nil_iff.mp hchars.symm
  · rintro rfl
    rfl

/-- A text that is not empty is nested, goes through the passes and is finished. -/
theorem Source.compile_outcome {source : Source} (hsome : ¬source.isEmpty) (registries : Registries) :
    (source.compile registries).2 = (Forest.ofLexemes source.lexemes).bind fun body =>
      (runPasses source registries Pass.inOrder { body }).2.bind Draft.finish := by
  rw [compile, if_neg hsome]
  cases Forest.ofLexemes source.lexemes with
  | error fault => rfl
  | ok body =>
      dsimp only [Except.bind]
      generalize runPasses source registries Pass.inOrder { body } = run
      obtain ⟨happenings, outcome⟩ := run
      cases outcome with
      | error fault => rfl
      | ok final => cases hfinish : final.finish <;> simp [hfinish]

/-- A nested page fails at the check or at the title. -/
theorem runPasses_eq_error_iff {source : Source} {registries : Registries} {body : Forest}
    {fault : Fault Nat} (hbody : Forest.ofLexemes source.lexemes = .ok body) :
    (runPasses source registries Pass.inOrder { body }).2.bind Draft.finish = .error fault ↔
      body.FirstFault fault ∨ body.Fits ∧
        (∀ directive ∈ source.directives, directive.name ≠ "title") ∧ fault = .missingTitle := by
  have huntitled : (∀ directive ∈ source.directives, directive.name ≠ "title") ↔
      Directive.named "title" source.directives = [] := by
    simp [Directive.named, List.filter_eq_nil_iff]
  rw [huntitled, ← Forest.check_eq_error_iff, ← Forest.check_eq_ok_iff]
  cases hcheck : body.check with
  | error found =>
      rw [runPasses_of_fault hcheck]
      constructor
      · rintro ⟨⟩
        exact .inl rfl
      · rintro (⟨⟨⟩⟩ | ⟨hok, -⟩)
        · rfl
        · cases hok
  | ok =>
      by_cases hnone : Directive.named "title" source.directives = []
      · rw [runPasses_untitled hbody hcheck hnone]
        constructor
        · rintro ⟨⟩
          exact .inr ⟨rfl, hnone, rfl⟩
        · rintro (hfault | ⟨-, -, rfl⟩)
          · cases hfault
          · rfl
      · obtain ⟨final, document, hrun, hfinish⟩ :=
          exists_document registries hbody hcheck hnone
        rw [hrun]
        constructor
        · intro herror
          rw [show (Except.ok final).bind Draft.finish = final.finish from rfl, hfinish] at herror
          cases herror
        · rintro (hfault | ⟨-, hnone', -⟩)
          · cases hfault
          · exact absurd hnone' hnone

/-- A compilation fails just if the text is refused, and with that fault. -/
theorem compile_eq_error_iff {text : String} {registries : Registries} {fault : Fault Nat} :
    ((Source.ofText text).compile registries).2 = .error fault ↔ Refused text fault := by
  by_cases hempty : text = ""
  · rw [Source.compile, if_pos (Source.isEmpty_ofText.mpr hempty)]
    constructor
    · rintro ⟨⟩
      exact .empty hempty
    · intro hrefused
      cases hrefused with
      | empty => rfl
      | unclosed _ _ hne | broken _ hne | untitled _ hne => exact absurd hempty hne
  · rw [Source.compile_outcome (mt Source.isEmpty_ofText.mp hempty)]
    cases hbody : Forest.ofLexemes (Source.ofText text).lexemes with
    | error found =>
        constructor
        · rintro ⟨⟩
          obtain ⟨opener, -, rfl⟩ :=
            (Forest.ofLexemes_eq_error_iff (Source.isRaw_lexemes _) fault).mp hbody
          exact .unclosed _ _ hempty hbody
        · intro hrefused
          cases hrefused with
          | empty hempty' => exact absurd hempty' hempty
          | unclosed _ _ _ hopen => rw [hbody] at hopen; cases hopen; rfl
          | broken _ _ hopen | untitled _ _ hopen => rw [hbody] at hopen; cases hopen
    | ok body =>
        refine (runPasses_eq_error_iff hbody).trans ?_
        constructor
        · rintro (hfault | ⟨hfits, huntitled, rfl⟩)
          · exact .broken body hempty hbody hfault
          · exact .untitled body hempty hbody hfits huntitled
        · intro hrefused
          cases hrefused with
          | empty hempty' => exact absurd hempty' hempty
          | unclosed _ _ _ hopen => rw [hbody] at hopen; cases hopen
          | broken other _ hother hfault =>
              rw [hbody] at hother
              cases hother
              exact .inl hfault
          | untitled other _ hother hfits huntitled =>
              rw [hbody] at hother
              cases hother
              exact .inr ⟨hfits, huntitled, rfl⟩

theorem outcome_of_error {text : String} {file : Option String} {registries : Registries}
    {fault : Fault Nat} (hfault : ((Source.ofText text).compile registries).2 = .error fault) :
    (compilePage text file registries).outcome =
      .error (fault.map ((Source.ofText text).location file)) := by
  rw [compilePage, Source.compilation]
  generalize (Source.ofText text).compile registries = run at *
  obtain ⟨happenings, outcome⟩ := run
  cases hfault
  rfl

theorem outcome_of_ok {text : String} {file : Option String} {registries : Registries}
    {document : Document}
    (hdocument : ((Source.ofText text).compile registries).2 = .ok document) :
    (compilePage text file registries).outcome = .ok document := by
  rw [compilePage, Source.compilation]
  generalize (Source.ofText text).compile registries = run at *
  obtain ⟨happenings, outcome⟩ := run
  cases hdocument
  rfl

section Outcome

variable {text : String} {refusal other : Fault Nat}

/-- A text that is refused is told why in its file. -/
theorem Refused.outcome (hrefused : Refused text refusal) (file : Option String)
    (registries : Registries) :
    (compilePage text file registries).outcome =
      .error (refusal.map ((Source.ofText text).location file)) :=
  outcome_of_error (compile_eq_error_iff.mpr hrefused)

/-- A text is refused with one fault only. -/
theorem Refused.unique (hrefused : Refused text refusal) (hother : Refused text other) :
    refusal = other := by
  have hsame : ((Source.ofText text).compile .empty).2 = .error refusal :=
    compile_eq_error_iff.mpr hrefused
  rw [compile_eq_error_iff.mpr hother] at hsame
  cases hsame
  rfl

/-- A compilation fails with what its text is refused with. -/
theorem exists_refused_of_outcome {file : Option String} {registries : Registries}
    {fault : Fault Location}
    (hfault : (compilePage text file registries).outcome = .error fault) :
    ∃ refusal : Fault Nat, Refused text refusal ∧
      fault = refusal.map ((Source.ofText text).location file) := by
  cases hcompile : ((Source.ofText text).compile registries).2 with
  | error refusal =>
      rw [outcome_of_error hcompile] at hfault
      cases hfault
      exact ⟨refusal, compile_eq_error_iff.mp hcompile, rfl⟩
  | ok document =>
      rw [outcome_of_ok hcompile] at hfault
      cases hfault

/-- A text that is not refused compiles. -/
theorem exists_document_of_accepted (haccepted : ∀ refusal, ¬Refused text refusal)
    (file : Option String) (registries : Registries) :
    ∃ document, (compilePage text file registries).outcome = .ok document := by
  cases houtcome : (compilePage text file registries).outcome with
  | error fault =>
      obtain ⟨refusal, hrefused, -⟩ := exists_refused_of_outcome houtcome
      exact absurd hrefused (haccepted refusal)
  | ok document => exact ⟨document, rfl⟩

end Outcome

/-- Whether a text compiles is a matter of the text alone, and so is the fault up to the
file that it is told to be in. -/
theorem compilePage_outcome (text : String) (file : Option String) (registries : Registries) :
    (∀ fault, (compilePage text file registries).outcome = .error fault ↔
      ∃ refusal : Fault Nat, Refused text refusal ∧ fault = refusal.map ((Source.ofText text).location file)) ∧
    ((∃ document, (compilePage text file registries).outcome = .ok document) ↔
      ∀ refusal, ¬Refused text refusal) ∧
    (∀ refusal other : Fault Nat, Refused text refusal → Refused text other → refusal = other) ∧
    (∀ pass ∈ afterTitle, ∀ draft, ∃ answer,
      pass.run (Source.ofText text) registries draft = .ok answer) ∧
    ∀ otherFile otherRegistries,
      (∃ document other, (compilePage text file registries).outcome = .ok document ∧
        (compilePage text otherFile otherRegistries).outcome = .ok other) ∨
      ∃ refusal : Fault Nat, Refused text refusal ∧
        (compilePage text file registries).outcome =
          .error (refusal.map ((Source.ofText text).location file)) ∧
        (compilePage text otherFile otherRegistries).outcome =
          .error (refusal.map ((Source.ofText text).location otherFile)) := by
  refine ⟨?_, ?_, ?_, ?_, ?_⟩
  · intro fault
    constructor
    · exact exists_refused_of_outcome
    · rintro ⟨refusal, hrefused, rfl⟩
      exact hrefused.outcome file registries
  · constructor
    · rintro ⟨document, hdocument⟩ refusal hrefused
      rw [hrefused.outcome] at hdocument
      cases hdocument
    · intro haccepted
      exact exists_document_of_accepted haccepted file registries
  · intro refusal other hrefused hother
    exact hrefused.unique hother
  · intro pass hpass draft
    refine run_total _ registries ?_ ?_ draft
    · rintro rfl
      exact absurd hpass (by decide)
    · rintro rfl
      exact absurd hpass (by decide)
  · intro otherFile otherRegistries
    by_cases hsome : ∃ refusal, Refused text refusal
    · obtain ⟨refusal, hrefused⟩ := hsome
      exact .inr ⟨refusal, hrefused, hrefused.outcome _ _, hrefused.outcome _ _⟩
    · have haccepted := not_exists.mp hsome
      obtain ⟨document, hdocument⟩ := exists_document_of_accepted haccepted file registries
      obtain ⟨other, hother⟩ := exists_document_of_accepted haccepted otherFile otherRegistries
      exact .inl ⟨document, other, hdocument, hother⟩

end PageMarkup
