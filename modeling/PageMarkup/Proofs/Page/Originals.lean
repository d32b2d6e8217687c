import PageMarkup.Proofs.Page.Brackets
import PageMarkup.Proofs.Page.Pointing
import PageMarkup.Proofs.Page.Ready

/-! # Aggregates as they were nested

The passes move aggregates, merge and empty them, but every one that they warn of has the
opening marker of a tree of the nested page. No warning is about a node that a pass has made
up: the notes section has a heading without a marker, which is never left with nothing.
-/

namespace PageMarkup

open Node Forest

variable {source : Source} {registries : Registries} {page forest : Forest}

/-- An aggregate has the opening marker of a tree of the page of its kind. -/
def Node.Original (page : Forest) : Rule := fun data _ =>
  ∀ aggregate, data.kind = .aggregate aggregate →
    ∃ tree ∈ page.subtrees, tree.kind = .aggregate aggregate ∧
      ∃ opener, tree.data.opener = some opener ∧ data.opener = some opener

namespace Node

theorem stable_original : Rule.Stable (Original page) where
  fewer hdata _ := hdata
  text _ _ hdata := hdata
  span _ hdata := hdata
  paragraph _ _ := nofun
  quote _ _ hdata := hdata

/-- What is no aggregate needs no origin. -/
theorem original_of_none {data : Node} (hkind : data.kind.aggregate? = none) (kinds : List Kind) :
    Original page data kinds := by
  intro aggregate haggregate
  rw [haggregate] at hkind
  cases hkind

end Node

variable (hpage : ofLexemes source.lexemes = .ok page)

include hpage

theorem Forest.original_self : page.Obeys (Original page) := by
  refine Tree.forestObeys_of_subtrees fun tree hmem aggregate hkind => ?_
  obtain ⟨opener, hopener, -⟩ := Source.opens_of_mem_subtrees hpage hmem hkind
  exact ⟨tree, hmem, hkind, opener, hopener, hopener⟩

/-- The warning about an empty aggregate points at its opening marker. -/
theorem Node.Original.points_emptyNotice {data : Node} {kinds : List Kind}
    (hdata : Original page data kinds) (hneeds : data.kind.needsChildren = true) :
    data.emptyNotice.Points source registries page := by
  obtain ⟨aggregate, hkind⟩ := Kind.aggregate_of_any hneeds
  obtain ⟨tree, hmem, htree, opener, hopener, hsame⟩ := hdata aggregate hkind
  have hoffset : data.offset = tree.data.offset := by rw [Node.offset, hsame, Node.offset, hopener]
  rw [emptyNotice, hoffset]
  exact Notice.points_of_tree hpage hmem htree (htree.trans hkind.symm)

/-! ## Pruning -/

omit hpage

namespace Tree

mutual

theorem exists_of_mem_pruneEmpty {tree : Tree} {notice : Notice}
    (hmem : notice ∈ tree.pruneEmpty.2) :
    ∃ below ∈ tree.subtrees, below.kind.needsChildren = true ∧
      notice = below.data.emptyNotice := by
  obtain ⟨data, children⟩ := tree
  have hinside : notice ∈ (forestPruneEmpty children).2 →
      ∃ below ∈ (node data children).subtrees, below.kind.needsChildren = true ∧
        notice = below.data.emptyNotice := by
    intro hmem
    obtain ⟨below, hbelow, hfrom⟩ := exists_of_mem_forestPruneEmpty hmem
    exact ⟨below, mem_subtrees_iff.mpr (.inr hbelow), hfrom⟩
  rw [pruneEmpty] at hmem
  dsimp only at hmem
  split at hmem
  next hempty =>
    rcases List.mem_append.mp hmem with hmem | hmem
    · exact hinside hmem
    · exact ⟨_, mem_subtrees_iff.mpr (.inl rfl), hempty.1, List.mem_singleton.mp hmem⟩
  next => exact hinside hmem

/-- Pruning warns about nodes that are there. -/
theorem exists_of_mem_forestPruneEmpty {forest : Forest} {notice : Notice}
    (hmem : notice ∈ (forestPruneEmpty forest).2) :
    ∃ below ∈ forest.subtrees, below.kind.needsChildren = true ∧
      notice = below.data.emptyNotice := by
  cases forest with
  | nil => simp [forestPruneEmpty] at hmem
  | cons tree rest =>
      rw [Forest.subtrees_cons]
      rcases List.mem_append.mp hmem with hmem | hmem
      · obtain ⟨below, hbelow, hfrom⟩ := exists_of_mem_forestPruneEmpty hmem
        exact ⟨below, List.mem_append_right _ hbelow, hfrom⟩
      · obtain ⟨below, hbelow, hfrom⟩ := exists_of_mem_pruneEmpty hmem
        exact ⟨below, List.mem_append_left _ hbelow, hfrom⟩

end

end Tree

include hpage in
theorem Forest.Obeys.points_pruneEmpty (hforest : forest.Obeys (Original page)) :
    ∀ notice ∈ forest.pruneEmpty.2, notice.Points source registries page := by
  intro notice hmem
  obtain ⟨tree, htree, hneeds, rfl⟩ := Tree.exists_of_mem_forestPruneEmpty hmem
  exact (Tree.forestObeys_of_mem_subtrees hforest htree).data.points_emptyNotice hpage hneeds

/-! ## Taking trees out -/

namespace Forest

variable {rule : Rule} {p : Tree → Bool}

/-- What is taken out obeys the rules of the forest, and so does what is emptied by it. -/
theorem RemovesFirst.obeys_removed {target : Tree} {removal : Removal}
    (hremoves : RemovesFirst p target forest removal) (hforest : forest.Obeys rule) :
    removal.removed = some target.data ∧ target.Obeys rule ∧
      ∀ data ∈ removal.emptied, ∃ kinds, rule data kinds := by
  induction hremoves with
  | here before after =>
      exact ⟨rfl, (obeys_cons.mp (obeys_append.mp hforest).2).1, List.forall_mem_nil _⟩
  | deeper before after data children inner _ _ _ _ ih =>
      exact ih (obeys_cons.mp (obeys_append.mp hforest).2).1.children
  | settled before after data children inner _ _ _ _ _ ih =>
      exact ih (obeys_cons.mp (obeys_append.mp hforest).2).1.children
  | emptied before after data children inner _ _ _ _ _ _ ih =>
      have hnode := (obeys_cons.mp (obeys_append.mp hforest).2).1
      obtain ⟨hremoved, htarget, hemptied⟩ := ih hnode.children
      exact ⟨hremoved, htarget, List.forall_mem_append.mpr
        ⟨hemptied, List.forall_mem_singleton.mpr ⟨_, hnode.data⟩⟩⟩

/-- Taking trees out of the front of a forest has to do with nodes of the front only. -/
theorem obeys_removals (hrule : rule.Wears)
    (hp : ∀ tree, p tree = true → tree.kind.goesWhenEmpty = true) (hforest : forest.Obeys rule)
    {ending : Forest} (hending : Lacks p ending) :
    ∀ removal ∈ (removeWhere p (forest ++ ending)).2,
      (∃ target : Tree, removal.removed = some target.data ∧ target.Obeys rule ∧
        p target = true) ∧
      ∀ data ∈ removal.emptied, ∃ kinds, rule data kinds := by
  rw [removeWhere]
  generalize (forest ++ ending).subtrees.countP p = count
  induction count generalizing forest with
  | zero => exact List.forall_mem_nil _
  | succ count ih =>
      rw [removeTimes, Tree.forestFindPath?_append hending]
      split
      next => exact List.forall_mem_nil _
      next path hfind =>
        obtain ⟨target, hremoves⟩ := removesFirst_of_findPath? hfind
        obtain ⟨hremoved, htarget, hemptied⟩ := hremoves.obeys_removed hforest
        have hholds := (mem_matching.mp hremoves.target_mem).2
        -- The ending has no tree to take out, so the path leads into the front.
        dsimp only
        rw [removeAt_append hfind]
        exact List.forall_mem_cons.mpr ⟨⟨⟨target, hremoved, htarget, hholds⟩, hemptied⟩,
          ih (hremoves.obeys hrule hp hforest)⟩

include hpage in
/-- The warnings about what is emptied point at opening markers. -/
theorem points_of_emptied {removal : Removal}
    (hemptied : ∀ data ∈ removal.emptied, ∃ kinds, Original page data kinds) :
    ∀ notice ∈ removal.notices, notice.Points source registries page := by
  intro notice hmem
  obtain ⟨data, hdata, hnotice⟩ := List.mem_filterMap.mp hmem
  obtain ⟨kinds, horiginal⟩ := hemptied data hdata
  unfold Node.emptiedNotice? at hnotice
  split at hnotice
  next hneeds =>
    cases hnotice
    exact horiginal.points_emptyNotice hpage hneeds
  next => cases hnotice

end Forest

/-! ## Notes -/

namespace Note

/-- Taking out the references to a name has to do with nodes of the page only. -/
theorem original_removals (name : String) (hforest : forest.Obeys (Original page)) :
    ∀ removal ∈ (forest.removeWhere (Tree.refersTo name)).2,
      (∃ target : Tree, removal.removed = some target.data ∧ target.Obeys (Original page) ∧
        target.refersTo name = true) ∧
      ∀ data ∈ removal.emptied, ∃ kinds, Original page data kinds := by
  have hnone : Lacks (Tree.refersTo name) [] := by simp [Lacks]
  have hremovals := obeys_removals stable_original.wears
    (fun _ => Tree.goesWhenEmpty_of_refersTo) hforest hnone
  rwa [List.append_nil] at hremovals

include hpage in
/-- What dropping references warns of is a note, or an aggregate that is emptied by it. -/
theorem points_dropUndefined (names : List String) (hforest : forest.Obeys (Original page)) :
    ∀ notice ∈ (dropUndefined names forest).2, notice.remark.isNoteWarning = false →
      notice.Points source registries page := by
  induction names generalizing forest with
  | nil => exact List.forall_mem_nil _
  | cons name names ih =>
      have hremovals := original_removals name hforest
      have hgoes : ∀ tree : Tree, tree.refersTo name = true → tree.kind.goesWhenEmpty = true :=
        fun _ => Tree.goesWhenEmpty_of_refersTo
      have hkept := hforest.removeWhere stable_original.wears hgoes
      intro notice hmem hother
      rw [dropUndefined] at hmem
      dsimp only at hmem
      rcases List.mem_cons.mp hmem with rfl | hmem
      · cases hother
      · rcases List.mem_append.mp hmem with hmem | hmem
        · obtain ⟨removal, hremoval, hmem⟩ := List.mem_flatMap.mp hmem
          exact points_of_emptied hpage (hremovals removal hremoval).2 notice hmem
        · exact ih hkept notice hmem hother

end Note

/-! ## Pages before their notes are resolved -/

namespace Forest

/-- A page with its directives lifted, in blocks. -/
abbrev blocks (source : Source) (page : Forest) : Forest :=
  (Directive.body source page.pruneEmpty.1).arranged

include hpage in
theorem original_blocks : (blocks source page).Obeys (Original page) := by
  have hpruned : page.pruneEmpty.1.Obeys (Original page) :=
    Tree.forestObeys_pruneEmpty (fun hdata _ => hdata) (original_self hpage)
  exact (hpruned.subset List.filter_sublist.subset).arranged stable_original

variable (hcheck : page.check = .ok ())

include hpage hcheck

theorem sound_blocks : (blocks source page).Obeys (Sound liftedKinds) :=
  (sound_lifted hpage hcheck).arranged (.sound (by decide))

theorem bracketsOf_blocks : BracketsOf page (blocks source page) :=
  ((bracketsOf_pruneEmpty (built_ofLexemes hpage) (checked_of_check hcheck)).subset
    List.filter_sublist.subset).arranged

end Forest

variable {definitions : List Directive}

/-- Resolving the notes of a page points at definitions, at first references, and at what is
emptied when references are dropped. -/
theorem Note.points_resolve (hpage : ofLexemes source.lexemes = .ok page)
    (hcheck : page.check = .ok ()) (hsublist : definitions.Sublist source.directives)
    (hname : ∀ definition ∈ definitions, definition.name = "note") :
    ∀ notice ∈ (resolve definitions (blocks source page)).2,
      notice.Points source registries page := by
  have hsound := sound_blocks hpage hcheck
  have hreferences : (blocks source page).references = page.references.filter (!·.isLeaf) :=
    references_before_notes hpage hcheck
  have hdefinitions : ∀ notice ∈ definitionWarnings (names (blocks source page)) [] definitions,
      notice.Points source registries page := by
    rw [← List.nil_append definitions] at hsublist hname
    exact points_definitionWarnings hsublist hname (List.forall_mem_nil _)
  have hdropped : ∀ notice ∈ (withoutUndefined definitions (blocks source page)).2,
      notice.Points source registries page := by
    intro notice hmem
    cases hnote : notice.remark.isNoteWarning with
    | false => exact points_dropUndefined hpage _ (original_blocks hpage) notice hmem hnote
    | true =>
        have hnodup : ((names (blocks source page)).filter
            fun name => !definitions.any (·.subname == name)).Nodup :=
          (nodup_eraseDups _).filter _
        have hwarning : notice ∈ (withoutUndefined definitions (blocks source page)).2.filter
            (·.remark.isNoteWarning) := List.mem_filter.mpr ⟨hmem, hnote⟩
        rw [withoutUndefined, warnings_dropUndefined hnodup hsound (by decide)] at hwarning
        obtain ⟨name, hundefined, rfl⟩ := List.mem_map.mp hwarning
        have hused : name ∈ names (blocks source page) := List.mem_of_mem_filter hundefined
        obtain ⟨reference, hreference, hnamed⟩ := mem_names.mp hused
        -- The name has been read from a reference, so there is a first one.
        obtain ⟨first, hfirst⟩ : ∃ first, (blocks source page).references.find?
            (·.noteName == name) = some first := by
          rw [← Option.isSome_iff_exists, List.find?_isSome]
          exact ⟨reference, hreference, beq_iff_eq.mpr hnamed⟩
        rw [hfirst, Option.map_some]
        rw [hreferences] at hfirst
        obtain ⟨hmatching, -⟩ := List.mem_filter.mp (List.mem_of_find?_eq_some hfirst)
        obtain ⟨hsubtree, href⟩ := mem_matching.mp hmatching
        have hkind : first.kind = .aggregate (.bracket .noteRef) := beq_iff_eq.mp href
        have habout : Remark.IsAboutTree registries page first (.noteUndefined name) := hfirst
        exact Notice.points_of_tree hpage hsubtree hkind habout
  rw [resolve_eq]
  dsimp only
  split
  next => exact List.forall_mem_append.mpr ⟨hdefinitions, hdropped⟩
  next =>
    refine List.forall_mem_append.mpr
      ⟨List.forall_mem_append.mpr ⟨hdefinitions, hdropped⟩, ?_⟩
    exact List.forall_mem_singleton.mpr (.general rfl)

/-! ## Pages with their notes -/

/-- A page from its top: aggregates as they were nested, and after them the notes section if there
is one. -/
inductive Forest.Marked (page : Forest) : Forest → Prop where
  | plain {main : Forest} : main.Obeys (Original page) → Marked page main
  | noted {main : Forest} (notes : List Note) :
      main.Obeys (Original page) → Marked page (main ++ Note.sectionOf notes)

theorem Note.original_referenceTree (note : Note) (index : Nat) (data : Node) :
    (note.referenceTree index data).Obeys (Original page) :=
  Tree.obeys_node.mpr ⟨original_of_none rfl _,
    obeys_cons.mpr ⟨Tree.obeys_node.mpr ⟨original_of_none rfl _, obeys_nil⟩, obeys_nil⟩⟩

theorem Forest.marked_resolve (definitions : List Directive)
    (hforest : forest.Obeys (Original page)) : Marked page (Note.resolve definitions forest).1 := by
  have hkept : (Note.withoutUndefined definitions forest).1.Obeys (Original page) :=
    Note.obeys_dropUndefined stable_original.wears _ hforest
  rw [Note.resolve_eq]
  dsimp only
  split
  next => exact .plain hkept
  next =>
    refine .noted _ (Tree.forestObeys_rewriteNoteRefs (fun _ _ _ hdata => hdata)
      (fun _ _ hdata => hdata) (fun note index data _ _ _ => ?_) [] hkept)
    exact Note.original_referenceTree note index data

section Expanding

variable {f : Tree → Option (Forest × List Notice)}

namespace Tree

mutual

theorem exists_of_mem_expand {tree : Tree} {notice : Notice} (hmem : notice ∈ (expand f tree).2) :
    ∃ below ∈ tree.subtrees, ∃ answer, f below = some answer ∧ notice ∈ answer.2 := by
  obtain ⟨data, children⟩ := tree
  rw [expand] at hmem
  split at hmem
  next answer hanswer => exact ⟨_, mem_subtrees_iff.mpr (.inl rfl), answer, hanswer, hmem⟩
  next =>
    obtain ⟨below, hbelow, hfrom⟩ := exists_of_mem_forestExpand hmem
    exact ⟨below, mem_subtrees_iff.mpr (.inr hbelow), hfrom⟩

/-- The notices of an expansion come with the answers for subtrees. -/
theorem exists_of_mem_forestExpand {forest : Forest} {notice : Notice}
    (hmem : notice ∈ (forestExpand f forest).2) :
    ∃ below ∈ forest.subtrees, ∃ answer, f below = some answer ∧ notice ∈ answer.2 := by
  cases forest with
  | nil => cases hmem
  | cons tree rest =>
      rw [Forest.subtrees_cons]
      rcases List.mem_append.mp hmem with hmem | hmem
      · obtain ⟨below, hbelow, hfrom⟩ := exists_of_mem_expand hmem
        exact ⟨below, List.mem_append_left _ hbelow, hfrom⟩
      · obtain ⟨below, hbelow, hfrom⟩ := exists_of_mem_forestExpand hmem
        exact ⟨below, List.mem_append_right _ hbelow, hfrom⟩

end

end Tree

/-- Replacing aggregates by what has none leaves the notes section alone if nothing in it is
replaced. -/
theorem Forest.Marked.forestExpand
    (hf : ∀ tree answer, f tree = some answer → answer.1.Obeys (Original page))
    (hnotes : ∀ notes, ∀ tree ∈ (Note.sectionOf notes).subtrees, f tree = none)
    (hforest : Marked page forest) : Marked page (Tree.forestExpand f forest).1 := by
  have hkept : ∀ {main : Forest}, main.Obeys (Original page) →
      Forest.Obeys (Original page) (Tree.forestExpand f main).1 :=
    Tree.forestObeys_expand (fun _ _ _ hdata => hdata) fun tree answer _ => hf tree answer
  cases hforest with
  | plain hmain => exact .plain (hkept hmain)
  | noted notes hmain =>
      rw [Tree.forestExpand_append, Tree.forestExpand_of_unanswered (hnotes notes)]
      exact .noted notes (hkept hmain)

end Expanding

/-! ## Links and embeds -/

theorem Forest.Marked.resolveExternals (hforest : Marked page forest) :
    Marked page (Link.resolveExternals forest).1 := by
  refine hforest.forestExpand (fun tree answer hanswer => ?_) (fun notes tree hmem => ?_)
  · cases (Link.answers_of_resolveExternal? hanswer).2 with
    | removed => exact obeys_nil
    | leaf =>
        exact obeys_cons.mpr ⟨Tree.obeys_node.mpr ⟨original_of_none rfl _, obeys_nil⟩, obeys_nil⟩
  · refine Link.resolveExternal?_eq_none_iff.mpr fun hkind => not_mem_embeddedKinds hmem ?_
    rw [hkind]
    decide

theorem Forest.Marked.resolveAll (registries : Registries) (hforest : Marked page forest) :
    Marked page (Embed.resolveAll registries forest).1 := by
  refine hforest.forestExpand (fun tree answer hanswer => ?_) (fun notes tree hmem => ?_)
  · cases (Embed.answers_of_resolve? hanswer).2 with
    | removed => exact obeys_nil
    | figure =>
        have hready : ∀ element : Element, (Tree.elementLeaf element).Obeys (Original page) :=
          fun element => Tree.obeys_node.mpr ⟨original_of_none rfl _, obeys_nil⟩
        refine obeys_cons.mpr ⟨Tree.obeys_node.mpr ⟨original_of_none rfl _, ?_⟩, obeys_nil⟩
        refine obeys_cons.mpr ⟨Tree.obeys_node.mpr ⟨original_of_none rfl _, ?_⟩, ?_⟩
        · exact obeys_cons.mpr ⟨hready _, obeys_nil⟩
        · exact obeys_cons.mpr ⟨hready _, obeys_nil⟩
  · refine Embed.resolve?_eq_none_iff.mpr fun hkind => not_mem_embeddedKinds hmem ?_
    rw [hkind]
    decide

section Brackets

variable (hpage : ofLexemes source.lexemes = .ok page) (hforest : BracketsOf page forest)

include hpage hforest

theorem Link.points_resolveExternals :
    ∀ notice ∈ (resolveExternals forest).2, notice.Points source registries page := by
  intro notice hmem
  obtain ⟨tree, htree, answer, hanswer, hmem⟩ := Tree.exists_of_mem_forestExpand hmem
  obtain ⟨hkind, hanswers⟩ := answers_of_resolveExternal? hanswer
  cases hanswers with
  | removed hempty =>
      rw [List.mem_singleton.mp hmem]
      exact Notice.points_of_tree hpage (hforest tree htree _ hkind) hkind ⟨hkind, hempty⟩
  | leaf => cases hmem

theorem Embed.points_resolveAll :
    ∀ notice ∈ (resolveAll registries forest).2, notice.Points source registries page := by
  intro notice hmem
  obtain ⟨tree, htree, answer, hanswer, hmem⟩ := Tree.exists_of_mem_forestExpand hmem
  obtain ⟨hkind, hanswers⟩ := answers_of_resolve? hanswer
  have hsubtree := hforest tree htree _ hkind
  cases hanswers with
  | removed hunknown =>
      rw [List.mem_singleton.mp hmem]
      exact Notice.points_of_tree hpage hsubtree hkind ⟨hkind, rfl, hunknown⟩
  | figure hembed _ =>
      obtain ⟨width, hwidth, rfl⟩ := eq_of_mem_usedWidth hmem
      rw [← hembed] at hwidth ⊢
      exact Notice.points_of_tree hpage hsubtree hkind ⟨hkind, rfl, hwidth, rfl⟩

end Brackets

/-! ## Headings -/

theorem Kind.needsChildren_of_headingLevel? {kind : Kind}
    (hlevel : kind.headingLevel?.isSome = true) : kind.needsChildren = true := by
  obtain ⟨level, hlevel⟩ := Option.isSome_iff_exists.mp hlevel
  rw [Kind.eq_heading_of_headingLevel? hlevel]
  rfl

/-- The blank headings that are dropped, and what is emptied by that, are aggregates with openers
of the page. -/
theorem Forest.Marked.blank_removals (hforest : Marked page forest) :
    ∀ removal ∈ ((Tree.forestTrimHeadings forest).removeWhere fun tree =>
        tree.isHeading && tree.isLeaf).2,
      (∃ target : Tree, removal.removed = some target.data ∧ target.Obeys (Original page) ∧
        target.kind.needsChildren = true) ∧
      ∀ data ∈ removal.emptied, ∃ kinds, Original page data kinds := by
  -- Trimming the headings leaves the section alone, and nothing in it is blank.
  obtain ⟨main, ending, htrimmed, hmain, hending⟩ : ∃ main ending,
      Tree.forestTrimHeadings forest = main ++ ending ∧ main.Obeys (Original page) ∧
        Lacks (fun tree => tree.isHeading && tree.isLeaf) ending := by
    have htrim : ∀ {main : Forest}, main.Obeys (Original page) →
        Forest.Obeys (Original page) (Tree.forestTrimHeadings main) :=
      Tree.forestObeys_trimHeadings stable_original.wears fun hdata _ _ => hdata
    cases hforest with
    | plain hmain => exact ⟨_, [], (List.append_nil _).symm, htrim hmain, by simp [Lacks]⟩
    | noted notes hmain =>
        refine ⟨_, Note.sectionOf notes, ?_, htrim hmain, lacks_blank_sectionOf notes⟩
        rw [forestTrimHeadings_append, forestTrimHeadings_sectionOf]
  have hneeds : ∀ tree : Tree, (tree.isHeading && tree.isLeaf) = true →
      tree.kind.needsChildren = true := fun tree hholds =>
    Kind.needsChildren_of_headingLevel? (Bool.and_eq_true_iff.mp hholds).1
  have hgoes : ∀ tree : Tree, (tree.isHeading && tree.isLeaf) = true →
      tree.kind.goesWhenEmpty = true := fun tree hholds =>
    Bool.or_eq_true_iff.mpr (.inr (hneeds tree hholds))
  have hremovals := obeys_removals stable_original.wears hgoes hmain hending
  rw [htrimmed]
  intro removal hmem
  obtain ⟨⟨target, hremoved, htarget, hholds⟩, hemptied⟩ := hremovals removal hmem
  exact ⟨⟨target, hremoved, htarget, hneeds target hholds⟩, hemptied⟩

/-- Dropping blank headings points at them and at what is emptied by that. -/
theorem Forest.Marked.points_dropBlankHeadings (hpage : ofLexemes source.lexemes = .ok page)
    (hforest : Marked page forest) :
    ∀ notice ∈ forest.dropBlankHeadings.2, notice.Points source registries page := by
  intro notice hmem
  obtain ⟨removal, hremoval, hmem⟩ := List.mem_flatMap.mp hmem
  obtain ⟨⟨target, hremoved, htarget, hneeds⟩, hemptied⟩ := hforest.blank_removals removal hremoval
  rcases List.mem_append.mp hmem with hmem | hmem
  · rw [hremoved] at hmem
    rw [List.mem_singleton.mp hmem]
    exact htarget.data.points_emptyNotice hpage hneeds
  · exact points_of_emptied hpage hemptied notice hmem

end PageMarkup
