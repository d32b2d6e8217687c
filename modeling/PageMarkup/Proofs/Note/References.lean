import PageMarkup.Proofs.Page.Shape

/-! # References to notes

The references of a forest are its subtrees of that kind, in preorder. On a sound page
no reference is inside another. Taking one of them out then leaves all others as they
were and where they were, whatever is emptied and trimmed around it.
-/

namespace PageMarkup

open Node

/-- The references to notes in a forest, in document order. -/
abbrev Forest.references (forest : Forest) : Forest := forest.matching Tree.isNoteRef

theorem Tree.goesWhenEmpty_of_refersTo {name : String} {tree : Tree}
    (hrefers : tree.refersTo name = true) : tree.kind.goesWhenEmpty = true := by
  rw [refersTo, Bool.and_eq_true, isNoteRef, beq_iff_eq] at hrefers
  rw [hrefers.1]
  rfl

namespace Forest

theorem referenceNames_eq (forest : Forest) :
    Note.referenceNames forest = forest.references.map Tree.noteName := rfl

theorem references_eq_nil_iff {forest : Forest} :
    forest.references = [] ↔ forest.Lacks Tree.isNoteRef := by
  simp [matching, Lacks]

variable {gone : List Kind}

theorem references_of_childless {forest : Forest} (hforest : forest.Obeys (Sound gone))
    (hkinds : ∀ kind ∈ forest.kinds, kind.canHaveChildren = false) : forest.references = [] := by
  induction forest with
  | nil => simp
  | cons tree rest ih =>
      obtain ⟨htree, hrest⟩ := obeys_cons.mp hforest
      obtain ⟨hkind, hkinds⟩ := List.forall_mem_cons.mp hkinds
      have hchildren : tree.children = [] := List.map_eq_nil_iff.mp (htree.data.childless hkind)
      have hnot : tree.isNoteRef = false := by
        rw [Tree.isNoteRef, beq_eq_false_iff_ne]
        intro href
        rw [href] at hkind
        cases hkind
      simp [matching_cons, hchildren, hnot, ih hrest hkinds]

/-- No reference of a sound page is inside another. -/
theorem references_children {tree : Tree} (htree : tree.Obeys (Sound gone))
    (href : tree.isNoteRef = true) : tree.children.references = [] := by
  refine references_of_childless htree.children (htree.data.flat ?_)
  rw [show tree.data.kind = _ from beq_iff_eq.mp href]
  rfl

/-- What has a reference below it is none itself. -/
theorem isNoteRef_of_references_children {data : Node} {children : Forest}
    (htree : (Tree.node data children).Obeys (Sound gone)) (hne : children.references ≠ [])
    (others : Forest) : (Tree.node data others).isNoteRef = false := by
  cases href : (Tree.node data others).isNoteRef with
  | false => rfl
  | true => exact absurd (references_children htree href) hne

/-- The references of the trees of a forest, tree by tree, where there are any. -/
def referenceGroups (forest : Forest) : List Forest :=
  (forest.map fun tree => references [tree]).filter (!·.isEmpty)

theorem flatten_referenceGroups (forest : Forest) :
    forest.referenceGroups.flatten = forest.references := by
  rw [referenceGroups, List.flatten_filter_not_isEmpty]
  induction forest with
  | nil => simp
  | cons tree rest ih =>
      rw [List.map_cons, List.flatten_cons, ih, ← matching_singleton_append]

theorem references_textLeaf {tree : Tree} (hleaf : tree.isTextLeaf = true) (text : String) :
    references [tree.withText text] = [] ∧ references [tree] = [] := by
  unfold Tree.isTextLeaf at hleaf
  split at hleaf
  next data =>
    simp only [Bool.and_eq_true, Bool.or_eq_true, beq_iff_eq] at hleaf
    have hnot : ∀ text, (Tree.node { data with text } []).isNoteRef = false := by
      intro text
      rcases hleaf.2 with hkind | hkind <;> simp [Tree.isNoteRef, Tree.kind, Tree.data, hkind]
    exact ⟨by simp [matching_cons, Tree.withText, Tree.children, hnot],
      by simp [matching_cons, Tree.children, show (Tree.node data []).isNoteRef = false
        from hnot data.text]⟩
  next => cases hleaf

theorem referenceGroups_trimFront (trimText : String → String) (forest : Forest) :
    (trimFront trimText forest).referenceGroups = forest.referenceGroups := by
  induction forest with
  | nil => rfl
  | cons tree rest ih =>
      rw [trimFront]
      split
      next hleaf =>
        obtain ⟨htrimmed, hnone⟩ := references_textLeaf hleaf (trimText tree.data.text)
        split
        next => simpa [referenceGroups, hnone] using ih
        next => simp [referenceGroups, hnone, htrimmed]
      next => rfl

theorem referenceGroups_reverse (forest : Forest) :
    referenceGroups forest.reverse = forest.referenceGroups.reverse := by
  simp [referenceGroups, List.filter_reverse]

/-- Trimming leaves the references alone. -/
theorem references_trimEdges (forest : Forest) : forest.trimEdges.references = forest.references := by
  rw [← flatten_referenceGroups, ← flatten_referenceGroups, trimEdges, trimTrailing,
    referenceGroups_reverse, referenceGroups_trimFront, referenceGroups_reverse, trimLeading,
    referenceGroups_trimFront, List.reverse_reverse]

theorem references_settle (data : Node) (children : Forest) :
    (settle data children).references = children.references := by
  unfold settle
  split
  next => exact references_trimEdges children
  next => rfl

/-! ## Taking references out -/

/-- Taking the first reference to a note out of a sound page takes it out of the list of
references and leaves the others in order. -/
theorem RemovesFirst.references {name : String} {target : Tree} {forest : Forest}
    {removal : Removal} (hremoves : RemovesFirst (Tree.refersTo name) target forest removal)
    (hforest : forest.Obeys (Sound gone)) :
    ∃ before after, forest.references = before ++ target :: after ∧
      removal.rest.references = before ++ after ∧
      (∀ tree ∈ before, tree.refersTo name = false) ∧ target.refersTo name = true := by
  have hlacks : ∀ {forest : Forest}, forest.Lacks (Tree.refersTo name) →
      ∀ tree ∈ forest.references, tree.refersTo name = false :=
    fun hlacks tree hmem => hlacks tree (mem_matching.mp hmem).1
  induction hremoves with
  | here before after hbefore htarget =>
      have hsound := (obeys_cons.mp (obeys_append.mp hforest).2).1
      have href : target.isNoteRef = true := by
        rw [Tree.refersTo, Bool.and_eq_true] at htarget
        exact htarget.1
      refine ⟨before.references, after.references, ?_, by simp, hlacks hbefore, htarget⟩
      simp [matching_cons, href, references_children hsound href]
  | deeper before after data children inner hbefore _ _ _ ih =>
      have hsound := (obeys_cons.mp (obeys_append.mp hforest).2).1
      obtain ⟨first, last, hchildren, hinner, hfirst, htarget⟩ := ih hsound.children
      have hnode := isNoteRef_of_references_children hsound (by simp [hchildren])
      refine ⟨before.references ++ first, last ++ after.references, ?_, ?_, ?_, htarget⟩
      · simp [matching_cons, hnode, Tree.children, hchildren]
      · simp [matching_cons, hnode, Tree.children, hinner]
      · exact List.forall_mem_append.mpr ⟨hlacks hbefore, hfirst⟩
  | settled before after data children inner hbefore _ _ _ _ ih =>
      have hsound := (obeys_cons.mp (obeys_append.mp hforest).2).1
      obtain ⟨first, last, hchildren, hinner, hfirst, htarget⟩ := ih hsound.children
      have hnode := isNoteRef_of_references_children hsound (by simp [hchildren])
      refine ⟨before.references ++ first, last ++ after.references, ?_, ?_, ?_, htarget⟩
      · simp [matching_cons, hnode, Tree.children, hchildren]
      · simp [matching_cons, hnode, Tree.children, references_settle, hinner]
      · exact List.forall_mem_append.mpr ⟨hlacks hbefore, hfirst⟩
  | emptied before after data children inner hbefore _ _ _ _ hempty ih =>
      have hsound := (obeys_cons.mp (obeys_append.mp hforest).2).1
      obtain ⟨first, last, hchildren, hinner, hfirst, htarget⟩ := ih hsound.children
      have hnode := isNoteRef_of_references_children hsound (by simp [hchildren])
      -- Nothing is left around the reference, so it was the only one there.
      have hnone : first ++ last = [] := by
        rw [← hinner, ← references_settle data, hempty]
        exact matching_nil
      obtain ⟨rfl, rfl⟩ := List.append_eq_nil_iff.mp hnone
      refine ⟨before.references, after.references, ?_, by simp, hlacks hbefore, htarget⟩
      simp [matching_cons, hnode, Tree.children, hchildren]

theorem countP_refersTo (name : String) (forest : Forest) :
    forest.subtrees.countP (Tree.refersTo name) =
      forest.references.countP (·.noteName == name) := by
  rw [references, matching, List.countP_filter]
  refine List.countP_congr fun tree _ => ?_
  simp [Tree.refersTo, Bool.and_comm]

/-- Taking out every reference to a note leaves the other references in order. -/
theorem references_removeWhere (name : String) {forest : Forest}
    (hforest : forest.Obeys (Sound gone)) (hparagraph : .paragraph ∉ gone) :
    (forest.removeWhere (Tree.refersTo name)).1.references =
      forest.references.filter (·.noteName != name) := by
  rw [removeWhere, countP_refersTo]
  generalize hcount : forest.references.countP (·.noteName == name) = count
  induction count generalizing forest with
  | zero =>
      rw [List.countP_eq_zero] at hcount
      rw [removeTimes, List.filter_eq_self.mpr fun tree hmem => by simpa using hcount tree hmem]
  | succ count ih =>
      rw [removeTimes]
      split
      next hnone =>
        have hlacks := Tree.forestFindPath?_eq_none hnone
        rw [← countP_refersTo, List.countP_eq_zero.mpr fun tree hmem => by simp [hlacks tree hmem]]
          at hcount
        cases hcount
      next path hfind =>
        obtain ⟨target, hremoves⟩ := removesFirst_of_findPath? hfind
        obtain ⟨before, after, hreferences, hrest, hbefore, htarget⟩ := hremoves.references hforest
        have hname : target.noteName = name := by
          simp only [Tree.refersTo, Bool.and_eq_true, beq_iff_eq] at htarget
          exact htarget.2
        have hsound := hremoves.obeys (Rule.Stable.sound hparagraph).wears
          (fun _ => Tree.goesWhenEmpty_of_refersTo) hforest
        dsimp only
        rw [ih hsound]
        · simp [hreferences, hrest, hname]
        · rw [hreferences] at hcount
          simp [hname] at hcount
          simp [hrest]
          omega

end Forest

/-- Whether the remark is a warning about a note. -/
def Remark.isNoteWarning : Remark → Bool
  | .noteUnreferenced _ | .noteRepeated _ | .noteUndefined _ => true
  | _ => false

namespace Note

variable {gone : List Kind}

theorem obeys_dropUndefined {rule : Rule} (hrule : rule.Wears) (names : List String)
    {forest : Forest} (hforest : forest.Obeys rule) :
    (dropUndefined names forest).1.Obeys rule := by
  induction names generalizing forest with
  | nil => exact hforest
  | cons name names ih => exact ih (hforest.removeWhere hrule fun _ => Tree.goesWhenEmpty_of_refersTo)

/-- Dropping undefined references leaves the references to other names in order. -/
theorem references_dropUndefined (names : List String) {forest : Forest}
    (hforest : forest.Obeys (Sound gone)) (hparagraph : .paragraph ∉ gone) :
    (dropUndefined names forest).1.references =
      forest.references.filter fun tree => !names.contains tree.noteName := by
  induction names generalizing forest with
  | nil => simp [dropUndefined]
  | cons name names ih =>
      have hsound := hforest.removeWhere (p := Tree.refersTo name)
        (Rule.Stable.sound hparagraph).wears fun _ => Tree.goesWhenEmpty_of_refersTo
      change (dropUndefined names (forest.removeWhere (Tree.refersTo name)).1).1.references = _
      rw [ih hsound, Forest.references_removeWhere name hforest hparagraph, List.filter_filter]
      refine List.filter_congr fun tree _ => ?_
      by_cases hname : tree.noteName = name <;> simp [hname]

theorem find?_refersTo (name : String) (forest : Forest) :
    forest.subtrees.find? (Tree.refersTo name) =
      forest.references.find? (·.noteName == name) := by
  rw [Forest.references, Forest.matching, List.find?_filter]
  congr 1
  funext tree
  by_cases heq : tree.noteName = name <;> simp [Tree.refersTo, heq]

/-- The warnings about notes that dropping leaves: one for each name, at its first reference. -/
theorem warnings_dropUndefined {names : List String} (hnodup : names.Nodup) {forest : Forest}
    (hforest : forest.Obeys (Sound gone)) (hparagraph : .paragraph ∉ gone) :
    (dropUndefined names forest).2.filter (·.remark.isNoteWarning) =
      names.map fun name =>
        ⟨.noteUndefined name,
          (forest.references.find? (·.noteName == name)).map (·.data.offset)⟩ := by
  induction names generalizing forest with
  | nil => rfl
  | cons name names ih =>
      obtain ⟨hnot, hnodup⟩ := List.nodup_cons.mp hnodup
      have hsound := hforest.removeWhere (p := Tree.refersTo name)
        (Rule.Stable.sound hparagraph).wears fun _ => Tree.goesWhenEmpty_of_refersTo
      have hremovals : ∀ removals : List Removal,
          (removals.flatMap Removal.notices).filter (·.remark.isNoteWarning) = [] := by
        intro removals
        simp only [List.filter_eq_nil_iff, List.mem_flatMap, Removal.notices, List.mem_filterMap]
        rintro notice ⟨removal, -, node, -, hnotice⟩
        unfold Node.emptiedNotice? at hnotice
        split at hnotice
        next =>
          cases hnotice
          simp [Node.emptyNotice, Remark.isNoteWarning]
        next => cases hnotice
      simp only [dropUndefined, List.cons_append, List.map_cons, find?_refersTo]
      rw [List.filter_cons_of_pos rfl, List.filter_append, hremovals, List.nil_append,
        ih hnodup hsound]
      refine congrArg _ (List.map_congr_left fun other hother => ?_)
      have hne : other ≠ name := fun heq => hnot (heq ▸ hother)
      rw [Forest.references_removeWhere name hforest hparagraph, List.find?_filter]
      have hsame : (fun tree : Tree => decide ((tree.noteName != name) = true ∧
          (tree.noteName == other) = true)) = fun tree => tree.noteName == other := by
        funext tree
        by_cases heq : tree.noteName = other
        · simp [heq, hne]
        · simp [heq]
      rw [hsame]

end Note

end PageMarkup
