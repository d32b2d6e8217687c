import PageMarkup.Proofs.Arena.Expanding
import PageMarkup.Proofs.Arena.Marking
import PageMarkup.Proofs.Note.References

/-! # References to notes in an arena

The references of a page are listed once, before the first of them goes. A reference that
goes takes no other one along, since none is below another, and so the list stays a list
of nodes that are there, in document order, until the turn of each has come.
-/

namespace PageMarkup

open NumberedForest Node

namespace NumberedForest

/-- The references to notes, in document order. -/
def references (forest : NumberedForest) : List NumberedTree :=
  forest.census fun tree => if tree.erase.isNoteRef then [tree] else []

theorem references_cons (id : Nat) (data : Node) (children rest : NumberedForest) :
    references (.node id data children :: rest) =
      (if (NumberedTree.node id data children).erase.isNoteRef then
        [NumberedTree.node id data children] else []) ++ (references children ++ references rest) := census_cons ..

/-- Without numbers the references are those of the forest. -/
theorem map_erase_references (forest : NumberedForest) :
    forest.references.map NumberedTree.erase = forest.erase.references := by
  induction forest using NumberedForest.induction with
  | nil => simp [references]
  | cons id data children rest ihchildren ihrest =>
      rw [references_cons, erase_cons, Forest.references, Forest.matching_cons, List.map_append,
        List.map_append, ihchildren, ihrest, Tree.children_node]
      have hnode : (NumberedTree.node id data children).erase = .node data children.erase := rfl
      rw [hnode]
      split <;> rfl

theorem map_id_references_sublist (forest : NumberedForest) :
    (forest.references.map NumberedTree.id).Sublist forest.ids := by
  induction forest using NumberedForest.induction with
  | nil => simp [references]
  | cons id data children rest ihchildren ihrest =>
      rw [references_cons, ids_cons, List.map_append, List.map_append]
      have hbelow := ihchildren.append ihrest
      split
      next => exact hbelow.cons_cons id
      next => exact hbelow.cons id

/-- A reference stands somewhere in the forest. -/
theorem exists_plug_reference {forest : NumberedForest} {tree : NumberedTree}
    (hmem : tree ∈ forest.references) :
    ∃ (place : Place) (before after : NumberedForest),
      forest = place.plug (before ++ tree :: after) ∧ tree.erase.isNoteRef = true := by
  obtain ⟨place, before, found, after, hplug, hfound⟩ := Place.exists_plug hmem
  split at hfound
  next href =>
    obtain rfl := List.mem_singleton.mp hfound
    exact ⟨place, before, after, hplug, href⟩
  next => cases hfound

theorem nodup_references {forest : NumberedForest} (hdistinct : forest.ids.Nodup) :
    forest.references.Nodup :=
  (hdistinct.sublist (map_id_references_sublist forest)).of_map _

theorem lacks_of_references {name : String} {forest : NumberedForest}
    (hnone : ∀ tree ∈ forest.references, tree.erase.noteName ≠ name) :
    Forest.Lacks (Tree.refersTo name) forest.erase := by
  intro tree hmem
  rw [Tree.refersTo, Bool.and_eq_false_iff]
  cases href : tree.isNoteRef with
  | false => exact .inl rfl
  | true =>
      have hmem : tree ∈ forest.erase.references := Forest.mem_matching.mpr ⟨hmem, href⟩
      rw [← map_erase_references] at hmem
      obtain ⟨reference, hreference, rfl⟩ := List.mem_map.mp hmem
      exact .inr (by simpa using hnone reference hreference)

end NumberedForest

theorem isNoteRef_of_isTextLeaf {tree : Tree} (hleaf : tree.isTextLeaf = true) :
    tree.isNoteRef = false := by
  obtain ⟨data, children⟩ := tree
  cases children with
  | cons child rest => cases hleaf
  | nil =>
      rw [Tree.isTextLeaf, Bool.and_eq_true, Bool.or_eq_true, beq_iff_eq, beq_iff_eq] at hleaf
      rcases hleaf.2 with hkind | hkind <;> simp [Tree.isNoteRef, hkind]

namespace NumberedForest

/-- No reference is below another. -/
def Flat (forest : NumberedForest) : Prop :=
  ∀ tree ∈ forest.references, tree.children.references = []

theorem flat_of_sound {gone : List Kind} {forest : NumberedForest}
    (hsound : forest.erase.Obeys (Sound gone)) : forest.Flat := by
  intro tree hmem
  have herase : tree.erase ∈ forest.erase.references :=
    map_erase_references forest ▸ List.mem_map_of_mem hmem
  obtain ⟨hsubtree, href⟩ := Forest.mem_matching.mp herase
  rw [← List.map_eq_nil_iff, map_erase_references]
  exact Forest.references_children (Tree.forestObeys_of_mem_subtrees hsound hsubtree) href

/-- What is around a reference is no reference. -/
theorem Flat.not_isNoteRef {place : Place} {siblings : NumberedForest}
    (hflat : (place.plug siblings).Flat) (hne : siblings.references ≠ []) :
    ∀ frame ∈ place, ∀ children, (Tree.node frame.data children).isNoteRef = false := by
  induction place generalizing siblings with
  | nil => exact fun _ hmem => absurd hmem List.not_mem_nil
  | cons frame place ih =>
      let node : NumberedTree := .node frame.id frame.data siblings
      have hlisted : references (frame.before ++ node :: frame.after) =
          frame.before.references ++ ((if node.erase.isNoteRef then [node] else []) ++
            (siblings.references ++ frame.after.references)) := by
        rw [references, census_append]
        exact congrArg _ (references_cons ..)
      refine List.forall_mem_cons.mpr ⟨fun children => ?_, ih hflat ?_⟩
      · cases href : (Tree.node frame.data children).isNoteRef with
        | false => rfl
        | true =>
            have hself : node.erase.isNoteRef = true := href
            have hmem : node ∈ references (frame.before ++ node :: frame.after) := by
              rw [hlisted, if_pos hself]
              simp
            exact absurd (hflat node (Place.census_subset_plug place _ hmem)) hne
      · rw [hlisted]
        simp [hne]

/-- Where a reference stands, and what is listed before it and after it. -/
theorem exists_reference {forest : NumberedForest} (hflat : forest.Flat) {tree : NumberedTree}
    (hmem : tree ∈ forest.references) :
    ∃ (place : Place) (before after : NumberedForest) (earlier later : List NumberedTree),
      forest = place.plug (before ++ tree :: after) ∧ tree.erase.isNoteRef = true ∧
      forest.references = earlier ++ tree :: later ∧
      (∀ others, references (place.plug (before ++ others ++ after)) =
        earlier ++ others.references ++ later) ∧
      (place.close (before ++ after)).1.references = earlier ++ later ∧
      (∀ frame ∈ place, frame.before.references ⊆ earlier) ∧ before.references ⊆ earlier ∧
      ∀ frame ∈ place, ∀ children, (Tree.node frame.data children).isNoteRef = false := by
  obtain ⟨place, before, after, rfl, href⟩ := exists_plug_reference hmem
  let mark (tree : NumberedTree) : List NumberedTree :=
    if tree.erase.isNoteRef then [tree] else []
  have hself : references (before ++ tree :: after) =
      before.references ++ (tree :: after.references) := by
    obtain ⟨id, data, children⟩ := tree
    have hbelow := hflat _ hmem
    rw [references, census_append]
    refine congrArg _ ((references_cons ..).trans ?_)
    rw [if_pos href, show references children = [] from hbelow]
    rfl
  have hframes := hflat.not_isNoteRef (by rw [hself]; simp)
  have hsilent : ∀ frame ∈ place, ∀ children : NumberedForest,
      mark (.node frame.id frame.data children) = [] := fun frame hframe children =>
    if_neg (Bool.eq_false_iff.mp (hframes frame hframe (NumberedForest.erase children)))
  have hquiet : Place.Quiet mark place := fun frame hframe children _ =>
    hsilent frame hframe children
  have htext : ∀ tree : NumberedTree, tree.erase.isTextLeaf = true → mark tree = [] :=
    fun tree hleaf => if_neg (by simp [isNoteRef_of_isTextLeaf hleaf])
  have haround : ∀ siblings, references (place.plug siblings) =
      place.front mark ++ (siblings.references ++ place.back mark) := fun siblings =>
    Place.census_plug hquiet (.inr fun frame hframe => hsilent frame hframe [])
  refine ⟨place, before, after, place.front mark ++ before.references,
    after.references ++ place.back mark, rfl, href, ?_, fun others => ?_, ?_, ?_, ?_, hframes⟩
  · rw [haround, hself]
    simp
  · rw [haround, references, census_append, census_append]
    simp [references]
  · refine (Place.census_close htext hquiet (before ++ after)).trans ?_
    rw [census_append]
    simp [references, mark]
  · exact fun frame hframe =>
      List.subset_append_of_subset_left _ (Place.census_before_subset hframe)
  · exact List.subset_append_right _ _

end NumberedForest

namespace Arena

variable {arena : Arena} {gone : List Kind}

/-- Before the first member that satisfies a predicate none does. -/
theorem filter_before_eq_nil {α : Type} {p : α → Bool} {earlier later rest : List α} {a : α}
    (hnodup : (earlier ++ a :: later).Nodup)
    (hfilter : (earlier ++ a :: later).filter p = a :: rest) : earlier.filter p = [] := by
  rw [List.filter_append] at hfilter
  cases hfirst : earlier.filter p with
  | nil => rfl
  | cons first others =>
      rw [hfirst, List.cons_append] at hfilter
      obtain ⟨rfl, -⟩ := List.cons_eq_cons.mp hfilter
      have hmem : first ∈ earlier := List.mem_of_mem_filter (hfirst ▸ List.mem_cons_self)
      exact absurd rfl ((List.nodup_append.mp hnodup).2.2 first hmem first List.mem_cons_self)

/-- A page without the first reference to a note keeps the rules of the page. -/
theorem sound_close (hparagraph : .paragraph ∉ gone) {name : String} {place : Place}
    (hreached : place.Reached (Tree.refersTo name)) {before after : NumberedForest}
    (hbefore : Forest.Lacks (Tree.refersTo name) before.erase) {tree : NumberedTree}
    (htree : tree.erase.refersTo name = true)
    (hsound : (place.plug (before ++ tree :: after)).erase.Obeys (Sound gone)) :
    (place.close (before ++ after)).1.erase.Obeys (Sound gone) := by
  obtain ⟨path, cut, hfind, hremoved⟩ := hreached.removeAt hbefore htree after
  obtain ⟨target, hfirst⟩ := Forest.removesFirst_of_findPath? hfind
  rw [hremoved] at hfirst
  exact hfirst.obeys (Rule.Stable.sound hparagraph).wears
    (fun _ => Tree.goesWhenEmpty_of_refersTo) hsound

/-- Removing the references to a note one by one takes them out of the forest one by one. -/
theorem Holds.visit_removeAndPrune (hparagraph : .paragraph ∉ gone) (name : String) (count : Nat)
    {forest : NumberedForest} (hholds : Holds arena forest)
    (hsound : forest.erase.Obeys (Sound gone))
    (hcount : (forest.references.filter (·.erase.noteName == name)).length = count) :
    ∃ next kept, arena.visit Arena.removeAndPrune
        ((forest.references.filter (·.erase.noteName == name)).map NumberedTree.id) =
        .ok (next, (Forest.removeTimes (Tree.refersTo name) count forest.erase).2.flatMap
          Removal.notices) ∧
      NumberedForest.erase kept =
        (Forest.removeTimes (Tree.refersTo name) count forest.erase).1 ∧
      kept.references = forest.references.filter (·.erase.noteName != name) ∧
      kept.erase.Obeys (Sound gone) ∧ Holds next kept := by
  induction count generalizing arena forest with
  | zero =>
      have hnil := List.length_eq_zero_iff.mp hcount
      refine ⟨arena, forest, by rw [hnil]; rfl, rfl, ?_, hsound, hholds⟩
      refine (List.filter_eq_self.mpr fun tree hmem => ?_).symm
      simpa using List.filter_eq_nil_iff.mp hnil tree hmem
  | succ count ih =>
      obtain ⟨tree, rest, hfilter⟩ := List.exists_cons_of_length_eq_add_one hcount
      have hmine : tree ∈ forest.references.filter (·.erase.noteName == name) := by simp [hfilter]
      obtain ⟨hmem, hname⟩ := List.mem_filter.mp hmine
      have hnodup := nodup_references hholds.nodup
      obtain ⟨place, before, after, earlier, later, rfl, href, hreferences, -, hclosed, hplaces,
        hbefore, hframes⟩ := NumberedForest.exists_reference (flat_of_sound hsound) hmem
      have hearlier : earlier.filter (·.erase.noteName == name) = [] := by
        rw [hreferences] at hfilter hnodup
        exact filter_before_eq_nil hnodup hfilter
      have hlacks : ∀ forest : NumberedForest, forest.references ⊆ earlier →
          Forest.Lacks (Tree.refersTo name) forest.erase := by
        intro forest hsubset
        refine lacks_of_references fun other hother => ?_
        simpa using List.filter_eq_nil_iff.mp hearlier other (hsubset hother)
      have hreached : place.Reached (Tree.refersTo name) := fun frame hframe =>
        ⟨hlacks _ (hplaces frame hframe), fun children _ => by
          rw [Tree.refersTo, hframes frame hframe children, Bool.false_and]⟩
      have hrefers : tree.erase.refersTo name = true := by
        rw [Tree.refersTo, href, hname]
        rfl
      obtain ⟨removed, hremove, hremoved⟩ := hholds.below.removeAndPrune rfl
      obtain ⟨removal, -, hemptied, htimes⟩ :=
        hreached.removeTimes (hlacks _ hbefore) hrefers after count
      have hclosedSound := sound_close hparagraph hreached (hlacks _ hbefore) hrefers hsound
      have hrest : (place.close (before ++ after)).1.references.filter
          (·.erase.noteName == name) = rest := by
        rw [hreferences, List.filter_append, List.filter_cons, if_pos hname, hearlier] at hfilter
        rw [hclosed, List.filter_append, hearlier]
        exact (List.cons_eq_cons.mp hfilter).2
      have hlength : rest.length = count := by
        rw [hfilter] at hcount
        exact Nat.succ.inj hcount
      obtain ⟨next, kept, hnext, herase, hkept, hkeptSound, hholds⟩ :=
        ih hremoved hclosedSound (hrest.symm ▸ hlength)
      refine ⟨next, kept, ?_, by rw [herase, htimes], ?_, hkeptSound, hholds⟩
      · rw [hrest] at hnext
        rw [hfilter, htimes, List.flatMap_cons, Removal.notices, hemptied]
        exact visit_append (visit_singleton hremove) hnext
      · have hgone : (tree.erase.noteName != name) = false := by simpa using hname
        rw [hkept, hclosed, hreferences, List.filter_append, List.filter_append, List.filter_cons,
          hgone]
        rfl

/-- References with their names, as they are listed. -/
def listed (references : List NumberedTree) : List (String × Nat) :=
  references.map fun tree => (tree.erase.noteName, tree.id)

theorem filter_listed (references : List NumberedTree) (name : String) :
    ((listed references).filter (·.1 == name)).map (·.2) =
      (references.filter (·.erase.noteName == name)).map NumberedTree.id := by
  rw [listed, List.filter_map, List.map_map]
  rfl

theorem Holds.get_reference {forest : NumberedForest} (hholds : Holds arena forest)
    {tree : NumberedTree} (hmem : tree ∈ forest.references) :
    ∃ cell, arena.get tree.id = .ok cell ∧ cell.data = tree.data := by
  obtain ⟨place, before, after, rfl, -⟩ := exists_plug_reference hmem
  obtain ⟨cell, hcell, hdata, -, -⟩ := hholds.below.exists_get
  exact ⟨cell, hcell, hdata⟩

/-- The offset that the warning about a name points at is that of the first reference. -/
theorem Holds.offset_head? {forest : NumberedForest} (hholds : Holds arena forest) (name : String) :
    (((forest.references.filter (·.erase.noteName == name)).map NumberedTree.id).head?.mapM
        fun id => do return (← arena.get id).data.offset) =
      .ok ((forest.erase.subtrees.find? (Tree.refersTo name)).map (·.data.offset)) := by
  rw [Note.find?_refersTo, ← map_erase_references, List.find?_map, List.head?_map,
    List.head?_filter]
  cases hfirst : forest.references.find? (·.erase.noteName == name) with
  | none =>
      have hnone : forest.references.find? ((·.noteName == name) ∘ NumberedTree.erase) = none := hfirst
      rw [hnone]
      rfl
  | some tree =>
      have hsome : forest.references.find? ((·.noteName == name) ∘ NumberedTree.erase) =
        some tree := hfirst
      obtain ⟨cell, hcell, hdata⟩ := hholds.get_reference (List.mem_of_find?_eq_some hfirst)
      rw [hsome]
      simp [hcell, hdata]

/-- Dropping the references to undefined names in an arena drops those of the forest in it. -/
theorem Holds.dropUndefined (hparagraph : .paragraph ∉ gone) (names : List String)
    (hnodup : names.Nodup) {forest : NumberedForest} (hholds : Holds arena forest)
    (hsound : forest.erase.Obeys (Sound gone)) {references : List NumberedTree}
    (hreferences : ∀ name ∈ names, references.filter (·.erase.noteName == name) =
      forest.references.filter (·.erase.noteName == name)) :
    ∃ next kept, arena.dropUndefined (listed references) names =
        .ok (next, (Note.dropUndefined names forest.erase).2) ∧
      NumberedForest.erase kept = (Note.dropUndefined names forest.erase).1 ∧
      kept.references =
        forest.references.filter (fun tree => !names.contains tree.erase.noteName) ∧
      kept.erase.Obeys (Sound gone) ∧ Holds next kept := by
  induction names generalizing arena forest with
  | nil => exact ⟨arena, forest, rfl, rfl, by simp, hsound, hholds⟩
  | cons name names ih =>
      obtain ⟨hname, hnodup⟩ := List.nodup_cons.mp hnodup
      obtain ⟨hfirst, hothers⟩ := List.forall_mem_cons.mp hreferences
      obtain ⟨removed, rest, hvisit, herase, hrest, hrestSound, hremoved⟩ :=
        hholds.visit_removeAndPrune hparagraph name _ hsound rfl
      have hcount : forest.erase.subtrees.countP (Tree.refersTo name) =
          (forest.references.filter (·.erase.noteName == name)).length := by
        rw [Forest.countP_refersTo, ← map_erase_references, List.countP_map, List.countP_eq_length_filter]
        rfl
      rw [← hcount] at hvisit herase
      have hsame : ∀ other ∈ names, references.filter (·.erase.noteName == other) =
          rest.references.filter (·.erase.noteName == other) := by
        intro other hother
        have hne : other ≠ name := fun heq => hname (heq ▸ hother)
        rw [hothers other hother, hrest, List.filter_filter]
        refine List.filter_congr fun tree _ => ?_
        by_cases heq : tree.erase.noteName = other
        · simp [heq, hne]
        · simp [heq]
      obtain ⟨next, kept, hnext, hkeptErase, hkept, hkeptSound, hholds'⟩ :=
        ih hnodup hremoved hrestSound hsame
      refine ⟨next, kept, ?_, ?_, ?_, hkeptSound, hholds'⟩
      · rw [Arena.dropUndefined]
        simp only [filter_listed, hfirst, hholds.offset_head?, hvisit, ok_bind, hnext, herase]
        rfl
      · rw [hkeptErase, herase]
        rfl
      · rw [hkept, hrest, List.filter_filter]
        refine List.filter_congr fun tree _ => ?_
        by_cases heq : tree.erase.noteName = name <;> simp [heq]

end Arena

end PageMarkup
