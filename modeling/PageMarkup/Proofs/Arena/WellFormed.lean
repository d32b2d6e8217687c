import PageMarkup.Proofs.Arena.Visiting

/-! # Well-formed arenas

The links of an arena fit together if each of them is answered by the node that it leads
to, if no way along them comes back to where it started, and if the numbers that are not
in use are the free ones. Then the nodes below the root, in preorder, are all there are.
An arena that holds a document has all of that, since a link is a step in the preorder.
-/

namespace PageMarkup

open NumberedForest

namespace Arena

/-- A node leads to its first child and to the node after it. -/
def Leads (arena : Arena) (id other : Nat) : Prop :=
  ∃ cell, arena.get? id = some cell ∧ (cell.first = some other ∨ cell.next = some other)

/-- The links of the nodes fit together, and the slots without a node are free. -/
structure WellFormed (arena : Arena) : Prop where
  /-- The node after a node has the same parent and is after it. -/
  next : ∀ {id cell other}, arena.get? id = some cell → cell.next = some other →
    ∃ following, arena.get? other = some following ∧ following.previous = some id ∧
      following.parent = cell.parent
  /-- The node before a node has the same parent and is before it. -/
  previous : ∀ {id cell other}, arena.get? id = some cell → cell.previous = some other →
    ∃ preceding, arena.get? other = some preceding ∧ preceding.next = some id ∧
      preceding.parent = cell.parent
  /-- The first child of a node knows its parent and has no node before it. -/
  first : ∀ {id cell other}, arena.get? id = some cell → cell.first = some other →
    ∃ child, arena.get? other = some child ∧ child.parent = some id ∧ child.previous = none
  /-- The last child of a node knows its parent and has no node after it. -/
  last : ∀ {id cell other}, arena.get? id = some cell → cell.last = some other →
    ∃ child, arena.get? other = some child ∧ child.parent = some id ∧ child.next = none
  /-- A parent knows the first and the last of its children. -/
  parent : ∀ {id cell other}, arena.get? id = some cell → cell.parent = some other →
    ∃ above, arena.get? other = some above ∧ (cell.previous = none → above.first = some id) ∧
      (cell.next = none → above.last = some id)
  /-- The root is there, and no other node is without a parent. -/
  top : (∃ cell, arena.get? root = some cell ∧ cell.parent = none) ∧
    ∀ {id cell}, arena.get? id = some cell → cell.parent = none →
      id = root ∧ cell.previous = none ∧ cell.next = none
  /-- No way down and along the children comes back to where it started. -/
  acyclic : ∀ id, ¬ Relation.TransGen arena.Leads id id
  /-- What is below the root is all there is, and each node is there once. -/
  reachable : ∃ ids, arena.descendants root = .ok ids ∧ ids.Nodup ∧
    (∀ id, id ∈ ids ↔ (arena.get? id).isSome) ∧ ids.length = arena.size
  /-- Each slot without a node is free once, and nothing else is free. -/
  free : arena.free.Nodup ∧
    ∀ id, id ∈ arena.free ↔ id < arena.slots.size ∧ arena.get? id = none

/-- The links of the nodes fit together also where some stand apart from the root, with what
is below them. -/
structure Coherent (arena : Arena) : Prop where
  /-- The node after a node has the same parent and is after it. -/
  next : ∀ {id cell other}, arena.get? id = some cell → cell.next = some other →
    ∃ following, arena.get? other = some following ∧ following.previous = some id ∧
      following.parent = cell.parent
  /-- The node before a node has the same parent and is before it. -/
  previous : ∀ {id cell other}, arena.get? id = some cell → cell.previous = some other →
    ∃ preceding, arena.get? other = some preceding ∧ preceding.next = some id ∧
      preceding.parent = cell.parent
  /-- The first child of a node knows its parent and has no node before it. -/
  first : ∀ {id cell other}, arena.get? id = some cell → cell.first = some other →
    ∃ child, arena.get? other = some child ∧ child.parent = some id ∧ child.previous = none
  /-- The last child of a node knows its parent and has no node after it. -/
  last : ∀ {id cell other}, arena.get? id = some cell → cell.last = some other →
    ∃ child, arena.get? other = some child ∧ child.parent = some id ∧ child.next = none
  /-- A parent knows the first and the last of its children. -/
  parent : ∀ {id cell other}, arena.get? id = some cell → cell.parent = some other →
    ∃ above, arena.get? other = some above ∧ (cell.previous = none → above.first = some id) ∧
      (cell.next = none → above.last = some id)
  /-- A node without a parent has no neighbours. -/
  alone : ∀ {id cell}, arena.get? id = some cell → cell.parent = none →
    cell.previous = none ∧ cell.next = none
  /-- The root is there, and it has no parent. -/
  top : ∃ cell, arena.get? root = some cell ∧ cell.parent = none
  /-- No way down and along the children comes back to where it started. -/
  acyclic : ∀ id, ¬ Relation.TransGen arena.Leads id id
  /-- Each slot without a node is free once, and nothing else is free. -/
  free : arena.free.Nodup ∧
    ∀ id, id ∈ arena.free ↔ id < arena.slots.size ∧ arena.get? id = none

variable {arena : Arena} {forest : NumberedForest}

/-! ## Slots -/

/-- An arena stores a forest with its links if each slot, looked at on its own, is in use or free
as the numbers of the forest say. -/
theorem stores_of_slots {ids : List Nat} (hids : forest.ids = ids) (hdistinct : ids.Nodup)
    (hlinked : Linked arena none none none forest)
    (hslots : ∀ id < arena.slots.size, (arena.get? id).isSome = decide (id ∈ ids) ∧
      decide (id ∈ arena.free) = decide (id ∉ ids))
    (hfree : arena.free.Nodup ∧ ∀ id ∈ arena.free, id < arena.slots.size) :
    Stores arena forest where
  distinct := hids ▸ hdistinct
  linked := hlinked
  live id cell hcell := by
    have hslot := (hslots id (lt_size_of_get? hcell)).1
    rw [hcell] at hslot
    exact hids ▸ of_decide_eq_true hslot.symm
  tidy := by
    refine ⟨hfree.1, fun id => ⟨fun hmem => ⟨hfree.2 id hmem, ?_⟩, fun ⟨hlt, hnone⟩ => ?_⟩⟩
    · obtain ⟨hlive, hunused⟩ := hslots id (hfree.2 id hmem)
      rw [decide_eq_true hmem] at hunused
      rw [decide_eq_false (of_decide_eq_true hunused.symm)] at hlive
      exact Option.isNone_iff_eq_none.mp (Option.isSome_eq_false_iff.mp hlive)
    · obtain ⟨hlive, hunused⟩ := hslots id hlt
      rw [hnone] at hlive
      rw [decide_eq_true (of_decide_eq_false hlive.symm)] at hunused
      exact of_decide_eq_true hunused

/-! ## Size -/

/-- The slots that are in use and those that are free are all the slots. -/
theorem Stores.size (hstores : Stores arena forest) : arena.size = forest.ids.length := by
  have hperm : (forest.ids ++ arena.free).Perm (List.range arena.slots.size) := by
    refine (List.perm_ext_iff_of_nodup ?_ List.nodup_range).mpr fun id => ?_
    · refine List.nodup_append.mpr ⟨hstores.distinct, hstores.tidy.nodup, ?_⟩
      rintro id hid other hother rfl
      rw [hstores.mem_iff, ((hstores.tidy.mem_free _).mp hother).2] at hid
      cases hid
    · rw [List.mem_append, hstores.mem_iff, hstores.tidy.mem_free, List.mem_range]
      cases hcell : arena.get? id with
      | none => simp
      | some cell => simpa using lt_size_of_get? hcell
  have hlength := hperm.length_eq
  rw [List.length_append, List.length_range] at hlength
  rw [Arena.size, ← hlength, Nat.add_sub_cancel]

/-! ## Order -/

/-- In a list of distinct numbers, what stands before another comes first. -/
theorem idxOf_lt_of_sublist {ids : List Nat} (hdistinct : ids.Nodup) {id other : Nat}
    (hsublist : [id, other].Sublist ids) : ids.idxOf id < ids.idxOf other := by
  have hordered : ids.Pairwise fun id other => ids.idxOf id < ids.idxOf other := by
    refine List.pairwise_iff_getElem.mpr fun first second hfirst hsecond hlt => ?_
    rw [hdistinct.idxOf_getElem, hdistinct.idxOf_getElem]
    exact hlt
  exact List.rel_of_pairwise_cons (hordered.sublist hsublist) (List.mem_singleton_self _)

/-! ## What an arena holds -/

variable {id other : Nat} {cell : Cell}

/-- The cell of a tree, read off where it stands. -/
theorem Stores.get?_at (hstores : Stores arena forest) {place : Place} {before : NumberedForest}
    {tree : NumberedTree} {after : NumberedForest}
    (hforest : forest = place.plug (before ++ tree :: after)) :
    arena.get? tree.id = some
      { data := tree.data
        parent := Place.parent place
        previous := beside (Place.parent place) (lastId before)
        next := beside (Place.parent place) (firstId after)
        first := firstId tree.children
        last := lastId tree.children } := by
  have hlinked := hstores.linked
  rw [hforest] at hlinked
  exact Stores.get?_sibling hlinked

/-- The cell of a number, where the tree with that number stands. -/
theorem Stores.exists_place (hstores : Stores arena forest) (hcell : arena.get? id = some cell) :
    ∃ (place : Place) (before : NumberedForest) (tree : NumberedTree) (after : NumberedForest),
      forest = place.plug (before ++ tree :: after) ∧ tree.id = id ∧
      cell =
        { data := tree.data
          parent := Place.parent place
          previous := beside (Place.parent place) (lastId before)
          next := beside (Place.parent place) (firstId after)
          first := firstId tree.children
          last := lastId tree.children } := by
  obtain ⟨place, before, tree, after, rfl, rfl⟩ :=
    Place.exists_plug_of_mem (hstores.live id cell hcell)
  refine ⟨place, before, tree, after, rfl, rfl, ?_⟩
  exact Option.some.inj (hcell.symm.trans (hstores.get?_at rfl))

/-- What a node leads to comes after it in preorder. -/
theorem Stores.sublist_of_leads (hstores : Stores arena forest) (hleads : arena.Leads id other) :
    [id, other].Sublist forest.ids := by
  obtain ⟨cell, hcell, hlink⟩ := hleads
  obtain ⟨place, before, tree, after, rfl, rfl, rfl⟩ := hstores.exists_place hcell
  refine .trans ?_ (Place.ids_sublist_plug place _)
  rw [ids_append, ids_cons_eq]
  refine .trans (.cons_cons _ ?_) (List.sublist_append_right _ _)
  rw [List.singleton_sublist, List.mem_append]
  rcases hlink with hfirst | hnext
  · exact .inl (mem_ids_of_firstId hfirst)
  · cases hparent : Place.parent place with
    | none => rw [hparent] at hnext; cases hnext
    | some parent =>
        rw [hparent] at hnext
        exact .inr (mem_ids_of_firstId hnext)

/-- Every way down and along the children goes on in preorder, so it comes back to no node. -/
theorem Stores.idxOf_lt_of_way (hstores : Stores arena forest)
    (hway : Relation.TransGen arena.Leads id other) :
    forest.ids.idxOf id < forest.ids.idxOf other := by
  have hlt : ∀ {id other}, arena.Leads id other →
      forest.ids.idxOf id < forest.ids.idxOf other := fun hleads =>
    idxOf_lt_of_sublist hstores.distinct (hstores.sublist_of_leads hleads)
  induction hway with
  | single hleads => exact hlt hleads
  | tail _ hleads ih => exact Nat.lt_trans ih (hlt hleads)

/-- The links of an arena fit together if it stores a forest with the root of a document. -/
theorem Stores.coherent (hstores : Stores arena forest)
    (hroot : root ∈ forest.map NumberedTree.id) : arena.Coherent where
  next := by
    intro id cell other hcell hnext
    obtain ⟨place, before, tree, after, hforest, rfl, rfl⟩ := hstores.exists_place hcell
    cases place with
    | nil => cases hnext
    | cons frame place =>
        cases after with
        | nil => cases hnext
        | cons following after =>
            obtain rfl : following.id = other := Option.some.inj hnext
            have hfollowing : forest =
                Place.plug (frame :: place) ((before ++ [tree]) ++ following :: after) := by
              rw [hforest, List.append_assoc, List.singleton_append]
            exact ⟨_, hstores.get?_at hfollowing, by simp [lastId_singleton], rfl⟩
  previous := by
    intro id cell other hcell hprevious
    obtain ⟨place, before, tree, after, hforest, rfl, rfl⟩ := hstores.exists_place hcell
    cases place with
    | nil => cases hprevious
    | cons frame place =>
        cases before using List.reverseRecOn with
        | nil => cases hprevious
        | append_singleton before preceding _ =>
            obtain rfl : preceding.id = other := by simpa [lastId_singleton] using hprevious
            have hpreceding : forest =
                Place.plug (frame :: place) (before ++ preceding :: tree :: after) := by
              rw [hforest, List.append_assoc, List.singleton_append]
            exact ⟨_, hstores.get?_at hpreceding, rfl, rfl⟩
  first := by
    intro id cell other hcell hfirst
    obtain ⟨place, before, tree, after, hforest, rfl, rfl⟩ := hstores.exists_place hcell
    obtain ⟨child, hchild, rfl⟩ := Option.map_eq_some_iff.mp hfirst
    obtain ⟨rest, hchildren⟩ := List.head?_eq_some_iff.mp hchild
    rw [← Place.plug_frame, hchildren, ← List.nil_append (child :: rest)] at hforest
    exact ⟨_, hstores.get?_at hforest, rfl, rfl⟩
  last := by
    intro id cell other hcell hlast
    obtain ⟨place, before, tree, after, hforest, rfl, rfl⟩ := hstores.exists_place hcell
    obtain ⟨child, hchild, rfl⟩ := Option.map_eq_some_iff.mp hlast
    obtain ⟨rest, hchildren⟩ := List.getLast?_eq_some_iff.mp hchild
    rw [← Place.plug_frame, hchildren] at hforest
    exact ⟨_, hstores.get?_at hforest, rfl, rfl⟩
  parent := by
    intro id cell other hcell hparent
    obtain ⟨place, before, tree, after, hforest, rfl, rfl⟩ := hstores.exists_place hcell
    cases place with
    | nil => cases hparent
    | cons frame place =>
        obtain rfl : frame.id = other := Option.some.inj hparent
        have hlinked := hstores.linked
        rw [hforest] at hlinked
        refine ⟨_, Stores.get?_parent hlinked, fun hnone => ?_, fun hnone => ?_⟩
        · obtain rfl : before = [] := lastId_eq_none.mp hnone
          rfl
        · obtain rfl : after = [] := List.head?_eq_none_iff.mp (Option.map_eq_none_iff.mp hnone)
          exact lastId_concat before tree
  alone := by
    intro id cell hcell hparent
    obtain ⟨place, before, tree, after, hforest, rfl, rfl⟩ := hstores.exists_place hcell
    cases place with
    | nil => exact ⟨rfl, rfl⟩
    | cons frame place => cases hparent
  top := by
    obtain ⟨tree, htree, hid⟩ := List.mem_map.mp hroot
    obtain ⟨before, after, rfl⟩ := List.append_of_mem htree
    have htop : before ++ tree :: after = Place.plug [] (before ++ tree :: after) := rfl
    rw [← hid]
    exact ⟨_, hstores.get?_at htop, rfl⟩
  acyclic := fun _ hway => Nat.lt_irrefl _ (hstores.idxOf_lt_of_way hway)
  free := ⟨hstores.tidy.nodup, hstores.tidy.mem_free⟩

theorem WellFormed.coherent (harena : arena.WellFormed) : arena.Coherent where
  next := harena.next
  previous := harena.previous
  first := harena.first
  last := harena.last
  parent := harena.parent
  alone hcell hparent := (harena.top.2 hcell hparent).2
  top := harena.top.1
  acyclic := harena.acyclic
  free := harena.free

/-- An arena with a single tree, whose root is that of a document, is well-formed. -/
theorem Stores.wellFormed {tree : NumberedTree} (hstores : Stores arena [tree])
    (hroot : tree.id = root) : arena.WellFormed := by
  have hcoherent : arena.Coherent := hstores.coherent (List.mem_singleton.mpr hroot.symm)
  have hdescendants := hstores.descendants_top
  exact
    { next := hcoherent.next
      previous := hcoherent.previous
      first := hcoherent.first
      last := hcoherent.last
      parent := hcoherent.parent
      top := by
        refine ⟨hcoherent.top, fun {id cell} hcell hparent => ?_⟩
        obtain ⟨place, before, other, after, hforest, rfl, rfl⟩ := hstores.exists_place hcell
        cases place with
        | cons frame place => cases hparent
        | nil =>
            obtain ⟨rfl, hother⟩ | ⟨-, hnil⟩ := List.append_eq_singleton_iff.mp hforest.symm
            · obtain ⟨rfl, rfl⟩ := List.cons.inj hother
              exact ⟨hroot, rfl, rfl⟩
            · cases hnil
      acyclic := hcoherent.acyclic
      reachable :=
        ⟨_, hroot ▸ hdescendants, hstores.distinct, hstores.mem_iff, hstores.size.symm⟩
      free := hcoherent.free }

/-- An arena that holds a document is well-formed. -/
theorem Holds.wellFormed (hholds : Holds arena forest) : arena.WellFormed := by
  have hstores : Stores arena [.node root _ _] := hholds
  exact hstores.wellFormed rfl

end Arena

end PageMarkup
