import PageMarkup.Proofs.Arena.Pruning
import PageMarkup.Proofs.Arena.Sifting

/-! # One sweep is enough

What pruning does to the ordered forest of an arena. A removal can leave a parent without
children, but the sweep goes backwards through the preorder, so the turn of the parent is
still to come. The nodes that go are those with nothing but nodes below them that must have
children, each after those below it, and what is left needs no second sweep.
-/

namespace PageMarkup

open NumberedForest

namespace OrderedForest

/-- A node is hollow if it must have children and so must each node below it. -/
def Hollow (forest : OrderedForest) (id : Nat) : Prop :=
  ∀ other, forest.Below id other →
    ∃ entry, forest other = some entry ∧ entry.data.kind.needsChildren

end OrderedForest

namespace NumberedForest

variable {forest : NumberedForest} {removed : List Nat}

theorem mem_subtrees_plug (place : Place) (before after : NumberedForest) (tree : NumberedTree) :
    tree ∈ (place.plug (before ++ tree :: after)).subtrees := by
  have hsubset : ∀ siblings : NumberedForest,
      siblings.subtrees ⊆ (place.plug siblings).subtrees := by
    induction place with
    | nil => exact fun siblings => List.Subset.refl _
    | cons frame place ih =>
        intro siblings
        refine List.Subset.trans ?_ (ih _)
        rw [subtrees_append, subtrees_cons]
        exact fun found hfound => by simp [hfound]
  obtain ⟨id, data, children⟩ := tree
  exact hsubset _ (by simp)

theorem exists_plug_of_mem_subtrees {tree : NumberedTree} (hmem : tree ∈ forest.subtrees) :
    ∃ (place : Place) (before after : NumberedForest),
      forest = place.plug (before ++ tree :: after) := by
  obtain ⟨place, before, found, after, hplug, hfound⟩ := Place.exists_plug hmem
  obtain rfl := List.mem_singleton.mp hfound
  exact ⟨place, before, after, hplug⟩

theorem map_id_pruned (hremoved : ∀ tree ∈ forest.subtrees, tree.id ∈ removed ↔ tree.isHollow) :
    forest.pruned.map NumberedTree.id = (forest.map NumberedTree.id).filter (· ∉ removed) := by
  induction forest using NumberedForest.induction with
  | nil => simp
  | cons id data children rest _ ihrest =>
      rw [subtrees_cons, List.forall_mem_cons, List.forall_mem_append] at hremoved
      obtain ⟨hid, -, hrest⟩ := hremoved
      rw [NumberedTree.id_node] at hid
      rw [List.map_cons, NumberedTree.id_node, List.filter_cons]
      by_cases hhollow : (NumberedTree.node id data children).isHollow
      · simp [pruned_of_hollow hhollow, hid, hhollow, ihrest hrest]
      · simp [pruned_of_full hhollow, hid, hhollow, ihrest hrest]

theorem sublist_hollows (forest : NumberedForest) :
    (forest.hollows.map NumberedTree.id).Sublist forest.ids := by
  rw [← map_id_subtrees]
  exact List.filter_sublist.map _

/-- The entries of a pruned forest are those of the nodes that are left. -/
theorem entries_pruned (parent : Option Nat)
    (hremoved : ∀ tree ∈ forest.subtrees, tree.id ∈ removed ↔ tree.isHollow) :
    forest.pruned.entries parent = sift removed (forest.entries parent) := by
  rw [sift]
  induction forest using NumberedForest.induction generalizing parent with
  | nil => simp
  | cons id data children rest ihchildren ihrest =>
      rw [subtrees_cons, List.forall_mem_cons, List.forall_mem_append] at hremoved
      obtain ⟨hid, hchildren, hrest⟩ := hremoved
      rw [NumberedTree.id_node] at hid
      rw [entries_cons, List.filter_cons, List.filter_append]
      by_cases hhollow : (NumberedTree.node id data children).isHollow
      · -- All that is below a hollow node goes with it.
        have hgone : ∀ found ∈ children.entries (some id), found.1 ∈ removed := by
          intro found hfound
          have hfst : found.1 ∈ (children.entries (some id)).map Prod.fst :=
            List.mem_map_of_mem hfound
          rw [map_fst_entries] at hfst
          obtain ⟨below, hbelow, hsame⟩ := mem_ids_iff.mp hfst
          rw [← hsame, hchildren below hbelow]
          exact NumberedTree.isHollow_of_mem hhollow (by simp [hbelow])
        have hnone : (children.entries (some id)).filter (fun found => found.1 ∉ removed) = [] :=
          List.filter_eq_nil_iff.mpr fun found hfound => by simp [hgone found hfound]
        rw [pruned_of_hollow hhollow, ihrest parent hrest, if_neg (by simp [hid, hhollow]),
          NumberedTree.children_node, NumberedTree.id_node, hnone, List.nil_append]
      · simp [pruned_of_full hhollow, entries_cons, hid, hhollow, ihchildren (some id) hchildren,
          ihrest parent hrest, map_id_pruned hchildren, Entry.prune]

end NumberedForest

namespace Arena

variable {arena : Arena} {place : Place} {before after roots : NumberedForest}
  {tree : NumberedTree} {id : Nat}

namespace Stores

/-- The hollow nodes are those of the hollow trees. -/
theorem hollow_iff (hstores : Stores arena roots) (hmem : tree ∈ roots.subtrees) :
    arena.forest.Hollow tree.id ↔ tree.isHollow := by
  -- A number below that of the tree is that of a subtree, and the arena has the data of it.
  have hdata : ∀ below ∈ subtrees [tree], ∃ entry, arena.forest below.id = some entry ∧
      entry.data = below.data := by
    intro below hbelow
    obtain ⟨place, before, after, rfl⟩ := exists_plug_of_mem_subtrees (subtrees_of_mem hmem hbelow)
    exact ⟨_, hstores.forest_tree, rfl⟩
  obtain ⟨place, before, after, rfl⟩ := exists_plug_of_mem_subtrees hmem
  rw [NumberedTree.isHollow, List.all_eq_true]
  constructor
  · intro hhollow below hbelow
    obtain ⟨entry, hentry, hsame⟩ := hdata below hbelow
    have hid : below.id ∈ NumberedForest.ids [tree] := mem_ids_iff.mpr ⟨below, hbelow, rfl⟩
    obtain ⟨found, hfound, hneeds⟩ := hhollow below.id (hstores.below_iff.mpr hid)
    obtain rfl := Option.some.inj (hentry.symm.trans hfound)
    rwa [← hsame]
  · intro hneeds other hother
    obtain ⟨below, hbelow, rfl⟩ := mem_ids_iff.mp (hstores.below_iff.mp hother)
    obtain ⟨entry, hentry, hsame⟩ := hdata below hbelow
    exact ⟨entry, hentry, hsame ▸ hneeds below hbelow⟩

theorem mem_hollows (hstores : Stores arena roots) :
    id ∈ roots.hollows.map NumberedTree.id ↔ arena.forest.Hollow id := by
  constructor
  · intro hid
    obtain ⟨tree, htree, rfl⟩ := List.mem_map.mp hid
    obtain ⟨hmem, hhollow⟩ := List.mem_filter.mp htree
    exact (hstores.hollow_iff hmem).mpr hhollow
  · intro hhollow
    obtain ⟨entry, hentry, -⟩ := hhollow id .refl
    obtain ⟨tree, hmem, rfl⟩ := mem_ids_iff.mp (hstores.mem_ids_of_forest hentry)
    exact List.mem_map_of_mem (List.mem_filter.mpr ⟨hmem, (hstores.hollow_iff hmem).mp hhollow⟩)

/-- In preorder no node is below one that comes after it. -/
theorem pairwise_not_below (hstores : Stores arena roots) :
    roots.ids.Pairwise fun first second => ¬ arena.forest.Below second first := by
  rw [List.pairwise_iff_forall_sublist]
  intro first second hsublist hbelow
  have hsecond : second ∈ roots.ids := hsublist.subset (by simp)
  obtain ⟨tree, htree, rfl⟩ := mem_ids_iff.mp hsecond
  obtain ⟨place, before, after, rfl⟩ := exists_plug_of_mem_subtrees htree
  have hfirst := hstores.below_iff.mp hbelow
  have hlt := idxOf_lt_of_sublist hstores.distinct hsublist
  rw [ids_cons_eq, ids_nil, List.append_nil, List.mem_cons] at hfirst
  rcases hfirst with rfl | hfirst
  · exact Nat.lt_irrefl _ hlt
  · -- What is below a node comes after it, and `first` comes before.
    have hways : [tree.id, first].Sublist (place.plug (before ++ tree :: after)).ids := by
      refine .trans ?_ (Place.ids_sublist_plug place _)
      rw [ids_append, ids_cons_eq]
      refine .trans ?_ (List.sublist_append_right _ _)
      exact ((List.singleton_sublist.mpr hfirst).trans (List.sublist_append_left _ _)).cons_cons _
    exact Nat.lt_asymm hlt (idxOf_lt_of_sublist hstores.distinct hways)

/-- What is told of a pruned forest. -/
theorem forest_pruned {next : Arena} {removed : List Nat} (hstores : Stores arena roots)
    (hnext : Stores next roots.pruned) (hremoved : ∀ id, id ∈ removed ↔ arena.forest.Hollow id) :
    next.forest = arena.forest.prune removed := by
  apply hnext.lists.unique
  rw [entries_pruned none fun tree hmem => (hremoved _).trans (hstores.hollow_iff hmem)]
  exact hstores.lists.prune _

end Stores

theorem Stores.pruneEmpty_eq (hstores : Stores arena [tree]) (hroot : tree.id = root) :
    arena.pruneEmpty = arena.visit pruneAt (NumberedForest.ids [tree]).reverse := by
  rw [Arena.pruneEmpty, ← hroot, hstores.descendants_top, ok_bind]

/-- A sweep does nothing if no node is without children that it must have. -/
theorem Stores.pruneEmpty_of_full (hstores : Stores arena [tree]) (hroot : tree.id = root)
    (hfull : ∀ below ∈ subtrees [tree], below.data.kind.needsChildren → below.children ≠ []) :
    arena.pruneEmpty = .ok (arena, []) := by
  rw [hstores.pruneEmpty_eq hroot]
  apply visit_of_forall
  intro id hid
  obtain ⟨below, hmem, rfl⟩ := mem_ids_iff.mp (List.mem_reverse.mp hid)
  obtain ⟨place, before, after, hplug⟩ := exists_plug_of_mem_subtrees hmem
  rw [hplug] at hstores
  exact hstores.pruneAt_of_not_empty fun hempty => hfull below hmem hempty.1 hempty.2

/-- One sweep is enough. It removes the hollow nodes, each after those below it and each with a
warning at its opener, and leaves every other node with what it holds, its parent and the children
that are left to it, in their order. Then a node that must have children has some, and a second
sweep finds nothing to do. (A root that is hollow goes as well; the root of a document is not, as
it may be without children.) -/
theorem pruneEmpty_sweeps (harena : arena.WellFormed) :
    ∃ next removed notices, arena.pruneEmpty = .ok (next, notices) ∧
      (removed.Nodup ∧ ∀ id, id ∈ removed ↔ arena.forest.Hollow id) ∧
      removed.Pairwise (fun first second => ¬ arena.forest.Below first second) ∧
      List.Forall₂ (fun id notice => ∃ entry, arena.forest id = some entry ∧
        notice = ⟨.emptyRemoved entry.data.kind, some entry.data.offset⟩) removed notices ∧
      next.forest = arena.forest.prune removed ∧
      (∀ id entry, next.forest id = some entry → entry.data.kind.needsChildren →
        entry.children ≠ []) ∧
      (root ∉ removed → next.WellFormed ∧ next.pruneEmpty = .ok (next, [])) := by
  obtain ⟨tree, hroot, hstores⟩ := wellFormed_iff.mp harena
  have hplug : Stores arena (Place.plug [] ([] ++ [tree] ++ [])) := hstores
  obtain ⟨next, hvisit, hnext⟩ := hplug.visit_pruneAt
  simp only [Place.plug_nil, List.nil_append, List.append_nil] at hnext
  have hremoved : ∀ id, id ∈ (hollows [tree]).reverse.map NumberedTree.id ↔
      arena.forest.Hollow id := by
    intro id
    rw [List.map_reverse, List.mem_reverse]
    exact hstores.mem_hollows
  have hfull : ∀ below ∈ (pruned [tree]).subtrees, below.data.kind.needsChildren →
      below.children ≠ [] := fun below hmem => children_of_mem_pruned hmem
  refine ⟨next, (hollows [tree]).reverse.map NumberedTree.id, _,
    (hstores.pruneEmpty_eq hroot).trans hvisit, ⟨?_, hremoved⟩, ?_, ?_,
    hstores.forest_pruned hnext hremoved, ?_, fun hkept => ?_⟩
  · rw [List.map_reverse, List.nodup_reverse]
    exact hstores.distinct.sublist (sublist_hollows [tree])
  · rw [List.map_reverse, List.pairwise_reverse]
    exact hstores.pairwise_not_below.sublist (sublist_hollows [tree])
  · rw [List.forall₂_map_left_iff, List.forall₂_map_right_iff, List.forall₂_same]
    intro below hbelow
    have hmem := List.mem_of_mem_filter (List.mem_reverse.mp hbelow)
    obtain ⟨place, before, after, hplug⟩ := exists_plug_of_mem_subtrees hmem
    exact ⟨_, Stores.forest_tree (hplug ▸ hstores), rfl⟩
  · intro id entry hentry hneeds
    obtain ⟨place, before, below, after, hplug, -, rfl⟩ := hnext.exists_tree hentry
    have hmem := hfull below (hplug ▸ mem_subtrees_plug place before after below) hneeds
    simpa using hmem
  · -- The root is still there, so the sweep left a single tree.
    obtain ⟨id, data, children⟩ := tree
    have hkeeps : ¬ (NumberedTree.node id data children).isHollow := by
      intro hhollow
      have hhollow := (hstores.hollow_iff (by simp)).mpr hhollow
      rw [hroot] at hhollow
      exact hkept ((hremoved _).mpr hhollow)
    rw [pruned_of_full hkeeps, pruned_nil] at hnext hfull
    exact ⟨hnext.wellFormed hroot, hnext.pruneEmpty_of_full hroot hfull⟩

/-- A quote without anything but an empty style in an empty style, before a text in a style. -/
def sweepExample : Arena where
  slots :=
    #[ some { data := { kind := .documentRoot }, first := some 1, last := some 4 }
     , some { data := { kind := .aggregate (.line .blockquote), opener := some ⟨0, 0⟩ },
              parent := some 0, next := some 4, first := some 2, last := some 2 }
     , some { data := { kind := .aggregate (.style .bold), opener := some ⟨1, 1⟩ },
              parent := some 1, first := some 3, last := some 3 }
     , some { data := { kind := .aggregate (.style .em), opener := some ⟨2, 2⟩ },
              parent := some 2 }
     , some { data := { kind := .aggregate (.style .bold), opener := some ⟨7, 7⟩ },
              parent := some 0, previous := some 1, first := some 5, last := some 5 }
     , some { data := { kind := .text, text := "a" }, parent := some 4 } ]
  free := []

/-- The tree of the example. -/
def sweepTree : NumberedTree :=
  .node 0 { kind := .documentRoot }
    [ .node 1 { kind := .aggregate (.line .blockquote), opener := some ⟨0, 0⟩ }
        [.node 2 { kind := .aggregate (.style .bold), opener := some ⟨1, 1⟩ }
          [.node 3 { kind := .aggregate (.style .em), opener := some ⟨2, 2⟩ } []]]
    , .node 4 { kind := .aggregate (.style .bold), opener := some ⟨7, 7⟩ }
        [.node 5 { kind := .text, text := "a" } []] ]

theorem sweepExample_stores : Stores sweepExample [sweepTree] := by
  have hids : NumberedForest.ids [sweepTree] = [0, 1, 2, 3, 4, 5] := by simp [sweepTree]
  apply stores_of_slots hids (by decide) ?_ (by decide) (by decide)
  simp only [sweepTree, linked_cons, linked_nil]
  decide

/-- The root of the example stays, and the second sweep is idle. -/
theorem pruneEmpty_sweeps_sweepExample : sweepExample.WellFormed ∧
    ∃ next notices, sweepExample.pruneEmpty = .ok (next, notices) ∧ next.WellFormed ∧
      next.pruneEmpty = .ok (next, []) := by
  have hwellFormed : sweepExample.WellFormed := sweepExample_stores.wellFormed rfl
  obtain ⟨next, removed, notices, hprune, ⟨-, hremoved⟩, -, -, -, -, hagain⟩ :=
    pruneEmpty_sweeps hwellFormed
  have hroot : root ∉ removed := by
    intro hmem
    obtain ⟨entry, hentry, hneeds⟩ := (hremoved root).mp hmem root .refl
    obtain rfl := Option.some.inj hentry
    cases hneeds
  exact ⟨hwellFormed, next, notices, hprune, hagain hroot⟩

example : sweepExample.pruneEmpty.map Prod.snd = .ok
    [ ⟨.emptyRemoved (.aggregate (.style .em)), some 2⟩
    , ⟨.emptyRemoved (.aggregate (.style .bold)), some 1⟩
    , ⟨.emptyRemoved (.aggregate (.line .blockquote)), some 0⟩ ] := by
  decide

end Arena

end PageMarkup
