import PageMarkup.Proofs.Arena.Listing

/-! # What each operation does

Linking, unlinking, moving, removing and storing nodes, each said of the ordered forest that a
coherent arena is read as. An operation that is used as it is meant to be does not fail, leaves
the arena coherent, and changes the entries that it names and no others.
-/

namespace PageMarkup

open NumberedForest

namespace Arena

variable {arena next : Arena} {id : Nat}

/-! ## Slots -/

theorem bind_eq_ok {α β : Type} {first : Except ArenaFault α} {second : α → Except ArenaFault β}
    {result : β} (hok : (first >>= second) = .ok result) :
    ∃ value, first = .ok value ∧ second value = .ok result := by
  cases first with
  | error fault => cases hok
  | ok value => exact ⟨value, rfl, hok⟩

theorem slots_modify {f : Cell → Cell} (hok : arena.modify id f = .ok next) :
    next.slots.size = arena.slots.size := by
  obtain ⟨cell, -, hok⟩ := bind_eq_ok hok
  obtain rfl := Except.ok.inj hok
  exact Array.size_setIfInBounds

theorem slots_modify? {id : Option Nat} {f : Cell → Cell} (hok : arena.modify? id f = .ok next) :
    next.slots.size = arena.slots.size := by
  cases id with
  | none =>
      obtain rfl := Except.ok.inj hok
      rfl
  | some id => exact slots_modify hok

theorem slots_setNext {previous parent value : Option Nat}
    (hok : arena.setNext previous parent value = .ok next) :
    next.slots.size = arena.slots.size := by
  cases previous with
  | none => exact slots_modify? hok
  | some previous => exact slots_modify hok

theorem slots_setPrevious {following parent value : Option Nat}
    (hok : arena.setPrevious following parent value = .ok next) :
    next.slots.size = arena.slots.size := by
  cases following with
  | none => exact slots_modify? hok
  | some following => exact slots_modify hok

theorem slots_detach (hok : arena.detach id = .ok next) :
    next.slots.size = arena.slots.size := by
  obtain ⟨cell, hcell, -⟩ := bind_eq_ok hok
  rw [detach_eq (get?_of_get hcell)] at hok
  obtain ⟨first, hfirst, hrest⟩ := bind_eq_ok hok
  obtain ⟨second, hsecond, hthird⟩ := bind_eq_ok hrest
  rw [slots_modify hthird, slots_setPrevious hsecond, slots_setNext hfirst]

theorem slots_release {fuel : Nat} {stack : List Nat} (hok : release fuel arena stack = .ok next) :
    next.slots.size = arena.slots.size := by
  induction fuel generalizing arena stack with
  | zero =>
      cases stack <;> obtain rfl := Except.ok.inj hok <;> rfl
  | succ fuel ih =>
      cases stack with
      | nil =>
          obtain rfl := Except.ok.inj hok
          rfl
      | cons id stack =>
          obtain ⟨below, -, hok⟩ := bind_eq_ok hok
          rw [ih hok, Array.size_setIfInBounds]

theorem slots_remove (hok : arena.remove id = .ok next) : next.slots.size = arena.slots.size := by
  obtain ⟨detached, hdetach, hok⟩ := bind_eq_ok hok
  rw [slots_release hok, slots_detach hdetach]

theorem slots_removeAll {ids : List Nat} (hok : ids.foldlM remove arena = .ok next) :
    next.slots.size = arena.slots.size := by
  induction ids generalizing arena with
  | nil =>
      obtain rfl := Except.ok.inj hok
      rfl
  | cons id rest ih =>
      rw [List.foldlM_cons] at hok
      obtain ⟨removed, hremove, hrest⟩ := bind_eq_ok hok
      rw [ih hrest, slots_remove hremove]

theorem slots_clear (hok : arena.clear id = .ok next) : next.slots.size = arena.slots.size := by
  obtain ⟨children, -, hremoved⟩ := bind_eq_ok hok
  exact slots_removeAll hremoved

/-- Nodes that are gone are free once each, and nothing else became free. -/
theorem Stores.free_perm {roots kept : NumberedForest} {ids : List Nat}
    (hstores : Stores arena roots) (hnext : Stores next kept)
    (hslots : next.slots.size = arena.slots.size) (hids : roots.ids.Perm (ids ++ kept.ids)) :
    next.free.Perm (ids ++ arena.free) ∧ next.size + ids.length = arena.size := by
  have hdistinct := hids.nodup_iff.mp hstores.distinct
  obtain ⟨hnodup, -, hdisjoint⟩ := List.nodup_append.mp hdistinct
  refine ⟨(List.perm_ext_iff_of_nodup hnext.tidy.nodup ?_).mpr fun id => ?_, ?_⟩
  · refine List.nodup_append.mpr ⟨hnodup, hstores.tidy.nodup, ?_⟩
    rintro id hid _ hfree rfl
    have hlive := hstores.isSome_get? (hids.mem_iff.mpr (List.mem_append_left _ hid))
    rw [((hstores.tidy.mem_free id).mp hfree).2] at hlive
    cases hlive
  · have hlive := hids.mem_iff (a := id)
    rw [List.mem_append, hstores.mem_iff, hnext.mem_iff] at hlive
    have hgone : id ∈ ids → ¬ (next.get? id).isSome := fun hid hkept =>
      hdisjoint id hid id ((hnext.mem_iff id).mpr hkept) rfl
    have hlt : (arena.get? id).isSome → id < arena.slots.size := fun hsome =>
      have ⟨_, hcell⟩ := Option.isSome_iff_exists.mp hsome
      lt_size_of_get? hcell
    rw [List.mem_append, hnext.tidy.mem_free, hstores.tidy.mem_free, hslots,
      ← Option.not_isSome_iff_eq_none, ← Option.not_isSome_iff_eq_none]
    tauto
  · rw [hstores.size, hnext.size, hids.length_eq, List.length_append, Nat.add_comm]

/-! ## Where nodes stand -/

/-- The roots are the same whatever stands at a place below them. -/
theorem map_id_plug (frame : Frame) (place : Place) (first second : NumberedForest) :
    (Place.plug (frame :: place) first).map NumberedTree.id =
      (Place.plug (frame :: place) second).map NumberedTree.id := by
  induction place generalizing frame first second with
  | nil => simp [Place.plug_cons]
  | cons outer place ih =>
      rw [Place.plug_cons, Place.plug_cons]
      exact ih outer _ _

/-- The root of the document is still a root where another root is left out. -/
theorem root_mem_beside {before after : NumberedForest} {tree : NumberedTree}
    (hroot : root ∈ (before ++ tree :: after).map NumberedTree.id) (hne : tree.id ≠ root) :
    root ∈ (before ++ after).map NumberedTree.id := by
  rw [List.map_append, List.map_cons, List.mem_append, List.mem_cons] at hroot
  rw [List.map_append, List.mem_append]
  exact hroot.imp_right fun hroot => hroot.resolve_left hne.symm

namespace Stores

variable {roots : NumberedForest} {child target : Nat}

/-- What is told of a tree at a place does not depend on roots beside that. -/
theorem forest_beside {place : Place} {before after : NumberedForest} {tree : NumberedTree}
    (hstores : Stores arena (roots ++ place.plug (before ++ tree :: after))) :
    arena.forest tree.id =
      some ⟨tree.data, Place.parent place, tree.children.map NumberedTree.id⟩ := by
  cases place with
  | nil =>
      rw [Place.plug_nil, ← List.append_assoc] at hstores
      have hroot : Stores arena (Place.plug [] (roots ++ before ++ tree :: after)) := hstores
      exact hroot.forest_tree
  | cons frame place =>
      obtain ⟨other, outer, hid, -, hplug⟩ := Place.exists_beside roots frame place
      rw [← hplug] at hstores
      rw [hstores.forest_tree, Place.parent_cons, Place.parent_cons, hid]

/-- A node that stands apart is the root of a tree, and the other trees have the root of the
document among their roots. -/
theorem exists_root (hstores : Stores arena roots) (hroot : root ∈ roots.map NumberedTree.id)
    (hchild : arena.forest.Detached child) :
    ∃ tree others, tree.id = child ∧ Stores arena (tree :: others) ∧
      root ∈ others.map NumberedTree.id := by
  obtain ⟨hne, entry, hentry, hparent⟩ := hchild
  obtain ⟨place, before, tree, after, rfl, rfl, rfl⟩ := hstores.exists_tree hentry
  cases place with
  | cons frame place => cases hparent
  | nil =>
      exact ⟨tree, before ++ after, rfl, hstores.perm List.perm_middle, root_mem_beside hroot hne⟩

/-- A node that is not below a root is at a place beside its tree. -/
theorem exists_beside {tree : NumberedTree} {others : NumberedForest}
    (hstores : Stores arena (tree :: others)) (htarget : arena.forest.Live target)
    (hnot : ¬ arena.forest.Below tree.id target) :
    ∃ (place : Place) (before : NumberedForest) (below : NumberedTree) (after : NumberedForest),
      others = place.plug (before ++ below :: after) ∧ below.id = target := by
  have hmem := hstores.live_iff.mp htarget
  have hroot : Stores arena (Place.plug [] ([] ++ tree :: others)) := hstores
  rw [← List.singleton_append, ids_append, List.mem_append, ← hroot.below_iff] at hmem
  exact Place.exists_plug_of_mem (hmem.resolve_left hnot)

end Stores

theorem children_of_forest {entry : Entry} (hentry : arena.forest id = some entry) :
    arena.children id = .ok entry.children := by
  rw [Arena.forest] at hentry
  split at hentry
  next hchildren =>
    obtain rfl := Option.some.inj hentry
    exact hchildren
  next => cases hentry

/-- One arena is the other with a node made a root, with what is below it. -/
structure Apart (arena next : Arena) (tree : NumberedTree) (others : NumberedForest) : Prop where
  stores : Stores next (tree :: others)
  root : root ∈ others.map NumberedTree.id
  forest : next.forest = arena.forest.unlink tree.id
  descendants : arena.descendants tree.id = .ok (NumberedForest.ids [tree])
  below : ∀ id, arena.forest.Below tree.id id ↔ id ∈ NumberedForest.ids [tree]
  ids : ∃ roots, Stores arena roots ∧ roots.ids.Perm (NumberedForest.ids (tree :: others))

/-! ## Linking -/

namespace Coherent

variable {parent child sibling : Nat}

/-- An arena in which a root was put among some siblings. -/
theorem of_attach {tree : NumberedTree} {frame : Frame} {place : Place}
    {before after : NumberedForest}
    (hstores : Stores arena (tree :: Place.plug (frame :: place) (before ++ after)))
    (hroot : root ∈ (Place.plug (frame :: place) (before ++ after)).map NumberedTree.id)
    (hnext : Stores next (Place.plug (frame :: place) (before ++ tree :: after)))
    {arrange : List Nat → List Nat}
    (harrange : arrange ((before ++ after).map NumberedTree.id) =
      (before ++ tree :: after).map NumberedTree.id) :
    next.Coherent ∧ next.forest = arena.forest.link frame.id tree.id arrange := by
  refine ⟨hnext.coherent ?_, hstores.forest_attach hnext harrange⟩
  rwa [map_id_plug _ _ _ (before ++ after)]

variable (harena : arena.Coherent)

include harena

theorem append (hparent : arena.forest.Live parent) (hchild : arena.forest.Detached child)
    (hnot : ¬ arena.forest.Below child parent) :
    ∃ next, arena.append parent child = .ok next ∧ next.Coherent ∧
      next.forest = arena.forest.link parent child (· ++ [child]) := by
  obtain ⟨roots, hstores, hroot⟩ := harena.exists_stores
  obtain ⟨tree, others, rfl, hstores, hroot⟩ := hstores.exists_root hroot hchild
  obtain ⟨place, before, below, after, rfl, rfl⟩ := hstores.exists_beside hparent hnot
  rw [← Place.plug_frame] at hstores hroot
  obtain ⟨next, hok, hnext⟩ := hstores.append
  -- The end of the children is a place among them, with nothing after it.
  rw [← List.append_nil below.children] at hstores hroot
  exact ⟨next, hok, of_attach hstores hroot hnext (by simp)⟩

theorem prepend (hparent : arena.forest.Live parent) (hchild : arena.forest.Detached child)
    (hnot : ¬ arena.forest.Below child parent) :
    ∃ next, arena.prepend parent child = .ok next ∧ next.Coherent ∧
      next.forest = arena.forest.link parent child (child :: ·) := by
  obtain ⟨roots, hstores, hroot⟩ := harena.exists_stores
  obtain ⟨tree, others, rfl, hstores, hroot⟩ := hstores.exists_root hroot hchild
  obtain ⟨place, before, below, after, rfl, rfl⟩ := hstores.exists_beside hparent hnot
  rw [← Place.plug_frame] at hstores hroot
  obtain ⟨next, hok, hnext⟩ := hstores.prepend
  rw [← List.nil_append below.children] at hstores hroot
  exact ⟨next, hok, of_attach hstores hroot hnext rfl⟩

theorem insertBefore (hsibling : arena.forest.Parent parent sibling)
    (hchild : arena.forest.Detached child) (hnot : ¬ arena.forest.Below child sibling) :
    ∃ next, arena.insertBefore sibling child = .ok next ∧ next.Coherent ∧
      next.forest =
        arena.forest.link parent child (OrderedForest.putBefore sibling child) := by
  obtain ⟨roots, hstores, hroot⟩ := harena.exists_stores
  obtain ⟨tree, others, rfl, hstores, hroot⟩ := hstores.exists_root hroot hchild
  obtain ⟨entry, hentry, hparent⟩ := hsibling
  obtain ⟨place, before, below, after, rfl, rfl⟩ := hstores.exists_beside ⟨entry, hentry⟩ hnot
  have hbeside : Stores arena ([tree] ++ place.plug (before ++ below :: after)) := hstores
  obtain rfl := Option.some.inj (hentry.symm.trans hbeside.forest_beside)
  cases place with
  | nil => cases hparent
  | cons frame place =>
      obtain rfl : frame.id = parent := Option.some.inj hparent
      obtain ⟨next, hok, hnext⟩ := hstores.insertBefore
      have hdistinct := (Stores.distinct_beside hstores.distinct).2.2.2
      refine ⟨next, hok, of_attach hstores hroot hnext ?_⟩
      rw [List.map_append, List.map_cons,
        OrderedForest.putBefore_append (id_not_mem_before hdistinct), List.map_append]
      rfl

/-! ## Unlinking and removing -/

/-- A node other than the root of the document is unlinked. -/
theorem exists_apart (hlive : arena.forest.Live id) (hid : id ≠ root) :
    ∃ next tree others, arena.detach id = .ok next ∧ tree.id = id ∧ Apart arena next tree others := by
  obtain ⟨roots, hstores, hroot⟩ := harena.exists_stores
  obtain ⟨place, before, tree, after, rfl, rfl⟩ :=
    Place.exists_plug_of_mem (hstores.live_iff.mp hlive)
  have hids := Place.ids_plug_middle place before after tree
  cases place with
  | nil =>
      have happart : Stores arena (tree :: (before ++ after)) := hstores.perm List.perm_middle
      obtain ⟨next, hok, hnext⟩ := happart.detach_root
      refine ⟨next, tree, before ++ after, hok, rfl, hnext, root_mem_beside hroot hid, ?_,
        hstores.descendants, fun id => hstores.below_iff, _, hstores, hids⟩
      -- A root is linked to nothing, so that the arena tells the same entries as before.
      rw [OrderedForest.unlink_of_root hstores.forest_tree rfl]
      exact hnext.lists.unique happart.lists
  | cons frame place =>
      obtain ⟨next, hok, hnext⟩ := hstores.detach
      refine ⟨next, tree, _, hok, rfl, hnext, ?_, hstores.forest_detach hnext, hstores.descendants,
        fun id => hstores.below_iff, _, hstores, hids⟩
      rwa [map_id_plug _ _ _ (before ++ tree :: after)]

theorem detach (hlive : arena.forest.Live id) (hid : id ≠ root) :
    ∃ next, arena.detach id = .ok next ∧ next.Coherent ∧
      next.forest = arena.forest.unlink id ∧ next.descendants id = arena.descendants id := by
  obtain ⟨next, tree, others, hok, rfl, hapart⟩ := harena.exists_apart hlive hid
  refine ⟨next, hok, hapart.stores.coherent (List.mem_cons_of_mem _ hapart.root), hapart.forest, ?_⟩
  have hroot : Stores next (Place.plug [] ([] ++ tree :: others)) := hapart.stores
  rw [hroot.descendants, hapart.descendants]

theorem remove (hlive : arena.forest.Live id) (hid : id ≠ root) :
    ∃ next ids, arena.remove id = .ok next ∧ next.Coherent ∧ arena.descendants id = .ok ids ∧
      ids.Nodup ∧ (∀ other, other ∈ ids ↔ arena.forest.Below id other) ∧
      next.forest = (arena.forest.unlink id).without ids ∧
      next.free.Perm (ids ++ arena.free) ∧ next.size + ids.length = arena.size := by
  obtain ⟨detached, tree, others, hdetach, rfl, hapart⟩ := harena.exists_apart hlive hid
  obtain ⟨roots, hstores, hids⟩ := hapart.ids
  obtain ⟨next, hrelease, hnext⟩ := hapart.stores.release
  have hok : arena.remove tree.id = .ok next := by rw [Arena.remove, hdetach, ok_bind, hrelease]
  rw [← List.singleton_append, ids_append] at hids
  have hdistinct := hids.nodup_iff.mp hstores.distinct
  refine ⟨next, _, hok, hnext.coherent hapart.root, hapart.descendants,
    hdistinct.of_append_left, fun other => (hapart.below other).symm, ?_,
    hstores.free_perm hnext (slots_remove hok) hids⟩
  rw [hapart.stores.forest_release hnext, hapart.forest]

/-! ## Storing -/

theorem alloc (data : Node) :
    ∃ next id, arena.alloc data = (id, next) ∧ next.Coherent ∧ ¬ arena.forest.Live id ∧
      next.forest = arena.forest.insert id data ∧ next.size = arena.size + 1 := by
  obtain ⟨roots, hstores, hroot⟩ := harena.exists_stores
  obtain ⟨id, next, hok, hnext⟩ := hstores.alloc data
  have hfresh : id ∉ roots.ids := by
    have hdistinct := hnext.distinct
    rw [ids_cons, ids_nil, List.nil_append] at hdistinct
    exact (List.nodup_cons.mp hdistinct).1
  refine ⟨next, id, hok, hnext.coherent (List.mem_cons_of_mem _ hroot),
    hstores.live_iff.not.mpr hfresh, hstores.forest_alloc hnext, ?_⟩
  rw [hnext.size, hstores.size, ids_cons, ids_nil, List.nil_append, List.length_cons]

/-- A number that no node has is above nothing. -/
theorem not_below_of_insert (hfresh : ¬ arena.forest.Live id) (data : Node) {other : Nat}
    (hne : other ≠ id) : ¬ (arena.forest.insert id data).Below id other := by
  obtain ⟨roots, hstores, -⟩ := harena.exists_stores
  intro hbelow
  obtain rfl | ⟨child, ⟨entry, hentry, hparent⟩, -⟩ := Relation.ReflTransGen.cases_head hbelow
  · exact hne rfl
  · rw [OrderedForest.insert] at hentry
    split at hentry
    next =>
      obtain rfl := Option.some.inj hentry
      cases hparent
    next =>
      obtain ⟨above, habove, -⟩ := hstores.exists_children ⟨entry, hentry, hparent⟩
      exact hfresh ⟨above, habove⟩

theorem push (hparent : arena.forest.Live parent) (data : Node) :
    ∃ next id, arena.push parent data = .ok (id, next) ∧ next.Coherent ∧
      ¬ arena.forest.Live id ∧
      next.forest = (arena.forest.insert id data).link parent id (· ++ [id]) := by
  obtain ⟨allocated, id, halloc, hallocated, hfresh, hforest, -⟩ := harena.alloc data
  have hne : parent ≠ id := fun heq => hfresh (heq ▸ hparent)
  have htop : arena.forest.Live root := by
    obtain ⟨roots, hstores, hroot⟩ := harena.exists_stores
    exact hstores.live_iff.mpr ((map_id_sublist_ids roots).subset hroot)
  have hlive : allocated.forest.Live parent := by
    obtain ⟨entry, hentry⟩ := hparent
    exact ⟨entry, by rw [hforest, OrderedForest.insert, if_neg hne, hentry]⟩
  have hdetached : allocated.forest.Detached id := by
    refine ⟨fun heq => hfresh (heq ▸ htop), ⟨data, none, []⟩, ?_, rfl⟩
    rw [hforest, OrderedForest.insert, if_pos rfl]
  -- Nothing has the new number for a parent yet.
  have hnot : ¬ allocated.forest.Below id parent := by
    rw [hforest]
    exact harena.not_below_of_insert hfresh data hne
  obtain ⟨next, happend, hnext, hlinked⟩ := hallocated.append hlive hdetached hnot
  refine ⟨next, id, ?_, hnext, hfresh, by rw [hlinked, hforest]⟩
  simp [Arena.push, halloc, happend]

theorem clear (hlive : arena.forest.Live id) :
    ∃ next ids, arena.clear id = .ok next ∧ next.Coherent ∧
      arena.descendants id = .ok (id :: ids) ∧ (id :: ids).Nodup ∧
      (∀ other, other ∈ id :: ids ↔ arena.forest.Below id other) ∧
      next.forest =
        (arena.forest.modify id fun entry => { entry with children := [] }).without ids ∧
      next.free.Perm (ids ++ arena.free) ∧ next.size + ids.length = arena.size := by
  obtain ⟨roots, hstores, hroot⟩ := harena.exists_stores
  obtain ⟨place, before, tree, after, rfl, rfl⟩ :=
    Place.exists_plug_of_mem (hstores.live_iff.mp hlive)
  have hids : NumberedForest.ids [tree] = tree.id :: tree.children.ids := by
    rw [ids_cons_eq, ids_nil, List.append_nil]
  have hdescendants := hids ▸ hstores.descendants
  have hbelow : ∀ other, other ∈ tree.id :: tree.children.ids ↔
      arena.forest.Below tree.id other := fun other => hids ▸ hstores.below_iff.symm
  have hdistinct : (tree.id :: tree.children.ids).Nodup := by
    have hdistinct := hstores.nodup_ids_siblings
    rw [← List.singleton_append (x := tree), ids_append, ids_append, hids] at hdistinct
    exact hdistinct.of_append_right.of_append_left
  rw [← Place.plug_frame] at hstores hroot
  obtain ⟨next, hok, hnext⟩ := hstores.clear
  have houtside := Place.ids_plug (tree.frame before after :: place) []
  rw [ids_nil, List.nil_append] at houtside
  have hperm := (Place.ids_plug (tree.frame before after :: place) tree.children).trans
    (houtside.symm.append_left _)
  refine ⟨next, _, hok, hnext.coherent ?_, hdescendants, hdistinct, hbelow,
    hstores.forest_clear hnext, hstores.free_perm hnext (slots_clear hok) hperm⟩
  rwa [map_id_plug _ _ _ tree.children]

/-! ## Moving children -/

theorem ne_root_of_parent (hparent : arena.forest.Parent parent id) : id ≠ root := by
  rintro rfl
  obtain ⟨entry, hentry, hparent⟩ := hparent
  obtain ⟨cell, hcell, hnone⟩ := harena.top
  rw [Arena.forest, hcell] at hentry
  split at hentry
  next heq _ =>
    obtain rfl := Option.some.inj heq
    obtain rfl := Option.some.inj hentry
    cases hnone.symm.trans hparent
  next => cases hentry

/-- One child of a node is moved behind the children of another. -/
theorem moveChild {source target : Nat} (hchild : arena.forest.Parent source child)
    (htarget : arena.forest.Live target) (hnot : ¬ arena.forest.Below source target) :
    ∃ next, (arena.detach child >>= fun arena => arena.append target child) = .ok next ∧
      next.Coherent ∧
      next.forest = (arena.forest.unlink child).link target child (· ++ [child]) := by
  have hroot := harena.ne_root_of_parent hchild
  have hlive : arena.forest.Live child := hchild.imp fun _ => And.left
  obtain ⟨detached, hdetach, hdetached, hforest, -⟩ := harena.detach hlive hroot
  have hbelow : ¬ detached.forest.Below child target := by
    rw [hforest]
    exact fun hbelow => hnot (.head hchild hbelow.of_unlink)
  obtain ⟨next, happend, hnext, hlinked⟩ := hdetached.append
    (by rwa [hforest, OrderedForest.live_unlink])
    (hforest ▸ OrderedForest.detached_unlink hchild hroot) hbelow
  exact ⟨next, by rw [hdetach, ok_bind, happend], hnext, by rw [hlinked, hforest]⟩

theorem moveChildren {source target : Nat} (hsource : arena.forest.Live source)
    (htarget : arena.forest.Live target) (hnot : ¬ arena.forest.Below source target) :
    ∃ next, arena.moveChildren source target = .ok next ∧ next.Coherent ∧
      next.forest = arena.forest.moveChildren source target := by
  obtain ⟨entry, hentry⟩ := hsource
  have hne : source ≠ target := fun heq => hnot (heq ▸ .refl)
  rw [Arena.moveChildren, children_of_forest hentry, ok_bind]
  -- The invariant: the children that are left are those still to be moved, and the target is
  -- not below the source.
  generalize hleft : entry.children = left
  induction left generalizing arena entry with
  | nil => exact ⟨arena, rfl, harena, (OrderedForest.moveChildren_of_nil hentry hleft).symm⟩
  | cons child rest ih =>
      obtain ⟨roots, hstores, -⟩ := harena.exists_stores
      obtain ⟨hother, hchild⟩ :=
        (hstores.children_spec hentry).2 child (hleft ▸ List.mem_cons_self)
      have htarget' : child ≠ target := fun heq => hnot (heq ▸ .single hchild)
      obtain ⟨moved, hmove, hmoved, hforest⟩ := harena.moveChild hchild htarget hnot
      have hbelow : ¬ moved.forest.Below source target := by
        rw [hforest]
        exact fun hbelow => hnot (hbelow.of_link fun hbelow => hnot hbelow.of_unlink).of_unlink
      have hsource : moved.forest source = some { entry with children := rest } := by
        rw [hforest]
        exact OrderedForest.link_unlink_source hentry hleft hchild hne hother
      obtain ⟨next, hok, hnext, hrest⟩ :=
        ih hmoved (by simpa [hforest] using htarget) hbelow _ hsource rfl
      refine ⟨next, ?_, hnext, ?_⟩
      · rw [List.foldlM_cons, hmove, ok_bind, hok]
      · rw [hrest, hforest]
        exact OrderedForest.moveChildren_of_cons hentry hleft hchild hne hother htarget'

end Coherent

end Arena

end PageMarkup
