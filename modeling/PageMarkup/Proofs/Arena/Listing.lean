import PageMarkup.Proofs.Arena.Coherent
import PageMarkup.Proofs.Arena.OrderedForest

/-! # The ordered forest of an arena

The abstraction function: an arena is read as an ordered forest by asking for the data, the
parent and the children of each number. What it gives of an arena that stores a numbered
forest is a list of entries, one for each node, and a change at one place of the numbered
forest is a change of few entries of that list.
-/

namespace PageMarkup

open NumberedForest Relation

/-- What an arena tells of the node of a number. -/
def Arena.forest (arena : Arena) : OrderedForest := fun id =>
  match arena.get? id, arena.children id with
  | some cell, .ok children => some ⟨cell.data, cell.parent, children⟩
  | _, _ => none

namespace NumberedForest

/-- The entries of a forest under a parent. -/
def entries (parent : Option Nat) : NumberedForest → List (Nat × Entry)
  | [] => []
  | .node id data children :: rest =>
    (id, ⟨data, parent, children.map NumberedTree.id⟩) ::
      (entries (some id) children ++ entries parent rest)

variable (parent : Option Nat)

@[simp]
theorem entries_nil : entries parent [] = [] := by rw [entries]

theorem entries_cons (tree : NumberedTree) (rest : NumberedForest) :
    entries parent (tree :: rest) =
      (tree.id, ⟨tree.data, parent, tree.children.map NumberedTree.id⟩) ::
        (entries (some tree.id) tree.children ++ entries parent rest) := by
  obtain ⟨id, data, children⟩ := tree
  rw [entries]
  rfl

theorem entries_append (first second : NumberedForest) :
    entries parent (first ++ second) = entries parent first ++ entries parent second := by
  induction first with
  | nil => simp
  | cons tree rest ih => simp [entries_cons, ih]

theorem map_fst_entries (forest : NumberedForest) :
    (forest.entries parent).map Prod.fst = forest.ids := by
  induction forest using NumberedForest.induction generalizing parent with
  | nil => simp
  | cons id data children rest ihchildren ihrest => simp [entries_cons, ihchildren, ihrest]

theorem map_id_sublist_ids (forest : NumberedForest) :
    (forest.map NumberedTree.id).Sublist forest.ids := by
  induction forest with
  | nil => simp
  | cons tree rest ih =>
      rw [List.map_cons, ids_cons_eq]
      exact (ih.trans (List.sublist_append_right _ _)).cons_cons _

theorem id_not_mem_before {before after : NumberedForest} {tree : NumberedTree}
    (hdistinct : (NumberedForest.ids (before ++ tree :: after)).Nodup) :
    tree.id ∉ before.map NumberedTree.id := by
  rw [ids_append, List.nodup_append] at hdistinct
  intro hmem
  exact hdistinct.2.2 tree.id ((map_id_sublist_ids before).subset hmem) tree.id
    (id_mem_ids List.mem_cons_self) rfl

/-- A number is taken out of those of some siblings by leaving out the tree. -/
theorem erase_map_id {before after : NumberedForest} {tree : NumberedTree}
    (hdistinct : (NumberedForest.ids (before ++ tree :: after)).Nodup) :
    ((before ++ tree :: after).map NumberedTree.id).erase tree.id =
      (before ++ after).map NumberedTree.id := by
  rw [List.map_append, List.map_cons, List.erase_append_right _ (id_not_mem_before hdistinct),
    List.erase_cons_head, List.map_append]

/-- The children in an entry have entries themselves. -/
theorem children_mem_ids {parent : Option Nat} {forest : NumberedForest} {found : Nat × Entry}
    (hmem : found ∈ forest.entries parent) : ∀ child ∈ found.2.children, child ∈ forest.ids := by
  induction forest using NumberedForest.induction generalizing parent with
  | nil => simp at hmem
  | cons id data children rest ihchildren ihrest =>
      intro child hchild
      rw [entries_cons, List.mem_cons, List.mem_append] at hmem
      rw [ids_cons, List.mem_cons, List.mem_append]
      rcases hmem with rfl | hmem | hmem
      · exact .inr (.inl ((map_id_sublist_ids children).subset hchild))
      · exact .inr (.inl (ihchildren hmem child hchild))
      · exact .inr (.inr (ihrest hmem child hchild))

end NumberedForest

namespace Place

/-- The entries around a place with the given siblings in it. -/
def entries : Place → List Nat → List (Nat × Entry)
  | [], _ => []
  | frame :: place, siblings =>
    (frame.id, ⟨frame.data, parent place, siblings⟩) ::
      (frame.before.entries (parent place) ++ frame.after.entries (parent place) ++
        entries place (frame.before.map NumberedTree.id ++
          frame.id :: frame.after.map NumberedTree.id))

/-- The entries around a place without that of the parent of the siblings. -/
def around (frame : Frame) (place : Place) : List (Nat × Entry) :=
  frame.before.entries (parent place) ++ frame.after.entries (parent place) ++
    entries place (frame.before.map NumberedTree.id ++
      frame.id :: frame.after.map NumberedTree.id)

theorem entries_cons (frame : Frame) (place : Place) (siblings : List Nat) :
    entries (frame :: place) siblings =
      (frame.id, ⟨frame.data, parent place, siblings⟩) :: around frame place := rfl

theorem entries_plug (place : Place) (siblings : NumberedForest) :
    ((place.plug siblings).entries none).Perm
      (siblings.entries (parent place) ++ place.entries (siblings.map NumberedTree.id)) := by
  induction place generalizing siblings with
  | nil => simp [entries, Place.parent]
  | cons frame place ih =>
      rw [plug_cons]
      refine (ih _).trans ?_
      rw [List.perm_iff_count]
      intro entry
      simp only [entries_cons, around, NumberedForest.entries_cons, entries_append, parent_cons,
        NumberedTree.id_node, NumberedTree.data_node, NumberedTree.children_node, List.map_append,
        List.map_cons, List.count_append, List.count_cons]
      omega

end Place

namespace OrderedForest

/-- The entries of the forest, each of them once. -/
structure Lists (forest : OrderedForest) (entries : List (Nat × Entry)) : Prop where
  distinct : (entries.map Prod.fst).Nodup
  eq_some_iff : ∀ id entry, forest id = some entry ↔ (id, entry) ∈ entries

namespace Lists

variable {forest other : OrderedForest} {first second rest : List (Nat × Entry)} {id : Nat}
  {entry : Entry}

theorem perm (hlists : forest.Lists first) (hperm : first.Perm second) : forest.Lists second where
  distinct := (hperm.map Prod.fst).nodup_iff.mp hlists.distinct
  eq_some_iff id entry := (hlists.eq_some_iff id entry).trans hperm.mem_iff

/-- A forest is known by its entries. -/
theorem unique (hforest : forest.Lists first) (hother : other.Lists first) : forest = other := by
  funext id
  ext entry
  rw [hforest.eq_some_iff, hother.eq_some_iff]

theorem modify (hlists : forest.Lists ((id, entry) :: rest)) (f : Entry → Entry) :
    (forest.modify id f).Lists ((id, f entry) :: rest) where
  distinct := hlists.distinct
  eq_some_iff other found := by
    have hother := hlists.eq_some_iff other found
    have hid : id ∉ rest.map Prod.fst := (List.nodup_cons.mp hlists.distinct).1
    have hsome : forest id = some entry := (hlists.eq_some_iff id entry).mpr List.mem_cons_self
    rw [modify_apply]
    split
    next heq =>
      subst heq
      rw [hsome]
      grind
    next hne => grind

theorem insert (hlists : forest.Lists rest) (hfresh : id ∉ rest.map Prod.fst) (data : Node) :
    (forest.insert id data).Lists ((id, ⟨data, none, []⟩) :: rest) where
  distinct := List.nodup_cons.mpr ⟨hfresh, hlists.distinct⟩
  eq_some_iff other found := by
    have hother := hlists.eq_some_iff other found
    rw [OrderedForest.insert]
    split
    next heq =>
      subst heq
      grind
    next hne => grind

theorem without (hlists : forest.Lists (first ++ second)) :
    (forest.without (first.map Prod.fst)).Lists second where
  distinct := by
    have hdistinct := hlists.distinct
    rw [List.map_append] at hdistinct
    exact hdistinct.of_append_right
  eq_some_iff other found := by
    have hother := hlists.eq_some_iff other found
    have hdistinct := hlists.distinct
    rw [List.map_append, List.nodup_append] at hdistinct
    rw [OrderedForest.without]
    split
    next hmem => grind
    next hnot => grind

end Lists

/-- What a forest numbers is below the node that it is told to stand under. -/
theorem below_of_mem {forest : OrderedForest} {siblings : NumberedForest} {above id : Nat}
    (htold : ∀ found ∈ siblings.entries (some above), forest found.1 = some found.2)
    (hmem : id ∈ siblings.ids) : forest.Below above id := by
  induction siblings using NumberedForest.induction generalizing above with
  | nil => simp at hmem
  | cons other data children rest ihchildren ihrest =>
      rw [NumberedForest.entries_cons, List.forall_mem_cons, List.forall_mem_append] at htold
      obtain ⟨hother, hchildren, hrest⟩ := htold
      rw [ids_cons, List.mem_cons, List.mem_append] at hmem
      have hparent : forest.Parent above other := ⟨_, hother, rfl⟩
      rcases hmem with rfl | hmem | hmem
      · exact .single hparent
      · exact .head hparent (ihchildren hchildren hmem)
      · exact ihrest hrest hmem

end OrderedForest

namespace Arena

variable {arena next : Arena} {roots siblings before after : NumberedForest}
  {tree : NumberedTree} {frame : Frame} {place : Place} {id above : Nat}

namespace Stores

theorem nodup_ids_siblings (hstores : Stores arena (place.plug siblings)) : siblings.ids.Nodup :=
  hstores.distinct.sublist (Place.ids_sublist_plug place siblings)

/-- What is told of a tree at a place. -/
theorem forest_tree (hstores : Stores arena (place.plug (before ++ tree :: after))) :
    arena.forest tree.id =
      some ⟨tree.data, Place.parent place, tree.children.map NumberedTree.id⟩ := by
  rw [Arena.forest, get?_sibling hstores.linked, hstores.children_of]

theorem mem_entries_plug {entry : Nat × Entry}
    (hmem : entry ∈ NumberedForest.entries (Place.parent place) [tree]) :
    entry ∈ (place.plug (before ++ tree :: after)).entries none := by
  rw [(Place.entries_plug ..).mem_iff, ← List.singleton_append, entries_append, entries_append]
  simp [hmem]

theorem mem_ids_of_forest {entry : Entry} (hstores : Stores arena roots)
    (hentry : arena.forest id = some entry) : id ∈ roots.ids := by
  rw [Arena.forest] at hentry
  split at hentry
  next hcell _ => exact hstores.live id _ hcell
  next => cases hentry

/-- An entry is that of the tree that has the number. -/
theorem exists_tree {entry : Entry} (hstores : Stores arena roots)
    (hentry : arena.forest id = some entry) :
    ∃ (place : Place) (before : NumberedForest) (tree : NumberedTree) (after : NumberedForest),
      roots = place.plug (before ++ tree :: after) ∧ tree.id = id ∧
        entry = ⟨tree.data, Place.parent place, tree.children.map NumberedTree.id⟩ := by
  obtain ⟨place, before, tree, after, rfl, rfl⟩ :=
    Place.exists_plug_of_mem (hstores.mem_ids_of_forest hentry)
  have htree := hstores.forest_tree
  exact ⟨place, before, tree, after, rfl, rfl, Option.some.inj (hentry.symm.trans htree)⟩

/-- An arena tells the entries of the forest that it stores. -/
theorem lists (hstores : Stores arena roots) : arena.forest.Lists (roots.entries none) where
  distinct := by
    rw [map_fst_entries]
    exact hstores.distinct
  eq_some_iff id entry := by
    have hlisted : ∀ {place : Place} {before after : NumberedForest} {tree : NumberedTree},
        (tree.id, ⟨tree.data, Place.parent place, tree.children.map NumberedTree.id⟩) ∈
          (place.plug (before ++ tree :: after)).entries none := by
      intro place before after tree
      apply mem_entries_plug
      rw [NumberedForest.entries_cons]
      exact List.mem_cons_self
    constructor
    · intro hentry
      obtain ⟨place, before, tree, after, rfl, rfl, rfl⟩ := hstores.exists_tree hentry
      exact hlisted
    · intro hmem
      have hlive : id ∈ roots.ids := by
        rw [← map_fst_entries none]
        exact List.mem_map_of_mem hmem
      obtain ⟨place, before, tree, after, rfl, rfl⟩ := Place.exists_plug_of_mem hlive
      -- Two entries of one number are the same, since no number occurs twice.
      have hdistinct : (((place.plug (before ++ tree :: after)).entries none).map Prod.fst).Nodup := by
        rw [map_fst_entries]
        exact hstores.distinct
      rw [hstores.forest_tree, (Prod.mk.inj (List.inj_on_of_nodup_map hdistinct hlisted hmem rfl)).2]

theorem live_iff (hstores : Stores arena roots) : arena.forest.Live id ↔ id ∈ roots.ids := by
  constructor
  · rintro ⟨entry, hentry⟩
    exact hstores.mem_ids_of_forest hentry
  · intro hmem
    obtain ⟨place, before, tree, after, rfl, rfl⟩ := Place.exists_plug_of_mem hmem
    exact ⟨_, hstores.forest_tree⟩

/-! ## Changes at a place -/

/-- The entries of a root and of a node elsewhere with some children. -/
theorem lists_apart (hstores : Stores arena (tree :: Place.plug (frame :: place) siblings)) :
    arena.forest.Lists
      ((frame.id, ⟨frame.data, Place.parent place, siblings.map NumberedTree.id⟩) ::
        (tree.id, ⟨tree.data, none, tree.children.map NumberedTree.id⟩) ::
          (siblings.entries (some frame.id) ++
            (tree.children.entries (some tree.id) ++ Place.around frame place))) := by
  refine hstores.lists.perm ?_
  rw [NumberedForest.entries_cons]
  refine (((Place.entries_plug ..).append_left _).cons _).trans ?_
  rw [Place.entries_cons, Place.parent_cons, List.perm_iff_count]
  intro entry
  simp only [List.count_cons, List.count_append]
  omega

/-- The entries of a node and of one of its children. -/
theorem lists_together
    (hstores : Stores arena (Place.plug (frame :: place) (before ++ tree :: after))) :
    arena.forest.Lists
      ((frame.id, ⟨frame.data, Place.parent place, (before ++ tree :: after).map NumberedTree.id⟩) ::
        (tree.id, ⟨tree.data, some frame.id, tree.children.map NumberedTree.id⟩) ::
          (NumberedForest.entries (some frame.id) (before ++ after) ++
            (tree.children.entries (some tree.id) ++ Place.around frame place))) := by
  refine hstores.lists.perm ((Place.entries_plug ..).trans ?_)
  rw [Place.entries_cons, Place.parent_cons, entries_append, entries_append,
    NumberedForest.entries_cons, List.perm_iff_count]
  intro entry
  simp only [List.count_cons, List.count_append]
  omega

/-- A root put among some siblings is linked to their parent. -/
theorem forest_attach
    (hstores : Stores arena (tree :: Place.plug (frame :: place) (before ++ after)))
    (hnext : Stores next (Place.plug (frame :: place) (before ++ tree :: after)))
    {arrange : List Nat → List Nat}
    (harrange : arrange ((before ++ after).map NumberedTree.id) =
      (before ++ tree :: after).map NumberedTree.id) :
    next.forest = arena.forest.link frame.id tree.id arrange := by
  have hparent := hstores.lists_apart.modify fun entry =>
    { entry with children := arrange entry.children }
  have hlinked := (hparent.perm (.swap ..)).modify fun entry =>
    { entry with parent := some frame.id }
  simp only [harrange] at hlinked
  exact (hnext.lists_together.perm (.swap ..)).unique hlinked

/-- A node taken out from among its siblings is unlinked. -/
theorem forest_detach
    (hstores : Stores arena (Place.plug (frame :: place) (before ++ tree :: after)))
    (hnext : Stores next (tree :: Place.plug (frame :: place) (before ++ after))) :
    next.forest = arena.forest.unlink tree.id := by
  have hparent := hstores.lists_together.modify fun entry =>
    { entry with children := entry.children.erase tree.id }
  have hunlinked := (hparent.perm (.swap ..)).modify fun entry => { entry with parent := none }
  simp only [erase_map_id hstores.nodup_ids_siblings] at hunlinked
  rw [OrderedForest.unlink_of_parent ⟨_, hstores.forest_tree, rfl⟩]
  exact (hnext.lists_apart.perm (.swap ..)).unique hunlinked

/-- A released root is dropped with what is below it. -/
theorem forest_release (hstores : Stores arena (tree :: roots)) (hnext : Stores next roots) :
    next.forest = arena.forest.without (NumberedForest.ids [tree]) := by
  have hlists := hstores.lists
  rw [← List.singleton_append, entries_append] at hlists
  rw [← map_fst_entries none]
  exact hnext.lists.unique hlists.without

theorem forest_alloc {data : Node} (hstores : Stores arena roots)
    (hnext : Stores next (.node id data [] :: roots)) :
    next.forest = arena.forest.insert id data := by
  have hfresh : id ∉ (roots.entries none).map Prod.fst := by
    rw [map_fst_entries]
    have hdistinct := hnext.distinct
    rw [ids_cons, ids_nil, List.nil_append] at hdistinct
    exact (List.nodup_cons.mp hdistinct).1
  have hlists := hnext.lists
  rw [NumberedForest.entries_cons, NumberedTree.children_node, entries_nil] at hlists
  exact hlists.unique (hstores.lists.insert hfresh data)

/-- The children of a node are dropped with what is below them. -/
theorem forest_clear (hstores : Stores arena (Place.plug (frame :: place) siblings))
    (hnext : Stores next (Place.plug (frame :: place) [])) :
    next.forest =
      (arena.forest.modify frame.id fun entry => { entry with children := [] }).without
        siblings.ids := by
  have hbefore := hstores.lists.perm ((Place.entries_plug ..).trans List.perm_append_comm)
  have hafter := hnext.lists.perm (Place.entries_plug ..)
  rw [Place.entries_cons] at hbefore hafter
  rw [List.cons_append] at hbefore
  rw [entries_nil, List.nil_append] at hafter
  rw [← map_fst_entries (Place.parent (frame :: place))]
  have hcleared := hbefore.modify fun entry => { entry with children := [] }
  rw [← List.cons_append] at hcleared
  exact hafter.unique (hcleared.perm List.perm_append_comm).without

/-! ## What is below a node -/

/-- A child is among the children of its parent. -/
theorem exists_children (hstores : Stores arena roots) (hparent : arena.forest.Parent above id) :
    ∃ entry, arena.forest above = some entry ∧ id ∈ entry.children := by
  obtain ⟨entry, hentry, hparent⟩ := hparent
  obtain ⟨place, before, tree, after, rfl, rfl, rfl⟩ := hstores.exists_tree hentry
  cases place with
  | nil => cases hparent
  | cons frame place =>
      obtain rfl : frame.id = above := Option.some.inj hparent
      rw [Place.plug_cons] at hstores
      exact ⟨_, hstores.forest_tree, by simp⟩

/-- The children of a node are different nodes that have it for a parent. -/
theorem children_spec {entry : Entry} (hstores : Stores arena roots)
    (hentry : arena.forest id = some entry) :
    entry.children.Nodup ∧ ∀ child ∈ entry.children, child ≠ id ∧ arena.forest.Parent id child := by
  obtain ⟨place, before, tree, after, rfl, rfl, rfl⟩ := hstores.exists_tree hentry
  have hdistinct := hstores.nodup_ids_siblings
  rw [ids_append, ids_cons_eq] at hdistinct
  obtain ⟨hid, hdistinct⟩ := List.nodup_cons.mp hdistinct.of_append_right
  refine ⟨hdistinct.of_append_left.sublist (map_id_sublist_ids _), fun child hchild => ?_⟩
  obtain ⟨below, hbelow, rfl⟩ := List.mem_map.mp hchild
  refine ⟨fun heq => hid (List.mem_append_left _ (heq ▸ id_mem_ids hbelow)), ?_⟩
  obtain ⟨first, second, hsplit⟩ := List.append_of_mem hbelow
  rw [← Place.plug_frame, hsplit] at hstores
  exact ⟨_, hstores.forest_tree, rfl⟩

theorem parent_of_mem (hstores : Stores arena roots) :
    ∀ above entry, arena.forest above = some entry → ∀ child ∈ entry.children,
      arena.forest.Parent above child :=
  fun _ _ hentry child hchild => ((hstores.children_spec hentry).2 child hchild).2

/-- A tree at a place holds what is below its root. -/
theorem below_iff (hstores : Stores arena (place.plug (before ++ tree :: after))) :
    arena.forest.Below tree.id id ↔ id ∈ NumberedForest.ids [tree] := by
  have htold : ∀ found ∈ NumberedForest.entries (Place.parent place) [tree],
      arena.forest found.1 = some found.2 := fun found hfound =>
    (hstores.lists.eq_some_iff _ _).mpr (mem_entries_plug hfound)
  constructor
  · intro hbelow
    -- Down from the root of the tree, a child of one of its nodes is among the children that
    -- are told of that node, and these are in the tree.
    induction hbelow with
    | refl => simp [ids_cons_eq]
    | tail _ hparent ih =>
        obtain ⟨entry, hentry, hchild⟩ := hstores.exists_children hparent
        rw [← map_fst_entries (Place.parent place)] at ih
        obtain ⟨found, hfound, rfl⟩ := List.mem_map.mp ih
        obtain rfl : found.2 = entry := Option.some.inj ((htold found hfound).symm.trans hentry)
        exact children_mem_ids hfound _ hchild
  · intro hmem
    rw [ids_cons_eq, ids_nil, List.append_nil] at hmem
    rcases List.mem_cons.mp hmem with rfl | hmem
    · exact .refl
    · refine OrderedForest.below_of_mem (fun found hfound => htold found ?_) hmem
      rw [NumberedForest.entries_cons]
      exact List.mem_cons_of_mem _ (List.mem_append_left _ hfound)

end Stores

end Arena

end PageMarkup
