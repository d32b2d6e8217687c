import PageMarkup.Proofs.Arena.Listing

/-! # Taking nodes out of the list of entries

Where nodes are taken out of an ordered forest, their entries go, and the entries that are left
lose the children that are gone. So if some siblings that stand side by side go with what is
below them, the children of their parent are fewer, and every other entry stays as it is.
-/

namespace PageMarkup

open NumberedForest

/-- The entry of a node that keeps those of its children that are not among some numbers. -/
def Entry.prune (removed : List Nat) (entry : Entry) : Entry :=
  { entry with children := entry.children.filter (· ∉ removed) }

/-- What is told of a tree that stands under a parent. -/
def NumberedTree.entry (parent : Option Nat) (tree : NumberedTree) : Entry :=
  ⟨tree.data, parent, tree.children.map NumberedTree.id⟩

namespace NumberedForest

/-! ## Entries -/

/-- The entries that are left where some nodes are taken out, also out of the lists of
children. -/
def sift (removed : List Nat) (entries : List (Nat × Entry)) : List (Nat × Entry) :=
  (entries.filter fun found => found.1 ∉ removed).map (Prod.map id (Entry.prune removed))

variable {removed : List Nat} {first second : List (Nat × Entry)} {forest : NumberedForest}

theorem sift_append :
    sift removed (first ++ second) = sift removed first ++ sift removed second := by
  rw [sift, List.filter_append, List.map_append, sift, sift]

theorem sift_of_forall (hfst : ∀ found ∈ first, found.1 ∉ removed)
    (hchildren : ∀ found ∈ first, ∀ child ∈ found.2.children, child ∉ removed) :
    sift removed first = first := by
  rw [sift, List.filter_eq_self.mpr fun found hfound => decide_eq_true (hfst found hfound)]
  refine (List.map_congr_left fun found hfound => ?_).trans (List.map_id first)
  have hkept : found.2.children.filter (· ∉ removed) = found.2.children :=
    List.filter_eq_self.mpr fun child hchild => decide_eq_true (hchildren found hfound child hchild)
  rw [Prod.map_apply', Entry.prune, hkept]
  rfl

theorem mem_ids_of_mem_entries {parent : Option Nat} {found : Nat × Entry}
    (hfound : found ∈ forest.entries parent) : found.1 ∈ forest.ids := by
  rw [← map_fst_entries parent]
  exact List.mem_map_of_mem hfound

theorem sift_entries_of_apart (hapart : ∀ id ∈ forest.ids, id ∉ removed) (parent : Option Nat) :
    sift removed (forest.entries parent) = forest.entries parent :=
  sift_of_forall (fun _ hfound => hapart _ (mem_ids_of_mem_entries hfound))
    fun _ hfound child hchild => hapart child (children_mem_ids hfound child hchild)

theorem sift_entries_of_subset (hsubset : forest.ids ⊆ removed) (parent : Option Nat) :
    sift removed (forest.entries parent) = [] := by
  rw [sift, List.map_eq_nil_iff, List.filter_eq_nil_iff]
  intro found hfound
  simpa using hsubset (mem_ids_of_mem_entries hfound)

theorem sift_place {place : Place} (hapart : ∀ id ∈ place.ids, id ∉ removed) (siblings : List Nat) :
    sift removed (place.entries siblings) = place.entries (siblings.filter (· ∉ removed)) := by
  induction place generalizing siblings with
  | nil => rfl
  | cons frame place ih =>
      simp only [Place.ids, List.forall_mem_cons, List.forall_mem_append] at hapart
      obtain ⟨hframe, ⟨hbefore, hafter⟩, hplace⟩ := hapart
      have hbeside : (frame.before.map NumberedTree.id ++
          frame.id :: frame.after.map NumberedTree.id).filter (· ∉ removed) =
          frame.before.map NumberedTree.id ++ frame.id :: frame.after.map NumberedTree.id := by
        refine List.filter_eq_self.mpr fun id hid => decide_eq_true ?_
        rw [List.mem_append, List.mem_cons] at hid
        rcases hid with hid | rfl | hid
        · exact hbefore id ((map_id_sublist_ids _).subset hid)
        · exact hframe
        · exact hafter id ((map_id_sublist_ids _).subset hid)
      have hhead : sift removed [(frame.id, ⟨frame.data, Place.parent place, siblings⟩)] =
          [(frame.id, ⟨frame.data, Place.parent place, siblings.filter (· ∉ removed)⟩)] := by
        rw [sift, List.filter_cons_of_pos (by simpa using hframe)]
        rfl
      rw [Place.entries_cons, ← List.singleton_append, sift_append, hhead, Place.around,
        sift_append, sift_append, sift_entries_of_apart hbefore, sift_entries_of_apart hafter,
        ih hplace, hbeside]
      rfl

end NumberedForest

namespace OrderedForest

variable {forest : OrderedForest} {place : Place} {before gone after siblings : NumberedForest}
  {tree : NumberedTree} {id : Nat}

/-- Takes some nodes out, also out of the lists of children. -/
def prune (forest : OrderedForest) (removed : List Nat) : OrderedForest :=
  fun id => if id ∈ removed then none else (forest id).map (Entry.prune removed)

/-- What is told of a tree at a place. -/
theorem Lists.eq_entry
    (hlists : forest.Lists ((place.plug (before ++ tree :: after)).entries none)) :
    forest tree.id = some (tree.entry (Place.parent place)) := by
  rw [hlists.eq_some_iff]
  apply Arena.Stores.mem_entries_plug
  rw [entries_cons]
  exact List.mem_cons_self

theorem Lists.prune {entries : List (Nat × Entry)} (hlists : forest.Lists entries)
    (removed : List Nat) : (forest.prune removed).Lists (sift removed entries) where
  distinct := by
    rw [sift, List.map_map]
    exact hlists.distinct.sublist (List.filter_sublist.map Prod.fst)
  eq_some_iff other found := by
    have hentry := hlists.eq_some_iff other
    rw [OrderedForest.prune, sift]
    split
    next hmem => simp [hmem]
    next hnot => simp [hnot, hentry]

theorem prune_prune (first second : List Nat) :
    (forest.prune first).prune second = forest.prune (first ++ second) := by
  funext id
  simp only [prune, List.mem_append]
  by_cases hfirst : id ∈ first
  · simp [hfirst]
  · by_cases hsecond : id ∈ second
    · simp [hsecond]
    · simp only [hfirst, hsecond, or_self, if_false, Option.map_map]
      refine congrArg (Option.map · (forest id)) (funext fun entry => ?_)
      simp only [Function.comp_apply, Entry.prune, List.filter_filter]
      refine congrArg (Entry.mk _ _) (List.filter_congr fun child _ => ?_)
      grind

/-- Some siblings that stand side by side are taken out with what is below them. -/
theorem Lists.prune_block
    (hlists : forest.Lists ((place.plug (before ++ (gone ++ after))).entries none)) :
    (forest.prune gone.ids).Lists ((place.plug (before ++ after)).entries none) := by
  have hdistinct : ((place.plug (before ++ (gone ++ after))).ids).Nodup := by
    rw [← map_fst_entries none]
    exact hlists.distinct
  rw [(Place.ids_plug _ _).nodup_iff] at hdistinct
  simp only [ids_append, List.nodup_append, List.mem_append] at hdistinct
  obtain ⟨⟨-, ⟨-, -, hafter⟩, hbefore⟩, -, hplace⟩ := hdistinct
  have hgone : ∀ {id}, id ∈ gone.ids → id ∉ before.ids ∧ id ∉ after.ids ∧ id ∉ place.ids :=
    fun {id} hid => ⟨fun hmem => hbefore id hmem id (.inl hid) rfl,
      fun hmem => hafter id hid id hmem rfl, fun hmem => hplace id (.inr (.inl hid)) id hmem rfl⟩
  have hkept : ((before ++ (gone ++ after)).map NumberedTree.id).filter (· ∉ gone.ids) =
      (before ++ after).map NumberedTree.id := by
    have hin : (gone.map NumberedTree.id).filter (· ∉ gone.ids) = [] :=
      List.filter_eq_nil_iff.mpr fun id hid => by
        simpa using (map_id_sublist_ids gone).subset hid
    have hout : ∀ {others : NumberedForest}, (∀ id ∈ others.ids, id ∉ gone.ids) →
        (others.map NumberedTree.id).filter (· ∉ gone.ids) = others.map NumberedTree.id :=
      fun hothers => List.filter_eq_self.mpr fun id hid =>
        decide_eq_true (hothers id ((map_id_sublist_ids _).subset hid))
    rw [List.map_append, List.map_append, List.filter_append, List.filter_append, hin,
      hout fun id hid hmem => (hgone hmem).1 hid, hout fun id hid hmem => (hgone hmem).2.1 hid,
      List.nil_append, List.map_append]
  have hsifted := (hlists.perm (Place.entries_plug ..)).prune gone.ids
  rw [entries_append, entries_append, sift_append, sift_append, sift_append,
    sift_entries_of_apart fun id hid hmem => (hgone hmem).1 hid,
    sift_entries_of_subset (List.Subset.refl _),
    sift_entries_of_apart fun id hid hmem => (hgone hmem).2.1 hid,
    sift_place fun id hid hmem => (hgone hmem).2.2 hid, hkept, List.nil_append,
    ← entries_append] at hsifted
  exact hsifted.perm (Place.entries_plug ..).symm

end OrderedForest

end PageMarkup
