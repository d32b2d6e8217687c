import PageMarkup.Proofs.Arena.Checking
import PageMarkup.Proofs.Arena.Visiting
import PageMarkup.Proofs.Tree.Removal

/-! # Taking out a node and what it empties

A node is taken out, and every ancestor that has nothing left goes after it. Seen from the
place of the node this is a walk to the root that stops at the first ancestor that stays.
The first tree that satisfies a predicate is taken out of a forest just so.
-/

namespace PageMarkup

open NumberedForest

namespace NumberedForest

/-- The children of a node after one of them was taken out. -/
def settle (children : NumberedForest) (data : Node) : NumberedForest :=
  if data.kind = .paragraph then children.trimEdges else children

theorem erase_settle (children : NumberedForest) (data : Node) :
    (settle children data).erase = Forest.settle data children.erase := by
  unfold settle Forest.settle
  split
  next => exact erase_trimEdges children
  next => rfl

end NumberedForest

namespace Place

/-- What is left when some siblings are what is left at a place after one of them was taken
out, and the nodes around them that went as well, innermost first. -/
def close : Place → NumberedForest → NumberedForest × List Node
  | [], siblings => (siblings, [])
  | frame :: place, siblings =>
    if Forest.goesWhenEmpty frame.data ∧ siblings.settle frame.data = [] then
      let (rest, emptied) := close place (frame.before ++ frame.after)
      (rest, frame.data :: emptied)
    else (plug (frame :: place) (siblings.settle frame.data), [])

/-- The path from the roots to the siblings at a place. -/
def path : Place → List Nat
  | [] => []
  | frame :: place => path place ++ [frame.before.length]

variable {frame : Frame} {place : Place} {siblings : NumberedForest}

theorem close_of_emptied (hgoes : Forest.goesWhenEmpty frame.data = true)
    (hempty : siblings.settle frame.data = []) :
    close (frame :: place) siblings =
      ((close place (frame.before ++ frame.after)).1,
        frame.data :: (close place (frame.before ++ frame.after)).2) :=
  if_pos ⟨hgoes, hempty⟩

theorem close_of_kept (hkept : ¬ (Forest.goesWhenEmpty frame.data = true ∧
      siblings.settle frame.data = [])) :
    close (frame :: place) siblings = (plug (frame :: place) (siblings.settle frame.data), []) :=
  if_neg hkept

end Place

/-! ## Along a path -/

namespace Removal

/-- What taking a tree out of the children of a node does to the siblings of the node. -/
def around (before after : Forest) (data : Node) (inner : Removal) : Removal :=
  if inner.cut then
    if Forest.goesWhenEmpty data = true ∧ Forest.settle data inner.rest = [] then
      { inner with rest := before ++ after, emptied := inner.emptied ++ [data] }
    else
      { inner with
        rest := before ++ .node data (Forest.settle data inner.rest) :: after
        cut := false }
  else { inner with rest := before ++ .node data inner.rest :: after }

end Removal

namespace Place

/-- What taking a tree out at a place does to what is around the place. -/
def lift (place : Place) (inner : Removal) : Removal :=
  place.foldl (fun inner frame => inner.around frame.before.erase frame.after.erase frame.data) inner

theorem lift_cons (frame : Frame) (place : Place) (inner : Removal) :
    lift (frame :: place) inner =
      lift place (inner.around frame.before.erase frame.after.erase frame.data) := rfl

/-- Taking a tree out along a path through a place. -/
theorem removeAt_path (place : Place) {path : List Nat} (hpath : path ≠ [])
    (forest : NumberedForest) :
    Forest.removeAt (place.path ++ path) (place.plug forest).erase =
      place.lift (Forest.removeAt path forest.erase) := by
  induction place generalizing path forest with
  | nil => rfl
  | cons frame place ih =>
      rw [Place.path, List.append_assoc, plug_cons, ih (by simp), lift_cons, erase_append,
        erase_cons, ← length_erase frame.before]
      exact congrArg (lift place) (Forest.removeAt_deeper hpath _ _ _)

theorem lift_of_uncut (place : Place) (siblings : NumberedForest) (removed : Option Node)
    (emptied : List Node) :
    place.lift ⟨siblings.erase, removed, emptied, false⟩ =
      ⟨(place.plug siblings).erase, removed, emptied, false⟩ := by
  induction place generalizing siblings with
  | nil => rfl
  | cons frame place ih =>
      rw [lift_cons, plug_cons, ← ih, erase_append, erase_cons]
      rfl

theorem lift_of_cut (place : Place) (siblings : NumberedForest) (removed : Option Node)
    (emptied : List Node) :
    ∃ cut, place.lift ⟨siblings.erase, removed, emptied, true⟩ =
      ⟨(place.close siblings).1.erase, removed, emptied ++ (place.close siblings).2, cut⟩ := by
  induction place generalizing siblings emptied with
  | nil => exact ⟨true, by simp [lift, close]⟩
  | cons frame place ih =>
      rw [lift_cons, Removal.around, if_pos rfl]
      by_cases hgoes : Forest.goesWhenEmpty frame.data = true ∧ siblings.settle frame.data = []
      · obtain ⟨cut, hlift⟩ := ih (frame.before ++ frame.after) (emptied ++ [frame.data])
        rw [if_pos (by rw [← erase_settle, hgoes.2]; exact ⟨hgoes.1, erase_nil⟩),
          close_of_emptied hgoes.1 hgoes.2]
        exact ⟨cut, by simpa using hlift⟩
      · rw [if_neg (by rwa [← erase_settle, erase_eq_nil]), close_of_kept hgoes]
        refine ⟨false, ?_⟩
        have huncut := lift_of_uncut place
          (frame.before ++ .node frame.id frame.data (siblings.settle frame.data) :: frame.after)
          removed emptied
        rw [erase_append, erase_cons, erase_settle] at huncut
        rw [List.append_nil, plug_cons]
        exact huncut

end Place

/-! ## The first tree that satisfies a predicate -/

namespace Place

variable {p : Tree → Bool}

/-- The search for a tree that satisfies a predicate gets to a place: nothing before the
place satisfies the predicate, nor does a node around it that is not empty. -/
def Reached (p : Tree → Bool) (place : Place) : Prop :=
  ∀ frame ∈ place, Forest.Lacks p frame.before.erase ∧
    ∀ children, children ≠ [] → p (.node frame.data children) = false

theorem Reached.findPath? {place : Place} (hreached : Reached p place) {forest : NumberedForest}
    {path : List Nat} (hfind : Tree.forestFindPath? p 0 forest.erase = some path) :
    Tree.forestFindPath? p 0 (place.plug forest).erase = some (place.path ++ path) := by
  induction place generalizing forest path with
  | nil => exact hfind
  | cons frame place ih =>
      obtain ⟨⟨hbefore, hframe⟩, houter⟩ := List.forall_mem_cons.mp hreached
      have hne : forest.erase ≠ [] := fun hnil => by
        rw [hnil, Tree.forestFindPath?] at hfind
        cases hfind
      have hnode : Tree.forestFindPath? p 0
          (erase (frame.before ++ .node frame.id frame.data forest :: frame.after)) =
          some (frame.before.length :: path) := by
        rw [erase_append, Tree.forestFindPath?_append_of_lacks hbefore, erase_cons,
          Tree.forestFindPath?, Tree.findPath?, if_neg (by simp [hframe _ hne]), hfind,
          Nat.zero_add, length_erase]
      rw [plug_cons, ih houter hnode, Place.path, List.append_assoc]
      rfl

/-- The first tree that satisfies a predicate is found at its place and taken out there. -/
theorem Reached.removeAt {place : Place} (hreached : Reached p place)
    {before : NumberedForest} (hbefore : Forest.Lacks p before.erase)
    {tree : NumberedTree} (htree : p tree.erase = true) (after : NumberedForest) :
    ∃ path cut, Tree.forestFindPath? p 0 (place.plug (before ++ tree :: after)).erase = some path ∧
      Forest.removeAt path (place.plug (before ++ tree :: after)).erase =
        ⟨(place.close (before ++ after)).1.erase, some tree.data,
          (place.close (before ++ after)).2, cut⟩ := by
  have hhere : Tree.forestFindPath? p 0 (erase (before ++ tree :: after)) =
      some [before.length] := by
    rw [erase_append, Tree.forestFindPath?_append_of_lacks hbefore, erase_cons_eq,
      Tree.forestFindPath?]
    obtain ⟨id, data, children⟩ := tree
    have hfound : Tree.findPath? p (NumberedTree.node id data children).erase = some [] := by
      rw [NumberedTree.erase, Tree.findPath?]
      exact if_pos htree
    rw [hfound, Nat.zero_add, length_erase]
  have hremove : Forest.removeAt [before.length] (erase (before ++ tree :: after)) =
      ⟨erase (before ++ after), some tree.data, [], true⟩ := by
    rw [erase_append, erase_cons_eq, ← length_erase before, Forest.removeAt_here, erase_append]
    rfl
  obtain ⟨cut, hlift⟩ := place.lift_of_cut (before ++ after) (some tree.data) []
  rw [List.nil_append] at hlift
  refine ⟨_, cut, hreached.findPath? hhere, ?_⟩
  rw [removeAt_path place (by simp), hremove, hlift]

/-- Taking out the first tree that satisfies a predicate, and then others. -/
theorem Reached.removeTimes {place : Place} (hreached : Reached p place)
    {before : NumberedForest} (hbefore : Forest.Lacks p before.erase)
    {tree : NumberedTree} (htree : p tree.erase = true) (after : NumberedForest) (count : Nat) :
    ∃ removal, removal.removed = some tree.data ∧
      removal.emptied = (place.close (before ++ after)).2 ∧
      Forest.removeTimes p (count + 1) (place.plug (before ++ tree :: after)).erase =
        ((Forest.removeTimes p count (place.close (before ++ after)).1.erase).1,
          removal :: (Forest.removeTimes p count (place.close (before ++ after)).1.erase).2) := by
  obtain ⟨path, cut, hfind, hremove⟩ := hreached.removeAt hbefore htree after
  refine ⟨⟨(place.close (before ++ after)).1.erase, some tree.data, _, cut⟩, rfl, rfl, ?_⟩
  rw [Forest.removeTimes, hfind]
  dsimp only
  rw [hremove]

end Place

/-! ## In an arena -/

namespace Arena

variable {arena : Arena} {frame last : Frame} {place : Place}
  {before after siblings : NumberedForest} {tree : NumberedTree}

theorem length_le_ids_place (place : Place) : place.length ≤ place.ids.length := by
  induction place with
  | nil => simp
  | cons frame place ih =>
      simp only [Place.ids, List.length_cons, List.length_append]
      omega

theorem last_mem_place (place : Place) (last : Frame) : last.id ∈ Place.ids (place ++ [last]) := by
  induction place with
  | nil => exact List.mem_cons_self
  | cons frame place ih =>
      rw [List.cons_append, Place.ids]
      exact List.mem_cons_of_mem _ (List.mem_append_right _ ih)

namespace Stores

theorem length_place_le (hstores : Stores arena (Place.plug place siblings)) :
    place.length ≤ arena.slots.size := by
  have hle := hstores.length_ids_le
  have hplace := length_le_ids_place place
  rw [(Place.ids_plug place siblings).length_eq, List.length_append] at hle
  omega

/-- The children of a paragraph that has lost a child are trimmed. -/
theorem settle (hstores : Stores arena (Place.plug (frame :: place) siblings)) :
    ∃ next, arena.settle frame.id frame.data = .ok next ∧
      Stores next (Place.plug (frame :: place) (siblings.settle frame.data)) := by
  unfold NumberedForest.settle Arena.settle
  split
  next => exact hstores.trimEdges
  next => exact ⟨arena, rfl, hstores⟩

/-- Climbing from a place removes the nodes around it that are left without children. -/
theorem climb {fuel : Nat} (hfuel : place.length < fuel)
    (hstores : Stores arena (Place.plug (place ++ [last]) siblings)) (hlast : last.id = root) :
    ∃ next, Arena.climb fuel arena (Place.parent (place ++ [last])) =
        .ok (next, (place.close siblings).2.filterMap Node.emptiedNotice?) ∧
      Stores next (Place.plug [last] (place.close siblings).1) := by
  induction place generalizing arena siblings fuel with
  | nil =>
      obtain ⟨fuel, rfl⟩ : ∃ smaller, fuel = smaller + 1 := ⟨fuel - 1, by omega⟩
      refine ⟨arena, ?_, hstores⟩
      rw [List.nil_append, Place.parent_cons, hlast, Arena.climb, if_pos rfl]
      rfl
  | cons frame place ih =>
      obtain ⟨fuel, rfl⟩ : ∃ smaller, fuel = smaller + 1 := ⟨fuel - 1, by omega⟩
      have hframe : Stores arena (Place.plug (place ++ [last])
        (frame.before ++ .node frame.id frame.data siblings :: frame.after)) := hstores
      have hne : frame.id ≠ root := fun heq =>
        hframe.not_mem_place (by simp) (heq.trans hlast.symm ▸ last_mem_place place last)
      obtain ⟨cell, hcell, hdata, -, -⟩ := hframe.exists_get
      rw [NumberedTree.id_node] at hcell
      rw [NumberedTree.data_node] at hdata
      rw [List.cons_append, Place.parent_cons, Arena.climb, if_neg hne, hcell, ok_bind, hdata]
      by_cases hgoes : Forest.goesWhenEmpty frame.data = true
      · obtain ⟨settled, hsettle, hstores⟩ := hstores.settle
        have hsettled : Stores settled (Place.plug (place ++ [last]) (frame.before ++
          .node frame.id frame.data (siblings.settle frame.data) :: frame.after)) := hstores
        obtain ⟨other, hother, hdata, hparent, hleaf⟩ := hsettled.exists_get
        rw [NumberedTree.id_node] at hother
        rw [NumberedTree.data_node] at hdata
        rw [if_pos hgoes, hsettle, ok_bind, hother, ok_bind, hleaf, hdata, hparent,
          NumberedTree.children_node]
        by_cases hempty : siblings.settle frame.data = []
        · rw [if_pos (List.isEmpty_iff.mpr hempty), Place.close_of_emptied hgoes hempty]
          have houter : ∃ outer rest, place ++ [last] = outer :: rest := by cases place <;> simp
          obtain ⟨outer, rest, houter⟩ := houter
          rw [houter] at hsettled
          obtain ⟨removed, hremove, hstores⟩ := hsettled.remove
          rw [← houter] at hstores
          rw [NumberedTree.id_node] at hremove
          obtain ⟨next, hnext, hholds⟩ := ih (by simpa using hfuel) hstores
          refine ⟨next, ?_, hholds⟩
          rw [hremove, ok_bind, hnext, ok_bind]
          cases hnotice : frame.data.emptiedNotice? <;> simp [hnotice]
        · rw [if_neg (mt List.isEmpty_iff.mp hempty), Place.close_of_kept fun h => hempty h.2]
          refine ⟨settled, rfl, ?_⟩
          rw [← Place.plug_append]
          exact hstores
      · have hkeeps : siblings.settle frame.data = siblings := if_neg fun heq => by
          simp [Forest.goesWhenEmpty, heq] at hgoes
        rw [if_neg hgoes, Place.close_of_kept fun h => hgoes h.1, hkeeps]
        refine ⟨arena, rfl, ?_⟩
        rw [← Place.plug_append]
        exact hstores

/-- A node is removed, and so are the ancestors that are emptied by that. -/
theorem removeAndPrune
    (hstores : Stores arena (Place.plug (place ++ [last]) (before ++ tree :: after)))
    (hlast : last.id = root) :
    ∃ next, arena.removeAndPrune tree.id =
        .ok (next, (place.close (before ++ after)).2.filterMap Node.emptiedNotice?) ∧
      Stores next (Place.plug [last] (place.close (before ++ after)).1) := by
  have hlength := hstores.length_place_le
  obtain ⟨cell, hcell, -, hparent, -⟩ := hstores.exists_get
  obtain ⟨outer, rest, houter⟩ : ∃ outer rest, place ++ [last] = outer :: rest := by
    cases place <;> simp
  have hnode := hstores
  rw [houter] at hnode
  obtain ⟨removed, hremove, hremoved⟩ := hnode.remove
  rw [← houter] at hremoved
  have hfuel : place.length < arena.bound := by
    rw [List.length_append] at hlength
    rw [bound]
    omega
  obtain ⟨next, hnext, hholds⟩ := hremoved.climb hfuel hlast
  refine ⟨next, ?_, hholds⟩
  rw [Arena.removeAndPrune, hcell, ok_bind, hremove, ok_bind, hparent, hnext]

end Stores

end Arena

end PageMarkup
