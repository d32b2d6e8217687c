import PageMarkup.Arena.Editing
import PageMarkup.Proofs.Arena.Stores

/-! # Linking and unlinking

What the operations on an arena do to the forest that it stores. A node that is stored is
a root until it is linked, and a node that is unlinked is a root again. None of these
operations fails.
-/

namespace PageMarkup

open NumberedForest

namespace Arena

variable {arena : Arena}

@[simp]
theorem ok_bind {α β : Type} (value : α) (f : α → Except ArenaFault β) :
    (Except.ok value >>= f) = f value := rfl

@[simp]
theorem pure_eq_ok {α : Type} (value : α) : (pure value : Except ArenaFault α) = .ok value := rfl

theorem linked_roots {forest : NumberedForest} :
    Linked arena none none none forest ↔ ∀ tree ∈ forest, Linked arena none none none [tree] := by
  induction forest with
  | nil => simp
  | cons tree rest ih =>
      obtain ⟨id, data, children⟩ := tree
      rw [List.forall_mem_cons, ← ih, linked_cons, linked_cons, linked_root]
      simp [and_assoc]

theorem lt_size_of_get? {id : Nat} {cell : Cell} (hcell : arena.get? id = some cell) :
    id < arena.slots.size := by
  by_contra hlt
  rw [get?, Array.getElem?_eq_none (Nat.le_of_not_lt hlt)] at hcell
  cases hcell

theorem get_eq {id : Nat} {cell : Cell} (hcell : arena.get? id = some cell) :
    arena.get id = .ok cell := by rw [get, hcell]

theorem get?_of_get {id : Nat} {cell : Cell} (hcell : arena.get id = .ok cell) :
    arena.get? id = some cell := by
  rw [get] at hcell
  split at hcell
  next heq => exact heq.trans (congrArg some (Except.ok.inj hcell))
  next => cases hcell

/-- The arena with another content in one of its slots. -/
def put (arena : Arena) (id : Nat) (cell : Option Cell) : Arena :=
  { arena with slots := arena.slots.setIfInBounds id cell }

@[simp]
theorem size_put (id : Nat) (cell : Option Cell) :
    (arena.put id cell).slots.size = arena.slots.size := Array.size_setIfInBounds

@[simp]
theorem free_put (id : Nat) (cell : Option Cell) : (arena.put id cell).free = arena.free := rfl

theorem get?_put {id : Nat} (hlt : id < arena.slots.size) (cell : Option Cell) (other : Nat) :
    (arena.put id cell).get? other = if other = id then cell else arena.get? other := by
  rw [get?, put, Array.getElem?_setIfInBounds]
  by_cases hother : id = other
  · subst hother
    simp [hlt]
  · rw [if_neg hother, if_neg (Ne.symm hother)]
    rfl

theorem keeps_put {id : Nat} {cell : Cell} (hlive : (arena.get? id).isSome) :
    Keeps arena (arena.put id (some cell)) where
  size := size_put ..
  free := free_put ..
  live other := by
    obtain ⟨cell, hcell⟩ := Option.isSome_iff_exists.mp hlive
    rw [get?_put (lt_size_of_get? hcell)]
    split
    next heq => rw [heq, hcell]; rfl
    next => rfl

/-- Changing a node that is there succeeds and concerns no other node. -/
theorem modify_ok {id : Nat} (hlive : (arena.get? id).isSome) (f : Cell → Cell) :
    ∃ next, arena.modify id f = .ok next ∧ Keeps arena next ∧
      ∀ other, next.get? other = if other = id then (arena.get? other).map f else arena.get? other := by
  obtain ⟨cell, hcell⟩ := Option.isSome_iff_exists.mp hlive
  refine ⟨arena.put id (some (f cell)), ?_, keeps_put hlive, fun other => ?_⟩
  · rw [modify, get_eq hcell]
    rfl
  · rw [get?_put (lt_size_of_get? hcell)]
    split
    next heq => rw [heq, hcell]; rfl
    next => rfl

/-- Tells what comes next to the node before it, or to the parent if there is none. -/
def setNext (arena : Arena) (previous parent value : Option Nat) : Except ArenaFault Arena :=
  match previous with
  | some previous => arena.modify previous ({ · with next := value })
  | none => arena.modify? parent ({ · with first := value })

/-- Tells what comes before to the node after it, or to the parent if there is none. -/
def setPrevious (arena : Arena) (following parent value : Option Nat) :
    Except ArenaFault Arena :=
  match following with
  | some following => arena.modify following ({ · with previous := value })
  | none => arena.modify? parent ({ · with last := value })

theorem setNext_ok {parent : Nat} (hparent : (arena.get? parent).isSome)
    {before : NumberedForest} (hbefore : ∀ id ∈ lastId before, (arena.get? id).isSome)
    (value : Option Nat) :
    ∃ next, arena.setNext (lastId before) (some parent) value = .ok next ∧ Keeps arena next ∧
      ∀ id, next.get? id =
        if id ∈ lastId before then (arena.get? id).map ({ · with next := value })
        else if id = parent ∧ before = [] then (arena.get? id).map ({ · with first := value })
        else arena.get? id := by
  cases hlast : lastId before with
  | none =>
      obtain ⟨next, hnext, hkeeps, hget⟩ := modify_ok hparent ({ · with first := value })
      obtain rfl : before = [] := lastId_eq_none.mp hlast
      exact ⟨next, hnext, hkeeps, fun id => by simp [hget]⟩
  | some last =>
      obtain ⟨next, hnext, hkeeps, hget⟩ := modify_ok (hbefore last hlast) ({ · with next := value })
      have hne : before ≠ [] := fun hnil => by simp [hnil] at hlast
      exact ⟨next, hnext, hkeeps, fun id => by simp [hget, hne, eq_comm]⟩

theorem setPrevious_ok {parent : Nat} (hparent : (arena.get? parent).isSome)
    {after : NumberedForest} (hafter : ∀ id ∈ firstId after, (arena.get? id).isSome)
    (value : Option Nat) :
    ∃ next, arena.setPrevious (firstId after) (some parent) value = .ok next ∧
      Keeps arena next ∧
      ∀ id, next.get? id =
        if id ∈ firstId after then (arena.get? id).map ({ · with previous := value })
        else if id = parent ∧ after = [] then (arena.get? id).map ({ · with last := value })
        else arena.get? id := by
  cases after with
  | nil =>
      obtain ⟨next, hnext, hkeeps, hget⟩ := modify_ok hparent ({ · with last := value })
      exact ⟨next, hnext, hkeeps, fun id => by simp [hget]⟩
  | cons first rest =>
      obtain ⟨next, hnext, hkeeps, hget⟩ :=
        modify_ok (hafter first.id rfl) ({ · with previous := value })
      exact ⟨next, hnext, hkeeps, fun id => by simp [hget, eq_comm]⟩

theorem append_eq {parent : Nat} {cell : Cell} (hparent : arena.get? parent = some cell)
    (child : Nat) :
    arena.append parent child =
      arena.modify child ({ · with parent := some parent, previous := cell.last, next := none })
        >>= fun arena => arena.setNext cell.last (some parent) (some child)
        >>= fun arena => arena.modify parent ({ · with last := some child }) := by
  rw [append, get_eq hparent, ok_bind]
  cases cell.last <;> rfl

theorem insertBefore_eq {sibling : Nat} {cell : Cell} (hsibling : arena.get? sibling = some cell)
    (id : Nat) :
    arena.insertBefore sibling id =
      arena.modify id
          ({ · with parent := cell.parent, previous := cell.previous, next := some sibling })
        >>= fun arena => arena.modify sibling ({ · with previous := some id })
        >>= fun arena => arena.setNext cell.previous cell.parent (some id) := by
  rw [insertBefore, get_eq hsibling, ok_bind]
  rfl

theorem detach_eq {id : Nat} {cell : Cell} (hcell : arena.get? id = some cell) :
    arena.detach id =
      arena.setNext cell.previous cell.parent cell.next
        >>= fun arena => arena.setPrevious cell.next cell.parent cell.previous
        >>= fun arena =>
          arena.modify id ({ · with parent := none, previous := none, next := none }) := by
  rw [detach, get_eq hcell, ok_bind]
  cases cell.previous <;> cases cell.next <;> rfl

/-- A node is stored in a slot that was not in use, and no other slot changes. -/
theorem alloc_spec (htidy : Tidy arena) (data : Node) :
    arena.get? (arena.alloc data).1 = none ∧
      (arena.alloc data).1 < (arena.alloc data).2.slots.size ∧
      (∀ other, (arena.alloc data).2.get? other =
        if other = (arena.alloc data).1 then some { data } else arena.get? other) ∧
      Tidy (arena.alloc data).2 := by
  obtain ⟨slots, free⟩ := arena
  obtain ⟨hnodup, hmem⟩ := htidy
  cases free with
  | nil =>
      have hget : ∀ other, get? ⟨slots.push (some { data }), []⟩ other =
          if other = slots.size then some { data } else get? ⟨slots, []⟩ other := by
        intro other
        rw [get?, get?, Array.getElem?_push]
        split <;> rfl
      refine ⟨by simp [alloc, get?], by simp [alloc], hget, .nil, fun id => ?_⟩
      have hmem := hmem id
      simp only [alloc, hget, Array.size_push]
      grind
  | cons id free =>
      obtain ⟨hlt, hnone⟩ := (hmem id).mp List.mem_cons_self
      have hget : ∀ other, get? ⟨slots.setIfInBounds id (some { data }), free⟩ other =
          if other = id then some { data } else get? ⟨slots, id :: free⟩ other := by
        intro other
        show get? (put ⟨slots, id :: free⟩ id (some { data })) other = _
        exact get?_put hlt _ other
      refine ⟨hnone, by simpa [alloc] using hlt, hget, (List.nodup_cons.mp hnodup).2, fun other => ?_⟩
      have hmem := hmem other
      have hid := (List.nodup_cons.mp hnodup).1
      simp only [alloc, hget, Array.size_setIfInBounds]
      grind

namespace Stores

variable {frame : Frame} {place : Place} {before after siblings : NumberedForest}
  {tree : NumberedTree}

/-- The cell of the parent of some siblings. -/
theorem get?_parent
    (hlinked : Linked arena none none none (Place.plug (frame :: place) siblings)) :
    arena.get? frame.id = some
      { data := frame.data
        parent := Place.parent place
        previous := beside (Place.parent place) (lastId frame.before)
        next := beside (Place.parent place) (firstId frame.after)
        first := firstId siblings
        last := lastId siblings } :=
  (linked_plug.mp hlinked).1.1

/-- The cell of one of some siblings. -/
theorem get?_sibling
    (hlinked : Linked arena none none none (Place.plug place (before ++ tree :: after))) :
    arena.get? tree.id = some
      { data := tree.data
        parent := Place.parent place
        previous := beside (Place.parent place) (lastId before)
        next := beside (Place.parent place) (firstId after)
        first := firstId tree.children
        last := lastId tree.children } := by
  have hsecond := (linked_append.mp (linked_plug.mp hlinked).2).2
  simpa using (linked_tree.mp hsecond).1

/-- A root, a node and what stands at a place under it have distinct numbers. -/
theorem distinct_beside
    (hdistinct : (NumberedForest.ids (tree :: Place.plug (frame :: place) siblings)).Nodup) :
    tree.id ≠ frame.id ∧ tree.id ∉ siblings.ids ∧ frame.id ∉ siblings.ids ∧
      siblings.ids.Nodup := by
  rw [ids_cons_eq, (((Place.ids_plug ..).append_left _).cons _).nodup_iff] at hdistinct
  simp only [Place.ids, List.nodup_cons, List.nodup_append, List.mem_append, List.mem_cons]
    at hdistinct
  grind

theorem live_beside
    (hlive : ∀ id ∈ NumberedForest.ids (tree :: Place.plug (frame :: place) siblings),
      (arena.get? id).isSome) :
    (arena.get? tree.id).isSome ∧ (arena.get? frame.id).isSome ∧
      ∀ id ∈ siblings.ids, (arena.get? id).isSome := by
  rw [ids_cons_eq] at hlive
  simp only [List.mem_cons, List.mem_append, (Place.ids_plug ..).mem_iff, Place.ids] at hlive
  grind

theorem isSome_get? (hstores : Stores arena siblings) {id : Nat} (hmem : id ∈ siblings.ids) :
    (arena.get? id).isSome := (hstores.mem_iff id).mp hmem

/-- Linking a root as the last child of a node. -/
theorem append (hstores : Stores arena (tree :: Place.plug (frame :: place) before)) :
    ∃ next, arena.append frame.id tree.id = .ok next ∧
      Stores next (Place.plug (frame :: place) (before ++ [tree])) := by
  have hparent := get?_parent ((linked_root _ _).mp (linked_tree.mp hstores.linked).2.2)
  obtain ⟨hne, htree, hframe, -⟩ := distinct_beside hstores.distinct
  obtain ⟨hlivetree, hliveframe, hlive⟩ := live_beside fun _ => hstores.isSome_get?
  have hlast : ∀ id ∈ lastId before, id ∈ before.ids := fun _ => mem_ids_of_lastId
  obtain ⟨first, hfirst, hkeeps, hget⟩ := modify_ok hlivetree
    ({ · with parent := some frame.id, previous := lastId before, next := none })
  obtain ⟨second, hsecond, hkeeps', hget'⟩ :=
    setNext_ok ((hkeeps.live frame.id).trans hliveframe)
      (fun id hid => (hkeeps.live id).trans (hlive id (hlast id hid))) (some tree.id)
  replace hkeeps := hkeeps.trans hkeeps'
  obtain ⟨third, hthird, hkeeps'', hget''⟩ := modify_ok
    ((hkeeps.live frame.id).trans hliveframe) ({ · with last := some tree.id })
  rw [← List.append_nil before] at hstores
  refine ⟨third, ?_, hstores.of_attach ?_ ?_ ?_ nofun ?_ (hkeeps.trans hkeeps'')⟩
  · rw [append_eq hparent, hfirst, ok_bind, hsecond, ok_bind, hthird]
  · have hnot : tree.id ∉ lastId before := fun hid => htree (hlast _ hid)
    simp [hget'', hget', hget, hne, hnot]
  · have hnot : frame.id ∉ lastId before := fun hid => hframe (hlast _ hid)
    rw [hget'', if_pos rfl, hget', if_neg hnot, hget, if_neg hne.symm, hparent]
    cases before <;> simp [lastId_cons]
  · intro id hid
    have hother : id ≠ frame.id ∧ id ≠ tree.id := by grind
    simp [hget'', hget', hget, hother, hid]
  · intro id hother hother' hid _
    simp [hget'', hget', hget, hother, hother', hid]

/-- Linking a root right before a node that is no root. -/
theorem insertBefore {sibling : NumberedTree}
    (hstores : Stores arena (tree :: Place.plug (frame :: place) (before ++ sibling :: after))) :
    ∃ next, arena.insertBefore sibling.id tree.id = .ok next ∧
      Stores next (Place.plug (frame :: place) (before ++ tree :: sibling :: after)) := by
  have hplug := (linked_root _ _).mp (linked_tree.mp hstores.linked).2.2
  have hparent := get?_parent hplug
  have hsibling := get?_sibling hplug
  obtain ⟨hne, htree, hframe, hnodup⟩ := distinct_beside hstores.distinct
  obtain ⟨hlivetree, hliveframe, hlive⟩ := live_beside fun _ => hstores.isSome_get?
  simp only [ids_append, ids_cons_eq, List.mem_append, List.mem_cons, not_or,
    List.nodup_append] at htree hframe hnodup hlive
  have hlast : ∀ id ∈ lastId before, id ∈ before.ids := fun _ => mem_ids_of_lastId
  have hends : ∀ id ∈ lastId before, id ≠ tree.id ∧ id ≠ frame.id ∧ id ≠ sibling.id := by grind
  obtain ⟨first, hfirst, hkeeps, hget⟩ := modify_ok hlivetree
    ({ · with parent := some frame.id, previous := lastId before, next := some sibling.id })
  obtain ⟨second, hsecond, hkeeps', hget'⟩ := modify_ok
    ((hkeeps.live sibling.id).trans (hlive _ (.inr (.inl rfl)))) ({ · with previous := some tree.id })
  replace hkeeps := hkeeps.trans hkeeps'
  obtain ⟨third, hthird, hkeeps'', hget''⟩ :=
    setNext_ok ((hkeeps.live frame.id).trans hliveframe)
      (fun id hid => (hkeeps.live id).trans (hlive id (.inl (hlast id hid)))) (some tree.id)
  refine ⟨third, ?_, hstores.of_attach ?_ ?_ ?_ ?_ ?_ (hkeeps.trans hkeeps'')⟩
  · rw [insertBefore_eq hsibling]
    simp only [Place.parent_cons, beside_some]
    rw [hfirst, ok_bind, hsecond, ok_bind, hthird]
  · have hnot : tree.id ∉ lastId before := fun hid => htree.1 (hlast _ hid)
    simp [hget'', hget', hget, hne, hnot, htree.2.1]
  · have hnot : frame.id ∉ lastId before := fun hid => hframe.1 (hlast _ hid)
    rw [hget'', if_neg hnot, hget', if_neg hframe.2.1, hget, if_neg hne.symm, hparent]
    cases before <;> simp [lastId_cons]
  · intro id hid
    simp [hget'', hget', hget, hends id hid, hid]
  · rintro id hid
    obtain rfl : sibling.id = id := Option.some.inj hid
    have hnot : sibling.id ∉ lastId before := by grind
    simp [hget'', hget', hget, hnot, Ne.symm htree.2.1, Ne.symm hframe.2.1]
  · intro id hother hother' hid hid'
    have hsibling : id ≠ sibling.id := fun heq => hid' (by rw [heq]; rfl)
    simp [hget'', hget', hget, hother, hother', hid, hsibling]

/-- Unlinking a node that is no root. -/
theorem detach (hstores : Stores arena (Place.plug (frame :: place) (before ++ tree :: after))) :
    ∃ next, arena.detach tree.id = .ok next ∧
      Stores next (tree :: Place.plug (frame :: place) (before ++ after)) := by
  have hparent := get?_parent hstores.linked
  have hcell := get?_sibling hstores.linked
  have hmiddle := Place.ids_plug_middle (frame :: place) before after tree
  obtain ⟨hne, htree, hframe, hnodup⟩ := distinct_beside (hmiddle.nodup_iff.mp hstores.distinct)
  obtain ⟨hlivetree, hliveframe, hlive⟩ :=
    live_beside fun id hmem => hstores.isSome_get? (hmiddle.mem_iff.mpr hmem)
  simp only [ids_append, List.mem_append, not_or, List.nodup_append] at htree hframe hnodup hlive
  have hlast : ∀ id ∈ lastId before, id ∈ before.ids := fun _ => mem_ids_of_lastId
  have hfirst : ∀ id ∈ firstId after, id ∈ after.ids := fun _ => mem_ids_of_firstId
  obtain ⟨first, hnext, hkeeps, hget⟩ :=
    setNext_ok hliveframe (fun id hid => hlive id (.inl (hlast id hid))) (firstId after)
  obtain ⟨second, hprevious, hkeeps', hget'⟩ :=
    setPrevious_ok ((hkeeps.live frame.id).trans hliveframe)
      (fun id hid => (hkeeps.live id).trans (hlive id (.inr (hfirst id hid)))) (lastId before)
  replace hkeeps := hkeeps.trans hkeeps'
  obtain ⟨third, hthird, hkeeps'', hget''⟩ := modify_ok ((hkeeps.live tree.id).trans hlivetree)
    ({ · with parent := none, previous := none, next := none })
  refine ⟨third, ?_, hstores.of_detach ?_ ?_ ?_ ?_ ?_ (hkeeps.trans hkeeps'')⟩
  · rw [detach_eq hcell]
    simp only [Place.parent_cons, beside_some]
    rw [hnext, ok_bind, hprevious, ok_bind, hthird]
  · have hnot : tree.id ∉ lastId before := fun hid => htree.1 (hlast _ hid)
    have hnot' : tree.id ∉ firstId after := fun hid => htree.2 (hfirst _ hid)
    simp [hget'', hget', hget, hne, hnot, hnot']
  · have hnot : frame.id ∉ lastId before := fun hid => hframe.1 (hlast _ hid)
    have hnot' : frame.id ∉ firstId after := fun hid => hframe.2 (hfirst _ hid)
    rw [hget'', if_neg hne.symm, hget', if_neg hnot', hget, if_neg hnot, hparent]
    cases before <;> cases after <;> simp [lastId_cons]
  · intro id hid
    have hother : id ≠ tree.id ∧ id ≠ frame.id ∧ id ∉ firstId after := by grind
    simp [hget'', hget', hget, hother, hid]
  · intro id hid
    have hother : id ≠ tree.id ∧ id ≠ frame.id ∧ id ∉ lastId before := by grind
    simp [hget'', hget', hget, hother, hid]
  · intro id hother hother' hid hid'
    simp [hget'', hget', hget, hother, hother', hid, hid']

theorem perm {others : NumberedForest} (hstores : Stores arena siblings)
    (hperm : siblings.Perm others) : Stores arena others := by
  refine hstores.relinked (ids_perm hperm.symm) ?_ (.refl arena)
  have hlinked := linked_roots.mp hstores.linked
  exact linked_roots.mpr fun tree hmem => hlinked tree (hperm.mem_iff.mpr hmem)

/-- Linking a root as the first child of a node. -/
theorem prepend (hstores : Stores arena (tree :: Place.plug (frame :: place) siblings)) :
    ∃ next, arena.prepend frame.id tree.id = .ok next ∧
      Stores next (Place.plug (frame :: place) (tree :: siblings)) := by
  have hparent := get?_parent ((linked_root _ _).mp (linked_tree.mp hstores.linked).2.2)
  rw [Arena.prepend, get_eq hparent, ok_bind]
  cases siblings with
  | nil => exact hstores.append
  | cons first rest =>
      have hstores : Stores arena (tree :: Place.plug (frame :: place) ([] ++ first :: rest)) :=
        hstores
      exact hstores.insertBefore

/-- Unlinking a root leaves everything as it is. -/
theorem detach_root (hstores : Stores arena (tree :: siblings)) :
    ∃ next, arena.detach tree.id = .ok next ∧ Stores next (tree :: siblings) := by
  obtain ⟨hcell, -⟩ := linked_tree.mp hstores.linked
  simp only [beside_none] at hcell
  have hlive : (arena.get? tree.id).isSome := by rw [hcell]; rfl
  obtain ⟨next, hnext, hkeeps, hget⟩ := modify_ok hlive
    ({ · with parent := none, previous := none, next := none })
  refine ⟨next, ?_, hstores.relinked (.refl _) ?_ hkeeps⟩
  · rw [detach_eq hcell]
    exact hnext
  · refine hstores.linked.congr fun id _ => ?_
    rw [hget]
    split
    next heq => rw [heq, hcell]; rfl
    next => rfl

/-- Changing what a node holds. -/
theorem update (hstores : Stores arena (Place.plug place (before ++ tree :: after)))
    (f : Node → Node) :
    ∃ next, arena.update tree.id f = .ok next ∧
      Stores next
        (Place.plug place (before ++ .node tree.id (f tree.data) tree.children :: after)) := by
  obtain ⟨haround, hsiblings⟩ := linked_plug.mp hstores.linked
  obtain ⟨hfirst, hsecond⟩ := linked_append.mp hsiblings
  obtain ⟨hcell, hchildren, hsecond⟩ := linked_tree.mp hsecond
  have hlive : (arena.get? tree.id).isSome := by rw [hcell]; rfl
  obtain ⟨next, hnext, hkeeps, hget⟩ :=
    modify_ok hlive fun cell => { cell with data := f cell.data }
  have hdistinct := (Place.ids_plug_middle ..).nodup_iff.mp hstores.distinct
  rw [ids_cons_eq, List.nodup_cons, List.mem_append, (Place.ids_plug ..).mem_iff,
    List.mem_append, ids_append, List.mem_append] at hdistinct
  have hsame : ∀ id, id ≠ tree.id → next.get? id = arena.get? id :=
    fun id hid => (hget id).trans (if_neg hid)
  refine ⟨next, hnext, hstores.relinked ?_ (linked_plug.mpr ⟨?_, linked_append.mpr
    ⟨hfirst.congr fun id hmem => hsame id (by grind), linked_cons.mpr ⟨?_,
      hchildren.congr fun id hmem => hsame id (by grind),
      hsecond.congr fun id hmem => hsame id (by grind)⟩⟩⟩) hkeeps⟩
  · refine (Place.ids_plug ..).trans (.trans ?_ (Place.ids_plug ..).symm)
    rw [ids_append, ids_append, ids_cons_eq, ids_cons_eq]
    exact .refl _
  · have hsame := haround.congr fun id hmem => hsame id (by grind)
    rw [firstId_append, lastId_append, lastId_cons] at hsame ⊢
    exact hsame
  · rw [hget, if_pos rfl, hcell]
    rfl

/-- Storing a node makes it a root of its own. -/
theorem alloc (hstores : Stores arena siblings) (data : Node) :
    ∃ id next, arena.alloc data = (id, next) ∧ Stores next (.node id data [] :: siblings) := by
  refine ⟨(arena.alloc data).1, (arena.alloc data).2, rfl, ?_⟩
  obtain ⟨hfree, hlt, hget, hmem⟩ := alloc_spec hstores.tidy data
  have hfresh : (arena.alloc data).1 ∉ siblings.ids := fun hmem => by
    rw [hstores.mem_iff, hfree] at hmem
    cases hmem
  refine ⟨by simpa [hfresh] using hstores.distinct, linked_cons.mpr ⟨?_, linked_nil, ?_⟩, ?_, ?_⟩
  · rw [hget, if_pos rfl]
    rfl
  · refine ((linked_root _ _).mpr hstores.linked).congr fun id hid => ?_
    have hne : id ≠ (arena.alloc data).1 := fun heq => hfresh (heq ▸ hid)
    rw [hget, if_neg hne]
  · intro id cell hcell
    rw [hget] at hcell
    rw [ids_cons, ids_nil, List.nil_append, List.mem_cons]
    split at hcell
    next heq => exact .inl heq
    next => exact .inr (hstores.live id cell hcell)
  · exact hmem

end Stores

end Arena

end PageMarkup
