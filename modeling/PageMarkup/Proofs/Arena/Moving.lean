import PageMarkup.Arena.Rewriting
import PageMarkup.Proofs.Arena.Reading

/-! # Removing subtrees, moving and trimming children

A node is removed with everything below it, and its slots go to the free list. While nodes
are released, those on the stack are linked to nodes that are gone; only the links to
what is below them still count.

Then loops over the children of one node. Each of them goes over numbers that were read before
the first change, and the invariant says which of the children have not been passed yet.
-/

namespace PageMarkup

open NumberedForest

/-! ## Removing -/

namespace Arena

variable {arena next : Arena} {stack roots : NumberedForest} {tree : NumberedTree}

/-- What is below the root of a tree is linked, whatever the root itself is linked to. -/
def Loose (arena : Arena) (tree : NumberedTree) : Prop :=
  (∃ cell, arena.get? tree.id = some cell ∧ cell.first = firstId tree.children) ∧
    Linked arena (some tree.id) none none tree.children

/-- The arena holds the trees of a numbered forest and those that are to be released. -/
structure Releasing (arena : Arena) (stack roots : NumberedForest) : Prop where
  distinct : (stack.ids ++ roots.ids).Nodup
  loose : ∀ tree ∈ stack, Loose arena tree
  linked : Linked arena none none none roots
  live : ∀ id cell, arena.get? id = some cell → id ∈ stack.ids ++ roots.ids
  tidy : arena.Tidy

theorem Loose.congr (hloose : Loose arena tree)
    (hsame : ∀ id ∈ NumberedForest.ids [tree], next.get? id = arena.get? id) :
    Loose next tree := by
  rw [ids_cons_eq, ids_nil, List.append_nil] at hsame
  obtain ⟨⟨cell, hcell, hfirst⟩, hchildren⟩ := hloose
  exact ⟨⟨cell, (hsame _ List.mem_cons_self).trans hcell, hfirst⟩,
    hchildren.congr fun id hmem => hsame id (List.mem_cons_of_mem _ hmem)⟩

theorem Linked.loose {parent previous following : Option Nat} {forest : NumberedForest}
    (hlinked : Linked arena parent previous following forest) :
    ∀ tree ∈ forest, Loose arena tree := by
  induction forest generalizing previous with
  | nil => nofun
  | cons tree rest ih =>
      obtain ⟨hcell, hchildren, hrest⟩ := linked_tree.mp hlinked
      exact List.forall_mem_cons.mpr ⟨⟨⟨_, hcell, rfl⟩, hchildren⟩, ih hrest⟩

/-- The arena with one more free slot. -/
def freed (arena : Arena) (id : Nat) : Arena :=
  ⟨arena.slots.setIfInBounds id none, id :: arena.free⟩

theorem get?_freed {id : Nat} (hlive : (arena.get? id).isSome) (other : Nat) :
    (arena.freed id).get? other = if other = id then none else arena.get? other := by
  obtain ⟨cell, hcell⟩ := Option.isSome_iff_exists.mp hlive
  show (arena.put id none).get? other = _
  exact get?_put (lt_size_of_get? hcell) none other

theorem Tidy.freed (htidy : arena.Tidy) {id : Nat} (hlive : (arena.get? id).isSome) :
    (arena.freed id).Tidy where
  nodup := by
    refine List.nodup_cons.mpr ⟨fun hmem => ?_, htidy.nodup⟩
    rw [((htidy.mem_free id).mp hmem).2] at hlive
    cases hlive
  mem_free other := by
    obtain ⟨cell, hcell⟩ := Option.isSome_iff_exists.mp hlive
    have hlt := lt_size_of_get? hcell
    have hmem := htidy.mem_free other
    rw [get?_freed hlive]
    simp only [Arena.freed, List.mem_cons, Array.size_setIfInBounds]
    grind

namespace Releasing

theorem stores (hreleasing : Releasing arena [] roots) : Stores arena roots := by
  obtain ⟨hdistinct, -, hlinked, hlive, htidy⟩ := hreleasing
  rw [ids_nil, List.nil_append] at hdistinct hlive
  exact ⟨hdistinct, hlinked, hlive, htidy⟩

theorem children (hreleasing : Releasing arena (tree :: stack) roots) :
    arena.children tree.id = .ok (tree.children.map NumberedTree.id) := by
  obtain ⟨⟨cell, hcell, hfirst⟩, hchildren⟩ := hreleasing.loose tree List.mem_cons_self
  have hlength := length_le_ids tree.children
  have hdistinct := hreleasing.distinct
  rw [ids_cons_eq, List.cons_append, List.nodup_cons, List.append_assoc,
    List.nodup_append] at hdistinct
  have hle := length_le_size hdistinct.2.1 fun id hmem => hchildren.get?_of_mem hmem
  rw [Arena.children, get_eq hcell, ok_bind, hfirst]
  exact chain_next hchildren (by rw [bound]; omega)

/-- One node is freed, and what was right below it is put on the stack. -/
theorem step (hreleasing : Releasing arena (tree :: stack) roots) :
    Releasing (arena.freed tree.id) (tree.children.reverse ++ stack) roots := by
  obtain ⟨⟨cell, hcell, -⟩, hchildren⟩ := hreleasing.loose tree List.mem_cons_self
  have hlive : (arena.get? tree.id).isSome := by rw [hcell]; rfl
  obtain ⟨hdistinct, hloose, hlinked, hused, htidy⟩ := hreleasing
  rw [ids_cons_eq] at hdistinct hused
  have hreverse := ids_perm (List.reverse_perm tree.children)
  have hperm : (ids (tree.children.reverse ++ stack) ++ roots.ids).Perm
      (tree.children.ids ++ stack.ids ++ roots.ids) := by
    rw [ids_append]
    exact (hreverse.append_right _).append_right _
  obtain ⟨hid, hdistinct⟩ := List.nodup_cons.mp hdistinct
  have hsame : ∀ id ∈ tree.children.ids ++ stack.ids ++ roots.ids,
      (arena.freed tree.id).get? id = arena.get? id := fun id hmem => by
    rw [get?_freed hlive, if_neg]
    exact fun heq => hid (heq ▸ hmem)
  simp only [List.mem_append] at hsame
  refine ⟨hperm.nodup_iff.mpr hdistinct, fun other hmem => ?_, ?_, fun id cell hcell => ?_,
    htidy.freed hlive⟩
  · rcases List.mem_append.mp hmem with hmem | hmem
    · have hmem := List.mem_reverse.mp hmem
      exact (hchildren.loose other hmem).congr fun id hid =>
        hsame id (.inl (.inl (ids_subset_of_mem hmem hid)))
    · exact (hloose other (List.mem_cons_of_mem _ hmem)).congr fun id hid =>
        hsame id (.inl (.inr (ids_subset_of_mem hmem hid)))
  · exact hlinked.congr fun id hmem => hsame id (.inr hmem)
  · rw [hperm.mem_iff]
    rw [get?_freed hlive] at hcell
    split at hcell
    next => cases hcell
    next hne => exact (List.mem_cons.mp (hused id cell hcell)).resolve_left hne

theorem release (fuel : Nat) (hreleasing : Releasing arena stack roots)
    (hfuel : stack.ids.length ≤ fuel) :
    ∃ next, release fuel arena (stack.map NumberedTree.id) = .ok next ∧ Stores next roots := by
  induction fuel generalizing arena stack with
  | zero =>
      obtain rfl : stack = [] := by
        cases stack with
        | nil => rfl
        | cons tree rest => simp [ids_cons_eq] at hfuel
      exact ⟨arena, by rw [List.map_nil, Arena.release], hreleasing.stores⟩
  | succ fuel ih =>
      cases stack with
      | nil => exact ⟨arena, by rw [List.map_nil, Arena.release], hreleasing.stores⟩
      | cons tree rest =>
          have hlength := (ids_perm (List.reverse_perm tree.children)).length_eq
          rw [ids_cons_eq, List.length_cons, List.length_append] at hfuel
          obtain ⟨next, hnext, hstores⟩ := ih hreleasing.step
            (by rw [ids_append, List.length_append]; omega)
          refine ⟨next, ?_, hstores⟩
          rw [List.map_cons, Arena.release, hreleasing.children, ok_bind, ← hnext,
            List.map_append, List.map_reverse]
          rfl

end Releasing

theorem Stores.release (hstores : Stores arena (tree :: roots)) :
    ∃ next, release arena.bound arena [tree.id] = .ok next ∧ Stores next roots := by
  obtain ⟨hcell, hchildren, hroots⟩ := linked_tree.mp hstores.linked
  have hids : NumberedForest.ids (tree :: roots) = NumberedForest.ids [tree] ++ roots.ids :=
    ids_append [tree] roots
  have hle := hstores.length_ids_le
  have hreleasing : Releasing arena [tree] roots :=
    { distinct := hids ▸ hstores.distinct
      loose := List.forall_mem_singleton.mpr ⟨⟨_, hcell, rfl⟩, hchildren⟩
      linked := (linked_root _ _).mp hroots
      live := hids ▸ hstores.live
      tidy := hstores.tidy }
  rw [hids, List.length_append] at hle
  exact hreleasing.release arena.bound (by rw [bound]; omega)

namespace Stores

variable {place : Place} {before after : NumberedForest}

/-- A root is removed with everything below it. -/
theorem remove_root (hstores : Stores arena (tree :: roots)) :
    ∃ next, arena.remove tree.id = .ok next ∧ Stores next roots := by
  obtain ⟨detached, hdetach, hstores⟩ := hstores.detach_root
  obtain ⟨next, hnext, hstores⟩ := hstores.release
  exact ⟨next, by rw [Arena.remove, hdetach, ok_bind, hnext], hstores⟩

/-- A node is removed with everything below it. -/
theorem remove (hstores : Stores arena (Place.plug place (before ++ tree :: after))) :
    ∃ next, arena.remove tree.id = .ok next ∧ Stores next (Place.plug place (before ++ after)) := by
  cases place with
  | nil => exact (hstores.perm List.perm_middle).remove_root
  | cons frame place =>
      obtain ⟨detached, hdetach, hstores⟩ := hstores.detach
      obtain ⟨next, hnext, hstores⟩ := hstores.release
      exact ⟨next, by rw [Arena.remove, hdetach, ok_bind, hnext], hstores⟩

end Stores

end Arena

/-! ## Moving and trimming -/

namespace NumberedForest

/-- Drops the blank text leaves at the front and trims a text leaf that is then first. -/
def trimFront (trimText : String → String) : NumberedForest → NumberedForest
  | [] => []
  | tree :: rest =>
    if tree.erase.isTextLeaf then
      if Text.isBlankText tree.data.text then trimFront trimText rest
      else .node tree.id { tree.data with text := trimText tree.data.text } tree.children :: rest
    else tree :: rest

/-- Trims both ends, the front first. -/
def trimEdges (forest : NumberedForest) : NumberedForest :=
  (trimFront Text.trimEnd (trimFront Text.trimStart forest).reverse).reverse

theorem erase_trimFront (trimText : String → String) (forest : NumberedForest) :
    erase (trimFront trimText forest) = Forest.trimFront trimText (erase forest) := by
  induction forest with
  | nil => simp [trimFront, Forest.trimFront]
  | cons tree rest ih =>
      rw [trimFront, erase_cons_eq, Forest.trimFront, NumberedTree.data_erase]
      split
      next =>
        split
        next => exact ih
        next => rw [erase_cons]; rfl
      next => exact erase_cons_eq ..

theorem erase_trimEdges (forest : NumberedForest) :
    erase (trimEdges forest) = (erase forest).trimEdges := by
  rw [trimEdges, erase_reverse, erase_trimFront, erase_reverse, erase_trimFront]
  rfl

end NumberedForest

/-- Other roots beside those that have a place among them. -/
theorem Place.exists_beside (roots : NumberedForest) (frame : Frame) (place : Place) :
    ∃ other outer, Frame.id other = frame.id ∧ Frame.data other = frame.data ∧
      ∀ siblings, Place.plug (other :: outer) siblings =
        roots ++ Place.plug (frame :: place) siblings := by
  induction place generalizing frame with
  | nil =>
      refine ⟨{ frame with before := roots ++ frame.before }, [], rfl, rfl, fun siblings => ?_⟩
      simp [Place.plug_cons]
  | cons outer place ih =>
      obtain ⟨other, rest, hid, hdata, hplug⟩ := ih outer
      refine ⟨frame, other :: rest, rfl, rfl, fun siblings => ?_⟩
      rw [Place.plug_cons, hplug]
      rfl

namespace Arena

variable {arena : Arena} {roots siblings : NumberedForest} {frame : Frame} {place : Place}
  {tree : NumberedTree}

/-- One end of the children of a node: the link to the outermost child, and how children
that are listed from this end on are arranged. -/
structure IsEnd (outermost : Cell → Option Nat)
    (arrange : NumberedForest → NumberedForest) : Prop where
  outermost_eq : ∀ siblings cell, cell.first = firstId (arrange siblings) →
    cell.last = lastId (arrange siblings) → outermost cell = firstId siblings
  split : ∀ rest, ∃ before after, before ++ after = arrange rest ∧
    ∀ tree, arrange (tree :: rest) = before ++ tree :: after

theorem isEnd_first : IsEnd Cell.first id where
  outermost_eq _ _ hfirst _ := hfirst
  split rest := ⟨[], rest, rfl, fun _ => rfl⟩

theorem isEnd_last : IsEnd Cell.last List.reverse where
  outermost_eq _ _ _ hlast := by rw [hlast, lastId_reverse]
  split rest := ⟨rest.reverse, [], by simp, fun tree => by simp⟩

theorem IsEnd.outermost_get? {outermost : Cell → Option Nat}
    {arrange : NumberedForest → NumberedForest} (hend : IsEnd outermost arrange)
    (hstores : Stores arena (Place.plug (frame :: place) (arrange siblings))) :
    ∃ cell, arena.get? frame.id = some cell ∧ outermost cell = firstId siblings :=
  ⟨_, Stores.get?_parent hstores.linked, hend.outermost_eq _ _ rfl rfl⟩

theorem isTextLeaf_of {cell : Cell} (hdata : cell.data = tree.data)
    (hleaf : cell.isLeaf = tree.children.isEmpty) : isTextLeaf cell = tree.erase.isTextLeaf := by
  obtain ⟨id, data, children⟩ := tree
  cases children with
  | nil => simp_all [isTextLeaf, NumberedTree.erase, Tree.isTextLeaf]
  | cons child rest => simp_all [isTextLeaf, NumberedTree.erase, Tree.isTextLeaf, erase_cons_eq]

namespace Stores

theorem clear (hstores : Stores arena (Place.plug (frame :: place) siblings)) :
    ∃ next, arena.clear frame.id = .ok next ∧ Stores next (Place.plug (frame :: place) []) := by
  rw [Arena.clear, hstores.children, ok_bind]
  induction siblings generalizing arena with
  | nil => exact ⟨arena, rfl, hstores⟩
  | cons tree rest ih =>
      have hfirst : Stores arena (Place.plug (frame :: place) ([] ++ tree :: rest)) := hstores
      obtain ⟨removed, hremove, hstores⟩ := hfirst.remove
      obtain ⟨next, hnext, hstores⟩ := ih hstores
      refine ⟨next, ?_, hstores⟩
      rw [List.map_cons, List.foldlM_cons, hremove, ok_bind, hnext]

/-- A node is unlinked beside roots that do not matter. -/
theorem detach_beside {before after : NumberedForest}
    (hstores : Stores arena (roots ++ Place.plug (frame :: place) (before ++ tree :: after))) :
    ∃ next, arena.detach tree.id = .ok next ∧
      Stores next (tree :: (roots ++ Place.plug (frame :: place) (before ++ after))) := by
  obtain ⟨other, outer, -, -, hplug⟩ := Place.exists_beside roots frame place
  rw [← hplug] at hstores ⊢
  exact hstores.detach

theorem children_beside (hstores : Stores arena (roots ++ Place.plug (frame :: place) siblings)) :
    arena.children frame.id = .ok (siblings.map NumberedTree.id) := by
  obtain ⟨other, outer, hid, -, hplug⟩ := Place.exists_beside roots frame place
  rw [← hplug] at hstores
  rw [← hid]
  exact hstores.children

/-- The children of a node are moved to a root. -/
theorem moveChildren {target : Nat} {data : Node} {moved : NumberedForest}
    (hstores : Stores arena (.node target data moved :: Place.plug (frame :: place) siblings)) :
    ∃ next, arena.moveChildren frame.id target = .ok next ∧
      Stores next (.node target data (moved ++ siblings) :: Place.plug (frame :: place) []) := by
  have hbeside : Stores arena
      ([NumberedTree.node target data moved] ++ Place.plug (frame :: place) siblings) := hstores
  rw [Arena.moveChildren, children_beside hbeside, ok_bind]
  clear hbeside
  induction siblings generalizing arena moved with
  | nil => exact ⟨arena, rfl, by simpa using hstores⟩
  | cons tree rest ih =>
      have hfirst : Stores arena ([NumberedTree.node target data moved] ++
          Place.plug (frame :: place) ([] ++ tree :: rest)) := hstores
      obtain ⟨detached, hdetach, hstores⟩ := hfirst.detach_beside
      have htarget : Stores detached
          (tree :: Place.plug [⟨target, data, [], Place.plug (frame :: place) rest⟩] moved) := hstores
      obtain ⟨appended, happend, hstores⟩ := htarget.append
      obtain ⟨next, hnext, hstores⟩ := ih hstores
      refine ⟨next, ?_, by simpa using hstores⟩
      rw [List.map_cons, List.foldlM_cons, hdetach, ok_bind, happend, ok_bind, hnext]

/-- One round at one end of the children of a node. -/
theorem trimEnd_cons {outermost : Cell → Option Nat} {arrange : NumberedForest → NumberedForest}
    (hend : IsEnd outermost arrange) (trimText : String → String) {rest : NumberedForest}
    (hstores : Stores arena (Place.plug (frame :: place) (arrange (tree :: rest)))) (fuel : Nat) :
    Arena.trimEnd outermost trimText frame.id (fuel + 1) arena =
      if tree.erase.isTextLeaf then
        if Text.isBlankText tree.data.text then do
          Arena.trimEnd outermost trimText frame.id fuel (← arena.remove tree.id)
        else arena.update tree.id fun data => { data with text := trimText data.text }
      else .ok arena := by
  obtain ⟨parent, hparent, houtermost⟩ := hend.outermost_get? hstores
  obtain ⟨before, after, -, hsplit⟩ := hend.split rest
  rw [hsplit] at hstores
  obtain ⟨cell, hcell, hdata, -, hleaf⟩ := hstores.exists_get
  rw [Arena.trimEnd, get_eq hparent, ok_bind, houtermost, firstId_cons]
  simp only [hcell, ok_bind, isTextLeaf_of hdata hleaf, hdata]
  rfl

theorem trimEnd_nil {outermost : Cell → Option Nat} {arrange : NumberedForest → NumberedForest}
    (hend : IsEnd outermost arrange) (trimText : String → String)
    (hstores : Stores arena (Place.plug (frame :: place) (arrange []))) (fuel : Nat) :
    Arena.trimEnd outermost trimText frame.id fuel arena = .ok arena := by
  obtain ⟨cell, hcell, houtermost⟩ := hend.outermost_get? hstores
  cases fuel with
  | zero => rw [Arena.trimEnd]
  | succ fuel =>
      rw [Arena.trimEnd, get_eq hcell, ok_bind, houtermost, firstId_nil]
      rfl

/-- The white space at one end of the children of a node is trimmed, in no more rounds than one
for each child and another one. -/
theorem trimEnd {outermost : Cell → Option Nat} {arrange : NumberedForest → NumberedForest}
    (hend : IsEnd outermost arrange) (trimText : String → String)
    (hstores : Stores arena (Place.plug (frame :: place) (arrange siblings))) :
    ∃ next, (∀ fuel, siblings.length < fuel →
        Arena.trimEnd outermost trimText frame.id fuel arena = .ok next) ∧
      Stores next (Place.plug (frame :: place) (arrange (siblings.trimFront trimText))) := by
  induction siblings generalizing arena with
  | nil => exact ⟨arena, fun fuel _ => trimEnd_nil hend trimText hstores fuel, hstores⟩
  | cons tree rest ih =>
      have hround := trimEnd_cons hend trimText hstores
      obtain ⟨before, after, hrest, hsplit⟩ := hend.split rest
      rw [hsplit] at hstores
      rw [trimFront]
      split
      next hleaf =>
        split
        next hblank =>
          obtain ⟨removed, hremove, hstores⟩ := hstores.remove
          rw [hrest] at hstores
          obtain ⟨next, hnext, hstores⟩ := ih hstores
          refine ⟨next, fun | fuel + 1, hfuel => ?_, hstores⟩
          rw [hround, if_pos hleaf, if_pos hblank, hremove, ok_bind,
            hnext fuel (by simpa using hfuel)]
        next hink =>
          rw [hsplit]
          obtain ⟨next, hnext, hstores⟩ :=
            hstores.update fun data => { data with text := trimText data.text }
          refine ⟨next, fun | fuel + 1, _ => ?_, hstores⟩
          rw [hround, if_pos hleaf, if_neg hink, hnext]
      next hleaf =>
        exact ⟨arena, fun | fuel + 1, _ => by rw [hround, if_neg hleaf], by rwa [hsplit]⟩

theorem length_lt_bound (hstores : Stores arena (Place.plug (frame :: place) siblings)) :
    siblings.length < arena.bound := by
  have hle := hstores.length_siblings_le
  have hlength := length_le_ids siblings
  rw [bound]
  omega

/-- The white space at both ends of the children of a node is trimmed. Either loop ends after at
most one round for each child and another one. -/
theorem trimEnds (hstores : Stores arena (Place.plug (frame :: place) siblings)) :
    ∃ leading next,
      (∀ fuel, siblings.length < fuel →
        Arena.trimEnd Cell.first Text.trimStart frame.id fuel arena = .ok leading) ∧
      (∀ fuel, (siblings.trimFront Text.trimStart).length < fuel →
        Arena.trimEnd Cell.last Text.trimEnd frame.id fuel leading = .ok next) ∧
      arena.trimEdges frame.id = .ok next ∧
      Stores next (Place.plug (frame :: place) siblings.trimEdges) := by
  have hbound := hstores.length_lt_bound
  obtain ⟨leading, hleading, hstores⟩ := hstores.trimEnd isEnd_first Text.trimStart
  have hlt := hstores.length_lt_bound
  rw [id] at hlt
  rw [id, ← List.reverse_reverse (trimFront _ _)] at hstores
  obtain ⟨next, hnext, hstores⟩ := hstores.trimEnd isEnd_last Text.trimEnd
  rw [List.length_reverse] at hnext
  refine ⟨leading, next, hleading, hnext, ?_, hstores⟩
  rw [Arena.trimEdges, hleading _ hbound, ok_bind, hnext _ hlt]

theorem trimEdges (hstores : Stores arena (Place.plug (frame :: place) siblings)) :
    ∃ next, arena.trimEdges frame.id = .ok next ∧
      Stores next (Place.plug (frame :: place) siblings.trimEdges) := by
  obtain ⟨-, next, -, -, hnext, hstores⟩ := hstores.trimEnds
  exact ⟨next, hnext, hstores⟩

theorem push (hstores : Stores arena (Place.plug (frame :: place) siblings)) (data : Node) :
    ∃ id next, arena.push frame.id data = .ok (id, next) ∧
      Stores next (Place.plug (frame :: place) (siblings ++ [NumberedTree.node id data []])) := by
  obtain ⟨id, allocated, halloc, hstores⟩ := hstores.alloc data
  obtain ⟨next, hnext, hstores⟩ := hstores.append
  refine ⟨id, next, ?_, hstores⟩
  rw [NumberedTree.id_node] at hnext
  simp [Arena.push, halloc, hnext]

/-- A forest is stored below a node after the children that are there. -/
theorem graft : ∀ {arena : Arena} {frame : Frame} {place : Place} {siblings : NumberedForest}
    (forest : Forest), Stores arena (Place.plug (frame :: place) siblings) →
    ∃ next added, arena.graft frame.id forest = .ok next ∧ NumberedForest.erase added = forest ∧
      Stores next (Place.plug (frame :: place) (siblings ++ added))
  | arena, frame, place, siblings, [], hstores =>
    ⟨arena, [], by rw [Arena.graft]; rfl, erase_nil, by rwa [List.append_nil]⟩
  | arena, frame, place, siblings, .node data children :: rest, hstores => by
    obtain ⟨id, pushed, hpush, hstores⟩ := hstores.push data
    have hbelow : Stores pushed (Place.plug (⟨id, data, siblings, []⟩ :: frame :: place) []) := hstores
    obtain ⟨inner, below, hinner, hbelowErase, hstores⟩ := hbelow.graft children
    have hbeside : Stores inner
      (Place.plug (frame :: place) (siblings ++ [NumberedTree.node id data below])) := hstores
    obtain ⟨next, beside, hnext, hbesideErase, hstores⟩ := hbeside.graft rest
    refine ⟨next, .node id data below :: beside, ?_, ?_, ?_⟩
    · simp [Arena.graft, Arena.graftTree, hpush, hinner, hnext]
    · rw [erase_cons, hbelowErase, hbesideErase]
    · simpa using hstores

/-- A tree is put in the place of another. Its root keeps the number. -/
theorem overwrite {before after : NumberedForest}
    (hstores : Stores arena (Place.plug place (before ++ tree :: after))) (other : Tree) :
    ∃ next added, arena.overwrite tree.id other = .ok next ∧ added.id = tree.id ∧
      added.erase = other ∧ Stores next (Place.plug place (before ++ added :: after)) := by
  obtain ⟨data, children⟩ := other
  rw [← Place.plug_frame] at hstores
  obtain ⟨cleared, hclear, hstores⟩ := hstores.clear
  have hleaf : Stores cleared
    (Place.plug place (before ++ .node tree.id tree.data [] :: after)) := hstores
  obtain ⟨updated, hupdate, hstores⟩ := hleaf.update fun _ => data
  have hbelow : Stores updated
    (Place.plug (⟨tree.id, data, before, after⟩ :: place) []) := hstores
  obtain ⟨next, below, hnext, herase, hstores⟩ := hbelow.graft children
  refine ⟨next, .node tree.id data below, ?_, rfl, ?_, hstores⟩
  · have hclear : arena.clear tree.id = .ok cleared := hclear
    have hupdate : (cleared.update tree.id fun _ => data) = .ok updated := hupdate
    have hnext : updated.graft tree.id children = .ok next := hnext
    rw [Arena.overwrite, hclear, ok_bind]
    simp only [Tree.data, hupdate, ok_bind]
    exact hnext
  · rw [NumberedTree.erase, NumberedTree.children_node, herase]
    rfl

end Stores

end Arena

end PageMarkup
