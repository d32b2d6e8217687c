import PageMarkup.Proofs.Arena.Moving
import PageMarkup.Tree.Structure

/-! # Checking in an arena

The structure is checked node by node in document order, and the first fault that is
found is the first of the faults of the forest.
-/

namespace PageMarkup

open NumberedForest

namespace Arena

variable {arena : Arena} {frame : Frame} {place : Place}
  {before after siblings : NumberedForest} {tree : NumberedTree}

theorem find?_cells {cells : List Cell} (hdata : cells.map Cell.data = siblings.map NumberedTree.data)
    (p : Kind → Bool) {α : Type} (f : Node → α) :
    (cells.find? (p ·.data.kind)).map (f ·.data) =
      (siblings.erase.find? (p ·.kind)).map (f ·.data) := by
  induction cells generalizing siblings with
  | nil =>
      obtain rfl : siblings = [] := by simpa using hdata.symm
      rw [erase_nil]
      rfl
  | cons cell rest ih =>
      cases siblings with
      | nil => cases hdata
      | cons tree others =>
          obtain ⟨hhead, htail⟩ := List.cons_eq_cons.mp hdata
          rw [erase_cons_eq, List.find?_cons, List.find?_cons, Tree.kind, NumberedTree.data_erase,
            ← hhead]
          split
          next => rw [Option.map_some, Option.map_some, NumberedTree.data_erase, hhead]
          next => exact ih htail

theorem isSingleText_iff {cells : List Cell}
    (hdata : cells.map Cell.data = siblings.map NumberedTree.data) :
    (cells.length = 1 ∧ cells.all (·.data.kind == .text)) ↔ Tree.isSingleText siblings.erase := by
  have hlength := congrArg List.length hdata
  rw [List.length_map, List.length_map] at hlength
  match siblings with
  | [] => simp [Tree.isSingleText, hlength]
  | tree :: next :: others => simp [Tree.isSingleText, erase_cons_eq, hlength]
  | [tree] =>
      obtain ⟨cell, rfl⟩ := List.length_eq_one_iff.mp hlength
      have hhead := (List.cons_eq_cons.mp hdata).1
      simp [Tree.isSingleText, erase_cons_eq, Tree.kind, hhead]

namespace Stores

/-- The fault at a node is the first of the faults of the tree there. -/
theorem faultAt (hstores : Stores arena (Place.plug place (before ++ tree :: after)))
    {atRoot : Bool} (hroot : Place.parent place = some root ↔ atRoot = true) :
    arena.faultAt tree.id = .ok (tree.erase.ownFaults atRoot).head? := by
  obtain ⟨cell, hcell, hdata, hparent, hleaf⟩ := hstores.exists_get
  have hbelow := hstores
  rw [← Place.plug_frame] at hbelow
  obtain ⟨cells, hcells, hdatas⟩ := (linked_plug.mp hbelow.linked).2.exists_cells
  have hkind : tree.erase.kind = tree.data.kind := rfl
  have hnot : Place.parent place ≠ some root ↔ ¬ atRoot = true := not_congr hroot
  simp only [Arena.faultAt, hcell, hstores.children_of, hcells, ok_bind, pure_eq_ok,
    isSingleText_iff hdatas, hdata, hparent, hleaf, hnot,
    find?_cells hdatas Kind.canHaveChildren fun data =>
      Fault.nestedAggregate tree.data.kind.name data.kind.name data.offset]
  simp only [Tree.ownFaults, Tree.arityFault?, Tree.placeFault?, Tree.nestingFault?, hkind,
    NumberedTree.isLeaf_erase, NumberedTree.children_erase, NumberedTree.data_erase]
  split
  next => simp
  next =>
    split
    next => rfl
    next =>
      split
      next => cases tree.children.erase.find? (·.kind.canHaveChildren) <;> rfl
      next => rfl

/-- What stands at a place is none of what is around it. -/
theorem not_mem_place (hstores : Stores arena (Place.plug place siblings)) {id : Nat}
    (hmem : id ∈ siblings.ids) : id ∉ place.ids := by
  intro hplace
  have hdistinct := (Place.ids_plug place siblings).nodup_iff.mp hstores.distinct
  exact (List.nodup_append.mp hdistinct).2.2 id hmem id hplace rfl

/-- Checking the nodes of some siblings finds the first of their faults, and goes on with
the other nodes if there is none. -/
theorem firstFault (hstores : Stores arena (Place.plug place (before ++ siblings ++ after)))
    (hplace : root ∈ place.ids) {atRoot : Bool}
    (hroot : Place.parent place = some root ↔ atRoot = true) (more : List Nat) :
    arena.firstFault (siblings.ids ++ more) =
      match Tree.forestFaults atRoot siblings.erase with
      | [] => arena.firstFault more
      | fault :: _ => .ok (some fault) := by
  induction siblings using NumberedForest.induction
    generalizing place before after atRoot more with
  | nil => simp [Tree.forestFaults]
  | cons id data children rest ihchildren ihrest =>
      have hnode : Stores arena
          (Place.plug place (before ++ .node id data children :: (rest ++ after))) := by
        simpa using hstores
      have hbelow : Stores arena
          (Place.plug (⟨id, data, before, rest ++ after⟩ :: place) ([] ++ children ++ [])) := by
        simpa [Place.plug_cons] using hnode
      have hbeside : Stores arena
          (Place.plug place (before ++ [NumberedTree.node id data children] ++ rest ++ after)) := by
        simpa using hstores
      have hne : id ≠ root := fun heq => hnode.not_mem_place (by simp) (heq ▸ hplace)
      have hdeeper : Place.parent (⟨id, data, before, rest ++ after⟩ :: place) = some root ↔
          false = true := by
        simpa using hne
      have hmem : root ∈ Place.ids (⟨id, data, before, rest ++ after⟩ :: place) := by
        simp [Place.ids, hplace]
      have hown := hnode.faultAt hroot
      rw [NumberedTree.id_node] at hown
      simp only [ids_cons, List.cons_append, List.append_assoc, Arena.firstFault, hown, ok_bind,
        ihchildren hbelow hmem hdeeper, ihrest hbeside hplace hroot, erase_cons, Tree.forestFaults,
        Tree.faults]
      have herase : Tree.ownFaults atRoot (.node data children.erase) =
        (NumberedTree.node id data children).erase.ownFaults atRoot := rfl
      rw [herase]
      cases (NumberedTree.node id data children).erase.ownFaults atRoot with
      | cons fault faults => rfl
      | nil =>
          cases Tree.forestFaults false children.erase with
          | cons fault faults => rfl
          | nil => rfl

end Stores

/-- The check of an arena finds the first fault of the forest in it. -/
theorem Holds.check {forest : NumberedForest} (hholds : Holds arena forest) :
    arena.check = .ok (Tree.forestFaults true forest.erase).head? := by
  have htop : Stores arena (Place.plug []
      ([] ++ NumberedTree.node root { kind := .documentRoot } forest :: [])) :=
    hholds
  have hbelow : Stores arena (Place.plug [top] ([] ++ forest ++ [])) := by simpa using hholds
  have hroot : Place.parent [top] = some root ↔ true = true := by simp [top]
  have hfaults := hbelow.firstFault (by simp [Place.ids, top]) hroot []
  have hdescendants := htop.descendants
  rw [NumberedTree.id_node] at hdescendants
  rw [Arena.check, hdescendants, ok_bind]
  simp only [ids_cons, ids_nil, List.append_nil, List.tail_cons] at hfaults ⊢
  rw [hfaults]
  cases Tree.forestFaults true forest.erase <;> rfl

end Arena

end PageMarkup
