import Mathlib.Data.List.Induction
import Mathlib.Data.List.Perm.Subperm
import PageMarkup.Proofs.Arena.Linking

/-! # Reading what an arena stores

What the operations that change nothing tell about the forest that an arena stores. Loops
over links are bounded by the number of slots, and no list of distinct nodes is longer.
-/

namespace PageMarkup

open NumberedForest

theorem Tree.textContent_leaf (data : Node) : (Tree.node data []).textContent = data.literal := by
  simp [Tree.textContent, Tree.leafTexts]

theorem Tree.textContent_node (data : Node) (child : Tree) (rest : Forest) :
    (Tree.node data (child :: rest)).textContent = Forest.textContent (child :: rest) := by
  simp [Tree.textContent, Tree.leafTexts, Forest.textContent]

theorem Forest.textContent_cons (tree : Tree) (rest : Forest) :
    Forest.textContent (tree :: rest) = tree.textContent ++ Forest.textContent rest := by
  rw [Forest.textContent, Tree.forestLeafTexts, String.join_append]
  rfl

namespace Arena

variable {α β : Type} {arena : Arena}

theorem mapM_ok {f : α → Except ArenaFault β} {g : α → β} {list : List α}
    (hf : ∀ a ∈ list, f a = .ok (g a)) : list.mapM f = .ok (list.map g) := by
  induction list with
  | nil => rfl
  | cons a rest ih =>
      obtain ⟨ha, hrest⟩ := List.forall_mem_cons.mp hf
      rw [List.mapM_cons, ha, ok_bind, ih hrest]
      rfl

theorem mapM_get {ids : List Nat} (hlive : ∀ id ∈ ids, (arena.get? id).isSome) :
    ids.mapM arena.get = .ok (ids.filterMap arena.get?) := by
  induction ids with
  | nil => rfl
  | cons id rest ih =>
      obtain ⟨hid, hrest⟩ := List.forall_mem_cons.mp hlive
      obtain ⟨cell, hcell⟩ := Option.isSome_iff_exists.mp hid
      rw [List.mapM_cons, get_eq hcell, ok_bind, ih hrest, List.filterMap_cons_some hcell]
      rfl

/-- There are no more nodes in use than slots. -/
theorem length_le_size {ids : List Nat} (hdistinct : ids.Nodup)
    (hlive : ∀ id ∈ ids, ∃ cell, arena.get? id = some cell) : ids.length ≤ arena.slots.size := by
  have hsubset : ids ⊆ List.range arena.slots.size := fun id hmem => by
    obtain ⟨cell, hcell⟩ := hlive id hmem
    exact List.mem_range.mpr (lt_size_of_get? hcell)
  have hle := (hdistinct.subperm hsubset).length_le
  rwa [List.length_range] at hle

theorem length_le_ids (forest : NumberedForest) : forest.length ≤ forest.ids.length := by
  induction forest with
  | nil => simp
  | cons tree rest ih =>
      rw [ids_cons_eq]
      simp only [List.length_cons, List.length_append]
      omega

theorem flatten_ids (forest : NumberedForest) :
    (forest.map fun tree => NumberedForest.ids [tree]).flatten = forest.ids := by
  induction forest with
  | nil => simp
  | cons tree rest ih =>
      rw [List.map_cons, List.flatten_cons, ih, ← ids_append, List.singleton_append]

/-! ## Chains -/

theorem chain_next {parent : Nat} {previous : Option Nat} {siblings : NumberedForest}
    (hlinked : Linked arena (some parent) previous none siblings) {fuel : Nat}
    (hfuel : siblings.length ≤ fuel) :
    arena.chain Cell.next fuel (firstId siblings) = .ok (siblings.map NumberedTree.id) := by
  induction siblings generalizing previous fuel with
  | nil => rw [firstId_nil, chain]; rfl
  | cons tree rest ih =>
      obtain ⟨hcell, -, hrest⟩ := linked_tree.mp hlinked
      cases fuel with
      | zero => cases hfuel
      | succ fuel =>
          have htail := ih hrest (Nat.le_of_succ_le_succ hfuel)
          simp only [beside_some, Option.or_none] at hcell
          rw [firstId_cons, chain, get_eq hcell, ok_bind]
          simp [htail]

theorem chain_previous {parent : Nat} {following : Option Nat} {siblings : NumberedForest}
    (hlinked : Linked arena (some parent) none following siblings) {fuel : Nat}
    (hfuel : siblings.length ≤ fuel) :
    arena.chain Cell.previous fuel (lastId siblings) =
      .ok (siblings.map NumberedTree.id).reverse := by
  induction siblings using List.reverseRecOn generalizing following fuel with
  | nil => rw [lastId_nil, chain]; rfl
  | append_singleton init tree ih =>
      obtain ⟨hinit, htree⟩ := linked_append.mp hlinked
      obtain ⟨hcell, -⟩ := linked_tree.mp htree
      cases fuel with
      | zero => simp at hfuel
      | succ fuel =>
          have htail := ih hinit (by simpa using hfuel)
          simp only [beside_some, Option.or_none] at hcell
          rw [lastId_concat, chain, get_eq hcell, ok_bind]
          simp [htail]

namespace Stores

variable {roots siblings before after : NumberedForest} {tree : NumberedTree} {frame : Frame}
  {place : Place}

theorem length_ids_le (hstores : Stores arena roots) : roots.ids.length ≤ arena.slots.size :=
  length_le_size hstores.distinct fun _ hmem => hstores.exists_cell hmem

theorem length_siblings_le (hstores : Stores arena (Place.plug place siblings)) :
    siblings.ids.length ≤ arena.slots.size := by
  have hle := hstores.length_ids_le
  rw [(Place.ids_plug place siblings).length_eq, List.length_append] at hle
  omega

theorem children (hstores : Stores arena (Place.plug (frame :: place) siblings)) :
    arena.children frame.id = .ok (siblings.map NumberedTree.id) := by
  have hlength := length_le_ids siblings
  have hle := hstores.length_siblings_le
  rw [Arena.children, get_eq (get?_parent hstores.linked), ok_bind]
  exact chain_next (linked_plug.mp hstores.linked).2 (by rw [bound]; omega)

theorem childrenBackward (hstores : Stores arena (Place.plug (frame :: place) siblings)) :
    arena.childrenBackward frame.id = .ok (siblings.map NumberedTree.id).reverse := by
  have hlength := length_le_ids siblings
  have hle := hstores.length_siblings_le
  rw [Arena.childrenBackward, get_eq (get?_parent hstores.linked), ok_bind]
  exact chain_previous (linked_plug.mp hstores.linked).2 (by rw [bound]; omega)

theorem children_of (hstores : Stores arena (Place.plug place (before ++ tree :: after))) :
    arena.children tree.id = .ok (tree.children.map NumberedTree.id) := by
  rw [← Place.plug_frame] at hstores
  exact hstores.children

/-! ## Subtrees -/

/-- Below some siblings lies what their trees number, as long as the depth allows for it. -/
theorem mapM_descendantsWithin (depth : Nat)
    (hstores : Stores arena (Place.plug place (before ++ siblings ++ after)))
    (hdepth : siblings.ids.length ≤ depth) :
    (siblings.map NumberedTree.id).mapM (arena.descendantsWithin depth) =
      .ok (siblings.map fun tree => NumberedForest.ids [tree]) := by
  induction siblings using NumberedForest.induction generalizing place before after depth with
  | nil => rfl
  | cons id data children rest ihchildren ihrest =>
      rw [ids_cons, List.length_cons, List.length_append] at hdepth
      have hbeside : Stores arena
          (Place.plug place (before ++ [NumberedTree.node id data children] ++ rest ++ after)) := by
        simpa using hstores
      have hrest := ihrest depth hbeside (by omega)
      obtain ⟨depth, rfl⟩ : ∃ smaller, depth = smaller + 1 := ⟨depth - 1, by omega⟩
      have hbelow : Stores arena
          (Place.plug (⟨id, data, before, rest ++ after⟩ :: place) ([] ++ children ++ [])) := by
        simpa [Place.plug_cons] using hstores
      have hchildren := ihchildren depth hbelow (by omega)
      have hbackward := hbelow.childrenBackward
      simp only [List.nil_append, List.append_nil] at hbackward
      rw [List.map_cons, List.mapM_cons, hrest, NumberedTree.id_node, descendantsWithin, hbackward,
        ok_bind, List.reverse_reverse]
      simp [hchildren, flatten_ids]

/-- Descendants are the numbers of the tree at a node. -/
theorem descendants (hstores : Stores arena (Place.plug place (before ++ tree :: after))) :
    arena.descendants tree.id = .ok (NumberedForest.ids [tree]) := by
  rw [← List.singleton_append, ← List.append_assoc] at hstores
  have hlength : (NumberedForest.ids [tree]).length ≤ arena.bound := by
    have hle := hstores.length_siblings_le
    rw [ids_append, ids_append, List.length_append, List.length_append] at hle
    rw [bound]
    omega
  have hmap := hstores.mapM_descendantsWithin _ hlength
  rw [List.map_singleton, List.mapM_cons] at hmap
  rw [Arena.descendants]
  cases hfound : arena.descendantsWithin arena.bound tree.id with
  | error fault =>
      rw [hfound] at hmap
      cases hmap
  | ok ids =>
      rw [hfound] at hmap
      simpa using hmap

theorem descendants_top {tree : NumberedTree} (hstores : Stores arena [tree]) :
    arena.descendants tree.id = .ok (NumberedForest.ids [tree]) := by
  have hplug : Stores arena (Place.plug [] ([] ++ tree :: [])) := hstores
  exact hplug.descendants

/-! ## Cells -/

/-- What the cell of a node tells about the tree at the node. -/
theorem exists_get (hstores : Stores arena (Place.plug place (before ++ tree :: after))) :
    ∃ cell, arena.get tree.id = .ok cell ∧ cell.data = tree.data ∧
      cell.parent = Place.parent place ∧ cell.isLeaf = tree.children.isEmpty := by
  refine ⟨_, get_eq (get?_sibling hstores.linked), rfl, rfl, ?_⟩
  cases tree.children <;> simp [Cell.isLeaf]

end Stores

namespace Linked

variable {parent previous following : Option Nat} {forest : NumberedForest}

theorem mapM_get (hlinked : Linked arena parent previous following forest) :
    forest.ids.mapM arena.get = .ok (forest.ids.filterMap arena.get?) :=
  Arena.mapM_get fun _ hmem => Option.isSome_iff_exists.mpr (hlinked.get?_of_mem hmem)

/-- The cells of siblings hold what the siblings hold. -/
theorem exists_cells (hlinked : Linked arena parent previous following forest) :
    ∃ cells, (forest.map NumberedTree.id).mapM arena.get = .ok cells ∧
      cells.map Cell.data = forest.map NumberedTree.data := by
  induction forest generalizing previous with
  | nil => exact ⟨[], rfl, rfl⟩
  | cons tree rest ih =>
      obtain ⟨htree, -, hrest⟩ := linked_tree.mp hlinked
      obtain ⟨cell, hcell, hroot⟩ : ∃ cell, arena.get? tree.id = some cell ∧
        cell.data = tree.data := ⟨_, htree, rfl⟩
      obtain ⟨cells, hcells, hdata⟩ := ih hrest
      refine ⟨cell :: cells, ?_, ?_⟩
      · rw [List.map_cons, List.mapM_cons, get_eq hcell, ok_bind, hcells]
        rfl
      · rw [List.map_cons, List.map_cons, hroot, hdata]

/-- The cells of a forest hold its nodes. -/
theorem data_cells (hlinked : Linked arena parent previous following forest) :
    (forest.ids.filterMap arena.get?).map Cell.data = forest.erase.preorder := by
  induction forest using NumberedForest.induction generalizing parent previous following with
  | nil => simp [Forest.preorder, Tree.forestPreorder]
  | cons id data children rest ihchildren ihrest =>
      obtain ⟨hcell, hchildren, hrest⟩ := linked_cons.mp hlinked
      rw [ids_cons, List.filterMap_cons_some hcell, List.filterMap_append, List.map_cons,
        List.map_append, ihchildren hchildren, ihrest hrest, erase_cons]
      simp [Forest.preorder, Tree.forestPreorder, Tree.preorder]

/-- The cells of a forest hold its text. -/
theorem text_cells (hlinked : Linked arena parent previous following forest) :
    String.join ((forest.ids.filterMap arena.get?).map leafText) = forest.erase.textContent := by
  induction forest using NumberedForest.induction generalizing parent previous following with
  | nil => simp [Forest.textContent, Tree.forestLeafTexts]
  | cons id data children rest ihchildren ihrest =>
      obtain ⟨hcell, hchildren, hrest⟩ := linked_cons.mp hlinked
      rw [ids_cons, List.filterMap_cons_some hcell, List.filterMap_append, List.map_cons,
        List.map_append, String.join_cons, String.join_append, ihchildren hchildren, ihrest hrest,
        erase_cons, Forest.textContent_cons, ← String.append_assoc]
      congr 1
      cases children with
      | nil =>
          rw [erase_nil, Tree.textContent_leaf]
          simp [leafText, Cell.isLeaf, Forest.textContent, Tree.forestLeafTexts]
      | cons tree others =>
          rw [erase_cons_eq, Tree.textContent_node]
          simp [leafText, Cell.isLeaf]

end Linked

namespace Stores

variable {siblings before after : NumberedForest} {tree : NumberedTree} {place : Place}

theorem mapM_get (hstores : Stores arena siblings) :
    siblings.ids.mapM arena.get = .ok (siblings.ids.filterMap arena.get?) :=
  hstores.linked.mapM_get

theorem textContent (hstores : Stores arena (Place.plug place (before ++ tree :: after))) :
    arena.textContent tree.id =
      .ok tree.erase.textContent := by
  have htree := (linked_append.mp (linked_plug.mp hstores.linked).2).2
  rw [← List.singleton_append, linked_append] at htree
  rw [Arena.textContent, hstores.descendants, ok_bind, htree.1.mapM_get, ok_bind,
    htree.1.text_cells, erase_cons_eq, Forest.textContent_cons]
  simp [Forest.textContent, Tree.forestLeafTexts]

end Stores

end Arena

end PageMarkup
