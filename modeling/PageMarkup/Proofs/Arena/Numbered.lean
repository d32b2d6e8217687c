import Mathlib.Data.List.Perm.Basic
import PageMarkup.Tree.Basic

/-! # Numbered forests

A numbered forest is a forest whose nodes have the numbers that an arena knows them by.
A place in it is the path from a list of siblings up to the roots: what is plugged into
the place is the whole list.
-/

namespace PageMarkup

/-- A tree whose nodes are numbered. -/
inductive NumberedTree where
  | node (id : Nat) (data : Node) (children : List NumberedTree)

/-- Numbered trees side by side. -/
abbrev NumberedForest := List NumberedTree

namespace NumberedTree

/-- The number of the root of the tree. -/
def id : NumberedTree → Nat
  | .node id _ _ => id

/-- What the tree holds at its root. -/
def data : NumberedTree → Node
  | .node _ data _ => data

/-- The trees under the root of the tree. -/
def children : NumberedTree → NumberedForest
  | .node _ _ children => children

@[simp]
theorem id_node (id : Nat) (data : Node) (children : NumberedForest) :
    (node id data children).id = id := rfl

@[simp]
theorem data_node (id : Nat) (data : Node) (children : NumberedForest) :
    (node id data children).data = data := rfl

@[simp]
theorem children_node (id : Nat) (data : Node) (children : NumberedForest) :
    (node id data children).children = children := rfl

end NumberedTree

namespace NumberedForest

/-- Induction over a forest: over the children of its first tree and over the rest. -/
@[elab_as_elim]
theorem induction {motive : NumberedForest → Prop} (nil : motive [])
    (cons : ∀ id data children rest, motive children → motive rest →
      motive (.node id data children :: rest)) :
    ∀ forest, motive forest
  | [] => nil
  | .node id data children :: rest =>
    cons id data children rest (induction nil cons children) (induction nil cons rest)

/-- The numbers of a forest, every node before its children. -/
def ids : NumberedForest → List Nat
  | [] => []
  | .node id _ children :: rest => id :: (ids children ++ ids rest)

/-- What the subtrees of a forest give, every one before those below it. -/
def census {α : Type} (f : NumberedTree → List α) : NumberedForest → List α
  | [] => []
  | .node id data children :: rest =>
    f (.node id data children) ++ (census f children ++ census f rest)

/-- The numbers of the nodes of a kind. -/
def ofKind (kind : Kind) (forest : NumberedForest) : List Nat :=
  forest.census fun tree => if tree.data.kind = kind then [tree.id] else []

/-- The forest without its numbers. -/
def erase : NumberedForest → Forest
  | [] => []
  | .node _ data children :: rest => .node data (erase children) :: erase rest

/-- The number of the first tree. -/
def firstId (forest : NumberedForest) : Option Nat := forest.head?.map NumberedTree.id

/-- The number of the last tree. -/
def lastId (forest : NumberedForest) : Option Nat := forest.getLast?.map NumberedTree.id

end NumberedForest

/-- A tree without its numbers. -/
def NumberedTree.erase (tree : NumberedTree) : Tree :=
  .node tree.data (NumberedForest.erase tree.children)

@[simp]
theorem NumberedTree.data_erase (tree : NumberedTree) : tree.erase.data = tree.data := rfl

@[simp]
theorem NumberedTree.children_erase (tree : NumberedTree) :
    tree.erase.children = NumberedForest.erase tree.children := rfl

namespace NumberedForest

@[simp]
theorem ids_nil : ids [] = [] := by rw [ids]

@[simp]
theorem ids_cons (id : Nat) (data : Node) (children rest : NumberedForest) :
    ids (.node id data children :: rest) = id :: (ids children ++ ids rest) := by rw [ids]

@[simp]
theorem ids_append (first second : NumberedForest) :
    ids (first ++ second) = ids first ++ ids second := by
  induction first using induction with
  | nil => simp
  | cons id data children rest _ ih => simp [ih]

theorem ids_cons_eq (tree : NumberedTree) (rest : NumberedForest) :
    ids (tree :: rest) = tree.id :: (ids tree.children ++ ids rest) := by
  obtain ⟨id, data, children⟩ := tree
  rw [ids_cons]
  rfl

@[simp]
theorem census_nil {α : Type} (f : NumberedTree → List α) : census f [] = [] := by rw [census]

theorem census_cons {α : Type} (f : NumberedTree → List α) (id : Nat) (data : Node)
    (children rest : NumberedForest) :
    census f (.node id data children :: rest) =
      f (.node id data children) ++ (census f children ++ census f rest) := by rw [census]

@[simp]
theorem census_append {α : Type} (f : NumberedTree → List α) (first second : NumberedForest) :
    census f (first ++ second) = census f first ++ census f second := by
  induction first using induction with
  | nil => simp
  | cons id data children rest _ ih => simp [census_cons, ih]

theorem ids_eq_census (forest : NumberedForest) :
    forest.ids = forest.census fun tree => [tree.id] := by
  induction forest using NumberedForest.induction with
  | nil => simp
  | cons id data children rest ihchildren ihrest =>
      rw [ids_cons, census_cons, ihchildren, ihrest]
      rfl

@[simp]
theorem ofKind_nil (kind : Kind) : ofKind kind [] = [] := census_nil _

theorem ofKind_cons (kind : Kind) (id : Nat) (data : Node) (children rest : NumberedForest) :
    ofKind kind (.node id data children :: rest) =
      (if data.kind = kind then [id] else []) ++ (ofKind kind children ++ ofKind kind rest) :=
  census_cons ..

@[simp]
theorem erase_nil : erase [] = [] := by rw [erase]

@[simp]
theorem erase_cons (id : Nat) (data : Node) (children rest : NumberedForest) :
    erase (.node id data children :: rest) = .node data (erase children) :: erase rest := by
  rw [erase]

theorem erase_cons_eq (tree : NumberedTree) (rest : NumberedForest) :
    erase (tree :: rest) = tree.erase :: erase rest := by
  obtain ⟨id, data, children⟩ := tree
  rw [erase_cons]
  rfl

theorem erase_eq_map (forest : NumberedForest) : erase forest = forest.map NumberedTree.erase := by
  induction forest with
  | nil => exact erase_nil
  | cons tree rest ih => rw [erase_cons_eq, ih, List.map_cons]

@[simp]
theorem erase_append (first second : NumberedForest) :
    erase (first ++ second) = erase first ++ erase second := by
  induction first using induction with
  | nil => simp
  | cons id data children rest _ ih => simp [ih]

theorem erase_reverse (forest : NumberedForest) : erase forest.reverse = (erase forest).reverse := by
  induction forest with
  | nil => simp
  | cons tree rest ih => simp [erase_cons_eq, ih]

@[simp]
theorem erase_eq_nil {forest : NumberedForest} : erase forest = [] ↔ forest = [] := by
  cases forest with
  | nil => simp
  | cons tree rest =>
      obtain ⟨id, data, children⟩ := tree
      simp

@[simp]
theorem isEmpty_erase (forest : NumberedForest) : (erase forest).isEmpty = forest.isEmpty := by
  cases forest with
  | nil => simp
  | cons tree rest => simp [erase_cons_eq]

@[simp]
theorem length_erase (forest : NumberedForest) : (erase forest).length = forest.length := by
  induction forest with
  | nil => simp
  | cons tree rest ih =>
      obtain ⟨id, data, children⟩ := tree
      simp [ih]

@[simp]
theorem firstId_nil : firstId [] = none := rfl

@[simp]
theorem firstId_cons (tree : NumberedTree) (rest : NumberedForest) :
    firstId (tree :: rest) = some tree.id := rfl

@[simp]
theorem lastId_reverse (forest : NumberedForest) : lastId forest.reverse = firstId forest := by
  rw [lastId, List.getLast?_reverse]
  rfl

@[simp]
theorem firstId_append (first second : NumberedForest) :
    firstId (first ++ second) = (firstId first).or (firstId second) := by
  cases first <;> simp

@[simp]
theorem lastId_nil : lastId [] = none := rfl

@[simp]
theorem lastId_append (first second : NumberedForest) :
    lastId (first ++ second) = (lastId second).or (lastId first) := by
  rw [lastId, List.getLast?_append, Option.map_or]
  rfl

theorem lastId_cons (tree : NumberedTree) (rest : NumberedForest) :
    lastId (tree :: rest) = (lastId rest).or (some tree.id) := lastId_append [tree] rest

theorem lastId_singleton (tree : NumberedTree) : lastId [tree] = some tree.id := rfl

theorem lastId_concat (rest : NumberedForest) (tree : NumberedTree) :
    lastId (rest ++ [tree]) = some tree.id := by simp [lastId_singleton]

@[simp]
theorem lastId_eq_none {forest : NumberedForest} : lastId forest = none ↔ forest = [] := by
  rw [lastId, Option.map_eq_none_iff, List.getLast?_eq_none_iff]

theorem ids_subset_of_mem {tree : NumberedTree} {forest : NumberedForest} (hmem : tree ∈ forest) :
    ids [tree] ⊆ forest.ids := by
  obtain ⟨before, after, rfl⟩ := List.append_of_mem hmem
  intro id hid
  rw [ids_append, ← List.singleton_append, ids_append]
  exact List.mem_append_right _ (List.mem_append_left _ hid)

theorem id_mem_ids {tree : NumberedTree} {forest : NumberedForest} (hmem : tree ∈ forest) :
    tree.id ∈ forest.ids := by
  refine ids_subset_of_mem hmem ?_
  rw [ids_cons_eq]
  exact List.mem_cons_self

theorem mem_ids_of_firstId {id : Nat} {forest : NumberedForest}
    (hfirst : firstId forest = some id) : id ∈ forest.ids := by
  obtain ⟨tree, htree, rfl⟩ := Option.map_eq_some_iff.mp hfirst
  exact id_mem_ids (List.mem_of_head? htree)

theorem mem_ids_of_lastId {id : Nat} {forest : NumberedForest}
    (hlast : lastId forest = some id) : id ∈ forest.ids := by
  obtain ⟨tree, htree, rfl⟩ := Option.map_eq_some_iff.mp hlast
  exact id_mem_ids (List.mem_of_getLast? htree)

theorem ids_perm {first second : NumberedForest} (hperm : first.Perm second) :
    first.ids.Perm second.ids := by
  induction hperm with
  | nil => exact .refl _
  | cons tree _ ih =>
      rw [ids_cons_eq, ids_cons_eq]
      exact (ih.append_left _).cons _
  | swap first second rest =>
      rw [List.perm_iff_count]
      intro id
      simp only [ids_cons_eq, List.count_append, List.count_cons]
      omega
  | trans _ _ hfirst hsecond => exact hfirst.trans hsecond

end NumberedForest

@[simp]
theorem NumberedTree.isLeaf_erase (tree : NumberedTree) :
    tree.erase.isLeaf = tree.children.isEmpty := NumberedForest.isEmpty_erase _

open NumberedForest

/-- A node on the way from a list of siblings up to the roots, with the trees on either
side of it. -/
structure Frame where
  id : Nat
  data : Node
  before : NumberedForest
  after : NumberedForest

/-- The frame that a tree is for its children. -/
def NumberedTree.frame (tree : NumberedTree) (before after : NumberedForest) : Frame :=
  ⟨tree.id, tree.data, before, after⟩

/-- A place for a list of siblings: the nodes above it, the innermost first. -/
abbrev Place := List Frame

namespace Place

/-- The roots of a forest with a list of siblings at a place. -/
def plug : Place → NumberedForest → NumberedForest
  | [], forest => forest
  | frame :: place, forest =>
    plug place (frame.before ++ .node frame.id frame.data forest :: frame.after)

/-- The number of the parent of the siblings at a place, unless they are roots. -/
def parent (place : Place) : Option Nat := place.head?.map Frame.id

/-- The numbers around a place. -/
def ids : Place → List Nat
  | [] => []
  | frame :: place => frame.id :: (frame.before.ids ++ frame.after.ids ++ ids place)

@[simp]
theorem parent_cons (frame : Frame) (place : Place) :
    parent (frame :: place) = some frame.id := rfl

@[simp]
theorem plug_nil (forest : NumberedForest) : plug [] forest = forest := rfl

theorem plug_cons (frame : Frame) (place : Place) (forest : NumberedForest) :
    plug (frame :: place) forest =
      plug place (frame.before ++ .node frame.id frame.data forest :: frame.after) := rfl

/-- The children of a tree at a place are at a place of their own. -/
theorem plug_frame (place : Place) (before after : NumberedForest) (tree : NumberedTree) :
    plug (tree.frame before after :: place) tree.children = plug place (before ++ tree :: after) := by
  obtain ⟨id, data, children⟩ := tree
  rfl

/-- Some siblings stand at the same place as their first tree, with the others after it. -/
theorem plug_beside (place : Place) (before after rest : NumberedForest) (tree : NumberedTree) :
    plug place (before ++ [tree] ++ rest ++ after) = plug place (before ++ tree :: rest ++ after) := by
  simp

/-- The children of the first of some siblings are at a place of their own. -/
theorem plug_below (place : Place) (before after : NumberedForest) (id : Nat) (data : Node)
    (children rest : NumberedForest) :
    plug (⟨id, data, before, rest ++ after⟩ :: place) ([] ++ children ++ []) =
      plug place (before ++ .node id data children :: rest ++ after) := by
  simp [plug_cons]

/-- What is numbered at a place and around it is all there is. -/
theorem ids_plug (place : Place) (forest : NumberedForest) :
    (place.plug forest).ids.Perm (forest.ids ++ place.ids) := by
  induction place generalizing forest with
  | nil => simp [ids]
  | cons frame place ih =>
      rw [plug_cons]
      refine (ih _).trans ?_
      simp only [ids_append, ids_cons, ids]
      rw [List.perm_iff_count]
      intro id
      simp only [List.count_append, List.count_cons]
      omega

/-- A tree has the same numbers at a place and beside it. -/
theorem ids_plug_middle (place : Place) (before after : NumberedForest) (tree : NumberedTree) :
    (place.plug (before ++ tree :: after)).ids.Perm
      (NumberedForest.ids (tree :: place.plug (before ++ after))) := by
  rw [List.perm_iff_count]
  intro id
  rw [(ids_plug _ _).count_eq, ids_cons_eq]
  simp only [ids_append, ids_cons_eq, List.count_append, List.count_cons, (ids_plug _ _).count_eq]
  omega

/-- The place under a place. -/
theorem plug_append (inner outer : Place) (forest : NumberedForest) :
    plug (inner ++ outer) forest = plug outer (plug inner forest) := by
  induction inner generalizing forest with
  | nil => rfl
  | cons frame inner ih => exact ih _

/-- What is numbered at a place is numbered in the whole, in the same order. -/
theorem ids_sublist_plug (place : Place) (siblings : NumberedForest) :
    siblings.ids.Sublist (place.plug siblings).ids := by
  induction place generalizing siblings with
  | nil => exact .refl _
  | cons frame place ih =>
      refine .trans ?_ (ih _)
      rw [ids_append, ids_cons]
      exact ((List.sublist_append_left _ _).cons _).trans (List.sublist_append_right _ _)

/-- Everything that a census tells comes from some tree at some place. -/
theorem exists_plug {α : Type} {f : NumberedTree → List α} {found : α} {forest : NumberedForest}
    (hmem : found ∈ forest.census f) :
    ∃ (place : Place) (before : NumberedForest) (tree : NumberedTree) (after : NumberedForest),
      forest = place.plug (before ++ tree :: after) ∧ found ∈ f tree := by
  suffices hsuffix : ∀ siblings : NumberedForest,
      ∃ (place : Place) (before : NumberedForest) (tree : NumberedTree) (after : NumberedForest),
        siblings ++ forest = place.plug (before ++ tree :: after) ∧ found ∈ f tree from hsuffix []
  induction forest using induction with
  | nil => simp at hmem
  | cons other data children rest ihchildren ihrest =>
      intro siblings
      rw [census_cons, List.mem_append, List.mem_append] at hmem
      rcases hmem with hmem | hmem | hmem
      · exact ⟨[], siblings, .node other data children, rest, rfl, hmem⟩
      · obtain ⟨place, before, tree, after, hplug, hfound⟩ := ihchildren hmem []
        refine ⟨place ++ [⟨other, data, siblings, rest⟩], before, tree, after, ?_, hfound⟩
        rw [plug_append, ← hplug]
        rfl
      · obtain ⟨place, before, tree, after, hplug, hfound⟩ :=
          ihrest hmem (siblings ++ [NumberedTree.node other data children])
        exact ⟨place, before, tree, after, by simpa using hplug, hfound⟩

/-- Every number belongs to a tree at some place. -/
theorem exists_plug_of_mem {id : Nat} {forest : NumberedForest} (hmem : id ∈ forest.ids) :
    ∃ (place : Place) (before : NumberedForest) (tree : NumberedTree) (after : NumberedForest),
      forest = place.plug (before ++ tree :: after) ∧ tree.id = id := by
  rw [ids_eq_census] at hmem
  obtain ⟨place, before, tree, after, hplug, hid⟩ := exists_plug hmem
  exact ⟨place, before, tree, after, hplug, (List.mem_singleton.mp hid).symm⟩

end Place

end PageMarkup
