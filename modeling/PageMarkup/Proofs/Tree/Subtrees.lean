import PageMarkup.Tree.Basic

/-! # Subtrees in document order

The subtrees of a forest that satisfy a predicate form a list in preorder. Forests in a
row give their lists in a row, and a tree gives itself, if it satisfies the predicate,
and then what is below it.
-/

namespace PageMarkup

namespace Tree

variable (data : Node) (children : Forest)

@[simp]
theorem data_node : (node data children).data = data := rfl

@[simp]
theorem children_node : (node data children).children = children := rfl

@[simp]
theorem kind_node : (node data children).kind = data.kind := rfl

end Tree

namespace Forest

theorem subtrees_cons (tree : Tree) (rest : Forest) :
    subtrees (tree :: rest) = tree.subtrees ++ subtrees rest := by
  rw [subtrees, Tree.forestSubtrees]
  rfl

@[simp]
theorem subtrees_nil : subtrees [] = [] := by
  rw [subtrees, Tree.forestSubtrees]

@[simp]
theorem subtrees_append (first second : Forest) :
    subtrees (first ++ second) = subtrees first ++ subtrees second := by
  induction first with
  | nil => simp
  | cons tree rest ih => simp [subtrees_cons, ih]

theorem mem_subtrees {forest : Forest} {tree : Tree} :
    tree ∈ forest.subtrees ↔ ∃ top ∈ forest, tree ∈ top.subtrees := by
  induction forest with
  | nil => simp
  | cons top rest ih => simp [subtrees_cons, ih]

end Forest

theorem Tree.subtrees_node (data : Node) (children : Forest) :
    (Tree.node data children).subtrees = .node data children :: children.subtrees := by
  rw [Tree.subtrees]
  rfl

namespace Forest

/-- The subtrees that satisfy the predicate, in document order. -/
def matching (p : Tree → Bool) (forest : Forest) : Forest := forest.subtrees.filter p

variable {p : Tree → Bool}

theorem mem_matching {forest : Forest} {tree : Tree} :
    tree ∈ forest.matching p ↔ tree ∈ forest.subtrees ∧ p tree = true := List.mem_filter

@[simp]
theorem matching_nil : matching p [] = [] := by simp [matching]

@[simp]
theorem matching_append (first second : Forest) :
    matching p (first ++ second) = matching p first ++ matching p second := by
  simp [matching]

theorem matching_cons (tree : Tree) (rest : Forest) :
    matching p (tree :: rest) =
      (if p tree then [tree] else []) ++ (matching p tree.children ++ matching p rest) := by
  obtain ⟨data, children⟩ := tree
  rw [matching, subtrees_cons, Tree.subtrees_node, List.cons_append, List.filter_cons]
  split <;> simp [matching, Tree.children]

/-- A tree and what follows it, one after the other. -/
theorem matching_singleton_append (tree : Tree) (rest : Forest) :
    matching p (tree :: rest) = matching p [tree] ++ matching p rest := by
  rw [← matching_append, List.singleton_append]

end Forest

end PageMarkup
