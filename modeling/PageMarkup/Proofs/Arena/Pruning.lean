import PageMarkup.Proofs.Arena.Visiting

/-! # Pruning an arena

A sweep over the nodes, the last one of the document first, removes each that must have
children and has none. When the turn of a node comes, what is below it has been swept, so
it goes exactly if all the nodes below it must have children as well: then it is hollow,
and nothing in it could be shown.
-/

namespace PageMarkup

namespace NumberedForest

/-- The trees of a forest and those below them, every one before those below it. -/
def subtrees (forest : NumberedForest) : List NumberedTree := forest.census fun tree => [tree]

@[simp]
theorem subtrees_nil : subtrees [] = [] := census_nil _

@[simp]
theorem subtrees_cons (id : Nat) (data : Node) (children rest : NumberedForest) :
    subtrees (.node id data children :: rest) =
      .node id data children :: (subtrees children ++ subtrees rest) := census_cons ..

@[simp]
theorem subtrees_append (first second : NumberedForest) :
    subtrees (first ++ second) = subtrees first ++ subtrees second := census_append ..

theorem map_id_subtrees (forest : NumberedForest) :
    forest.subtrees.map NumberedTree.id = forest.ids := by
  induction forest using NumberedForest.induction with
  | nil => simp
  | cons id data children rest ihchildren ihrest => simp [ihchildren, ihrest]

theorem mem_ids_iff {forest : NumberedForest} {id : Nat} :
    id ∈ forest.ids ↔ ∃ tree ∈ forest.subtrees, tree.id = id := by
  rw [← map_id_subtrees, List.mem_map]

theorem subtrees_of_mem {forest : NumberedForest} {tree : NumberedTree}
    (hmem : tree ∈ forest.subtrees) : subtrees [tree] ⊆ forest.subtrees := by
  induction forest using NumberedForest.induction with
  | nil => simp at hmem
  | cons id data children rest ihchildren ihrest =>
      intro below hbelow
      rw [subtrees_cons, List.mem_cons, List.mem_append] at hmem
      rw [← List.singleton_append, subtrees_append, List.mem_append]
      rcases hmem with rfl | hmem | hmem
      · exact .inl hbelow
      · left
        rw [subtrees_cons, List.mem_cons, List.mem_append]
        exact .inr (.inl (ihchildren hmem hbelow))
      · exact .inr (ihrest hmem hbelow)

end NumberedForest

open NumberedForest

/-- A tree is hollow if each of its nodes must have children. -/
def NumberedTree.isHollow (tree : NumberedTree) : Bool :=
  (subtrees [tree]).all fun below => below.data.kind.needsChildren

theorem NumberedTree.isHollow_node (id : Nat) (data : Node) (children : NumberedForest) :
    (node id data children).isHollow =
      (data.kind.needsChildren &&
        children.subtrees.all fun below => below.data.kind.needsChildren) := by
  simp [isHollow]

/-- What is in a hollow tree is hollow. -/
theorem NumberedTree.isHollow_of_mem {tree below : NumberedTree} (hhollow : tree.isHollow)
    (hmem : below ∈ subtrees [tree]) : below.isHollow := by
  rw [isHollow, List.all_eq_true] at hhollow ⊢
  exact fun other hother => hhollow other (subtrees_of_mem hmem hother)

namespace NumberedForest

/-- What is left of a forest without its hollow trees. -/
def pruned : NumberedForest → NumberedForest
  | [] => []
  | .node id data children :: rest =>
    (if (NumberedTree.node id data children).isHollow then []
      else [.node id data (pruned children)]) ++ pruned rest

/-- The hollow trees of a forest, every one before those below it. -/
def hollows (forest : NumberedForest) : List NumberedTree :=
  forest.subtrees.filter NumberedTree.isHollow

variable {forest : NumberedForest} {id : Nat} {data : Node} {children rest : NumberedForest}

@[simp]
theorem pruned_nil : pruned [] = [] := by rw [pruned]

theorem pruned_of_hollow (hhollow : (NumberedTree.node id data children).isHollow) :
    pruned (.node id data children :: rest) = pruned rest := by
  rw [pruned, if_pos hhollow, List.nil_append]

theorem pruned_of_full (hfull : ¬ (NumberedTree.node id data children).isHollow) :
    pruned (.node id data children :: rest) = .node id data (pruned children) :: pruned rest := by
  rw [pruned, if_neg hfull, List.singleton_append]

@[simp]
theorem hollows_nil : hollows [] = [] := by simp [hollows]

theorem hollows_cons (tree : NumberedTree) (rest : NumberedForest) :
    hollows (tree :: rest) =
      (if tree.isHollow then [tree] else []) ++ (hollows tree.children ++ hollows rest) := by
  obtain ⟨id, data, children⟩ := tree
  rw [hollows, subtrees_cons, List.filter_cons, List.filter_append]
  split <;> simp [hollows]

/-- Nothing is left of a forest of nodes that all must have children. -/
theorem pruned_eq_nil :
    pruned forest = [] ↔ forest.subtrees.all (fun below => below.data.kind.needsChildren) := by
  induction forest using NumberedForest.induction with
  | nil => simp
  | cons id data children rest _ ihrest =>
      rw [subtrees_cons, List.all_cons, List.all_append, ← Bool.and_assoc, NumberedTree.data_node,
        ← NumberedTree.isHollow_node id]
      by_cases hhollow : (NumberedTree.node id data children).isHollow
      · rw [pruned_of_hollow hhollow, ihrest, hhollow, Bool.true_and]
      · rw [pruned_of_full hhollow]
        simp [hhollow]

/-- A tree is hollow if its root must have children and none of them is left. -/
theorem isHollow_iff (id : Nat) :
    (NumberedTree.node id data children).isHollow ↔
      data.kind.needsChildren ∧ children.pruned = [] := by
  rw [NumberedTree.isHollow_node, Bool.and_eq_true, pruned_eq_nil]

/-- The numbers make no difference for what is left, nor for the warnings. -/
theorem forestPruneEmpty_erase (forest : NumberedForest) :
    Tree.forestPruneEmpty forest.erase =
      (forest.pruned.erase, forest.hollows.reverse.map fun tree => tree.data.emptyNotice) := by
  induction forest using NumberedForest.induction with
  | nil => simp [Tree.forestPruneEmpty]
  | cons id data children rest ihchildren ihrest =>
      simp only [erase_cons, Tree.forestPruneEmpty, Tree.pruneEmpty, ihchildren, ihrest,
        hollows_cons, NumberedTree.children_node, isEmpty_erase, List.isEmpty_iff,
        ← isHollow_iff id]
      by_cases hhollow : (NumberedTree.node id data children).isHollow
      · simp [hhollow, pruned_of_hollow]
      · simp [hhollow, pruned_of_full]

/-- After pruning a node that must have children has some. -/
theorem children_of_mem_pruned {tree : NumberedTree} (hmem : tree ∈ forest.pruned.subtrees)
    (hneeds : tree.data.kind.needsChildren) : tree.children ≠ [] := by
  induction forest using NumberedForest.induction with
  | nil => simp at hmem
  | cons id data children rest ihchildren ihrest =>
      by_cases hhollow : (NumberedTree.node id data children).isHollow
      · rw [pruned_of_hollow hhollow] at hmem
        exact ihrest hmem
      · rw [pruned_of_full hhollow, subtrees_cons, List.mem_cons, List.mem_append] at hmem
        rcases hmem with rfl | hmem | hmem
        · exact fun hnil => hhollow ((isHollow_iff id).mpr ⟨hneeds, hnil⟩)
        · exact ihchildren hmem
        · exact ihrest hmem

end NumberedForest

namespace Arena

variable {arena : Arena} {place : Place} {before after siblings forest : NumberedForest}
  {tree : NumberedTree}

namespace Stores

theorem pruneAt_of_empty (hstores : Stores arena (Place.plug place (before ++ tree :: after)))
    (hempty : tree.data.kind.needsChildren ∧ tree.children = []) :
    ∃ next, arena.pruneAt tree.id = .ok (next, [tree.data.emptyNotice]) ∧
      Stores next (Place.plug place (before ++ after)) := by
  obtain ⟨cell, hcell, hdata, -, hleaf⟩ := hstores.exists_get
  obtain ⟨next, hremove, hstores⟩ := hstores.remove
  refine ⟨next, ?_, hstores⟩
  rw [Arena.pruneAt, hcell, ok_bind, hdata, hleaf, if_pos (by simpa using hempty), hremove]
  rfl

theorem pruneAt_of_not_empty (hstores : Stores arena (Place.plug place (before ++ tree :: after)))
    (hfull : ¬ (tree.data.kind.needsChildren ∧ tree.children = [])) :
    arena.pruneAt tree.id = .ok (arena, []) := by
  obtain ⟨cell, hcell, hdata, -, hleaf⟩ := hstores.exists_get
  rw [Arena.pruneAt, hcell, ok_bind, hdata, hleaf, if_neg (by simpa using hfull)]
  rfl

/-- Pruning the nodes of some siblings, the last one first, removes the hollow ones. -/
theorem visit_pruneAt
    (hstores : Stores arena (Place.plug place (before ++ siblings ++ after))) :
    ∃ next, arena.visit Arena.pruneAt siblings.ids.reverse =
        .ok (next, siblings.hollows.reverse.map fun tree => tree.data.emptyNotice) ∧
      Stores next (Place.plug place (before ++ siblings.pruned ++ after)) := by
  -- The siblings after a node come first, then what is below it, and then the node itself, which
  -- by then has the children that are left of it.
  induction siblings using NumberedForest.induction generalizing arena place before after with
  | nil => exact ⟨arena, by simp, by simpa using hstores⟩
  | cons id data children rest ihchildren ihrest =>
      rw [← Place.plug_beside] at hstores
      obtain ⟨pruned, hvisitRest, hstores⟩ := ihrest hstores
      rw [Place.plug_beside, ← Place.plug_below] at hstores
      obtain ⟨lower, hvisit, hstores⟩ := ihchildren hstores
      rw [Place.plug_below, List.append_assoc] at hstores
      have hvisited := visit_append hvisitRest hvisit
      rw [ids_cons, List.reverse_cons, List.reverse_append, hollows_cons]
      by_cases hhollow : (NumberedTree.node id data children).isHollow
      · obtain ⟨next, hprune, hstores⟩ := hstores.pruneAt_of_empty ((isHollow_iff id).mp hhollow)
        refine ⟨next, ?_, by simpa [pruned_of_hollow hhollow] using hstores⟩
        refine (visit_append hvisited (visit_singleton hprune)).trans ?_
        simp [hhollow]
      · have hprune := hstores.pruneAt_of_not_empty (hhollow ∘ (isHollow_iff id).mpr)
        refine ⟨lower, ?_, by simpa [pruned_of_full hhollow] using hstores⟩
        refine (visit_append hvisited (visit_singleton hprune)).trans ?_
        simp [hhollow]

end Stores

/-- Pruning an arena prunes the forest in it. -/
theorem Holds.pruneEmpty (hholds : Holds arena forest) :
    ∃ next kept, arena.pruneEmpty = .ok (next, forest.erase.pruneEmpty.2) ∧
      NumberedForest.erase kept = forest.erase.pruneEmpty.1 ∧ Holds next kept := by
  obtain ⟨next, hvisit, hstores⟩ := hholds.belowRoot.visit_pruneAt
  have hnext : Holds next forest.pruned := by simpa using hstores
  have hroot : next.pruneAt root = .ok (next, []) := hnext.atRoot.pruneAt_of_not_empty nofun
  rw [Forest.pruneEmpty, forestPruneEmpty_erase]
  refine ⟨next, forest.pruned, ?_, rfl, hnext⟩
  rw [Arena.pruneEmpty, hholds.descendants, ok_bind, List.reverse_cons,
    visit_append hvisit (visit_singleton hroot), List.append_nil]

end Arena

end PageMarkup
