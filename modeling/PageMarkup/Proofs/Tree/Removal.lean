import PageMarkup.Proofs.Tree.Subtrees
import PageMarkup.Tree.Pruning

/-! # Taking out the first of some trees

Removal works along a path. The relation here says the same without one: the first
subtree that satisfies a predicate stands somewhere among its siblings, and the nodes
around it stay or go from the inside out.
-/

namespace PageMarkup

namespace Forest

/-- No subtree of the forest satisfies the predicate. -/
def Lacks (p : Tree → Bool) (forest : Forest) : Prop := ∀ tree ∈ forest.subtrees, p tree = false

/-- The first subtree that satisfies `p` is taken out of a forest. `here` takes a tree of
the forest itself. Otherwise it is below a node that is untouched on its own level
(`deeper`), loses the child (`settled`) or goes as well (`emptied`). -/
inductive RemovesFirst (p : Tree → Bool) (target : Tree) : Forest → Removal → Prop where
  | here (before after : Forest) :
      Lacks p before → p target = true →
      RemovesFirst p target (before ++ target :: after)
        { rest := before ++ after, removed := some target.data, cut := true }
  | deeper (before after : Forest) (data : Node) (children : Forest) (inner : Removal) :
      Lacks p before → p (.node data children) = false →
      RemovesFirst p target children inner → inner.cut = false →
      RemovesFirst p target (before ++ .node data children :: after)
        { inner with rest := before ++ .node data inner.rest :: after }
  | settled (before after : Forest) (data : Node) (children : Forest) (inner : Removal) :
      Lacks p before → p (.node data children) = false →
      RemovesFirst p target children inner → inner.cut = true →
      (goesWhenEmpty data = true → settle data inner.rest ≠ []) →
      RemovesFirst p target (before ++ .node data children :: after)
        { inner with
          rest := before ++ .node data (settle data inner.rest) :: after
          cut := false }
  | emptied (before after : Forest) (data : Node) (children : Forest) (inner : Removal) :
      Lacks p before → p (.node data children) = false →
      RemovesFirst p target children inner → inner.cut = true →
      goesWhenEmpty data = true → settle data inner.rest = [] →
      RemovesFirst p target (before ++ .node data children :: after)
        { inner with rest := before ++ after, emptied := inner.emptied ++ [data] }

end Forest

namespace Forest

variable {p : Tree → Bool}

theorem lacks_cons {tree : Tree} {rest : Forest} :
    Lacks p (tree :: rest) ↔
      p tree = false ∧ Lacks p tree.children ∧ Lacks p rest := by
  obtain ⟨data, children⟩ := tree
  simp [Lacks, subtrees_cons, Tree.subtrees_node, or_imp, forall_and, Tree.children]

end Forest

namespace Tree

variable {p : Tree → Bool}

mutual

theorem findPath?_eq_none {tree : Tree} (hfind : findPath? p tree = none) :
    p tree = false ∧ Forest.Lacks p tree.children := by
  obtain ⟨data, children⟩ := tree
  rw [findPath?] at hfind
  split at hfind
  next => cases hfind
  next hp => exact ⟨by simpa using hp, forestFindPath?_eq_none hfind⟩

theorem forestFindPath?_eq_none {index : Nat} {forest : Forest}
    (hfind : forestFindPath? p index forest = none) : Forest.Lacks p forest := by
  cases forest with
  | nil => simp [Forest.Lacks]
  | cons tree rest =>
      rw [forestFindPath?] at hfind
      split at hfind
      next => cases hfind
      next htree =>
        obtain ⟨hp, hchildren⟩ := findPath?_eq_none htree
        exact Forest.lacks_cons.mpr ⟨hp, hchildren, forestFindPath?_eq_none hfind⟩

end

mutual

theorem findPath?_of_lacks {tree : Tree} (htree : p tree = false)
    (hchildren : Forest.Lacks p tree.children) : findPath? p tree = none := by
  obtain ⟨data, children⟩ := tree
  rw [findPath?, if_neg (by simp [htree])]
  exact forestFindPath?_of_lacks 0 hchildren

theorem forestFindPath?_of_lacks (index : Nat) {forest : Forest} (hforest : Forest.Lacks p forest) :
    forestFindPath? p index forest = none := by
  cases forest with
  | nil => rw [forestFindPath?]
  | cons tree rest =>
      obtain ⟨htree, hchildren, hrest⟩ := Forest.lacks_cons.mp hforest
      rw [forestFindPath?, findPath?_of_lacks htree hchildren]
      exact forestFindPath?_of_lacks (index + 1) hrest

end

/-- The search passes trees that do not satisfy the predicate. -/
theorem forestFindPath?_append_of_lacks {before : Forest} (hbefore : Forest.Lacks p before)
    (index : Nat) (forest : Forest) :
    forestFindPath? p index (before ++ forest) =
      forestFindPath? p (index + before.length) forest := by
  induction before generalizing index with
  | nil => rfl
  | cons tree rest ih =>
      obtain ⟨htree, hchildren, hrest⟩ := Forest.lacks_cons.mp hbefore
      rw [List.cons_append, forestFindPath?, findPath?_of_lacks htree hchildren]
      refine (ih hrest (index + 1)).trans ?_
      rw [List.length_cons, Nat.add_assoc, Nat.add_comm 1]

/-- The search does not pass on to trees that do not satisfy the predicate. -/
theorem forestFindPath?_append {ending : Forest} (hending : Forest.Lacks p ending) (index : Nat)
    (forest : Forest) :
    forestFindPath? p index (forest ++ ending) = forestFindPath? p index forest := by
  induction forest generalizing index with
  | nil => exact forestFindPath?_of_lacks index hending
  | cons tree rest ih => rw [List.cons_append, forestFindPath?, forestFindPath?, ih]

/-- Where the path to the first subtree leads on the level of the forest. -/
theorem forestFindPath?_eq_some {index : Nat} {forest : Forest} {path : List Nat}
    (hfind : forestFindPath? p index forest = some path) :
    ∃ before tree after inner, forest = before ++ tree :: after ∧
      path = (index + before.length) :: inner ∧ Forest.Lacks p before ∧
      findPath? p tree = some inner := by
  induction forest generalizing index with
  | nil => cases hfind
  | cons tree rest ih =>
      rw [forestFindPath?] at hfind
      split at hfind
      next inner htree =>
        cases hfind
        exact ⟨[], tree, rest, inner, rfl, rfl, by simp [Forest.Lacks], htree⟩
      next htree =>
        obtain ⟨hp, hchildren⟩ := findPath?_eq_none htree
        obtain ⟨before, found, after, inner, rfl, rfl, hbefore, hfound⟩ := ih hfind
        refine ⟨tree :: before, found, after, inner, rfl, ?_,
          Forest.lacks_cons.mpr ⟨hp, hchildren, hbefore⟩, hfound⟩
        rw [List.length_cons, Nat.add_right_comm, Nat.add_assoc]

end Tree

namespace Forest

variable {p : Tree → Bool}

theorem removeAt_here (before after : Forest) (tree : Tree) :
    removeAt [before.length] (before ++ tree :: after) =
      { rest := before ++ after, removed := some tree.data, cut := true } := by
  rw [removeAt]
  simp [List.eraseIdx_append_of_length_le]

theorem removeAt_deeper {path : List Nat} (hpath : path ≠ []) (before after : Forest)
    (tree : Tree) :
    removeAt (before.length :: path) (before ++ tree :: after) =
      let inner := removeAt path tree.children
      if inner.cut then
        if goesWhenEmpty tree.data = true ∧ settle tree.data inner.rest = [] then
          { inner with rest := before ++ after, emptied := inner.emptied ++ [tree.data] }
        else
          { inner with
            rest := before ++ .node tree.data (settle tree.data inner.rest) :: after
            cut := false }
      else { inner with rest := before ++ .node tree.data inner.rest :: after } := by
  have hset : ∀ other, (before ++ tree :: after).set before.length other =
      before ++ other :: after := by simp
  have herase : (before ++ tree :: after).eraseIdx before.length = before ++ after := by
    simp [List.eraseIdx_append_of_length_le]
  rw [removeAt, List.getElem?_append_right (Nat.le_refl _), Nat.sub_self, List.getElem?_cons_zero]
  simp only [hset, herase, List.isEmpty_iff, if_neg hpath]
  obtain ⟨rest, removed, emptied, cut⟩ := removeAt path tree.children
  cases cut
  · simp
  · by_cases hgoes : goesWhenEmpty tree.data = true ∧ settle tree.data rest = []
    · simp [hgoes]
    · simp [hgoes]

/-- Removing at the path to the first subtree that satisfies `p` takes it out. -/
theorem removesFirst_of_findPath? {forest : Forest} {path : List Nat}
    (hfind : Tree.forestFindPath? p 0 forest = some path) :
    ∃ target, RemovesFirst p target forest (removeAt path forest) := by
  induction path generalizing forest with
  | nil =>
      obtain ⟨_, _, _, _, _, hpath, _⟩ := Tree.forestFindPath?_eq_some hfind
      cases hpath
  | cons index path ih =>
      obtain ⟨before, tree, after, inner, rfl, hpath, hbefore, hinner⟩ :=
        Tree.forestFindPath?_eq_some hfind
      rw [Nat.zero_add] at hpath
      obtain ⟨rfl, rfl⟩ := List.cons_eq_cons.mp hpath
      obtain ⟨data, children⟩ := tree
      rw [Tree.findPath?] at hinner
      split at hinner
      next hp =>
        cases hinner
        exact ⟨.node data children, removeAt_here .. ▸ .here before after hbefore hp⟩
      next hp =>
        have hnot : p (.node data children) = false := by simpa using hp
        have hne : path ≠ [] := by
          obtain ⟨_, _, _, _, _, hpath, _⟩ := Tree.forestFindPath?_eq_some hinner
          rw [hpath]
          exact List.cons_ne_nil _ _
        obtain ⟨target, hremoves⟩ := ih hinner
        refine ⟨target, ?_⟩
        rw [removeAt_deeper hne]
        dsimp only
        split
        next hcut =>
          split
          next hgoes =>
            exact .emptied before after data children _ hbefore hnot hremoves hcut hgoes.1 hgoes.2
          next hgoes =>
            exact .settled before after data children _ hbefore hnot hremoves hcut
              fun hempty hnil => hgoes ⟨hempty, hnil⟩
        next hcut =>
          exact .deeper before after data children _ hbefore hnot hremoves (by simpa using hcut)

/-- However often the first tree is taken out that satisfies the predicate, it is the same
once none is left. -/
theorem removeTimes_of_lacks {forest : Forest} {count other : Nat}
    (hcount : Lacks p (removeTimes p count forest).1)
    (hother : Lacks p (removeTimes p other forest).1) :
    removeTimes p count forest = removeTimes p other forest := by
  induction count generalizing forest other with
  | zero =>
      cases other with
      | zero => rfl
      | succ other =>
          have hnone := Tree.forestFindPath?_of_lacks 0 hcount
          rw [removeTimes] at hnone
          rw [removeTimes, removeTimes, hnone]
  | succ count ih =>
      cases hfind : Tree.forestFindPath? p 0 forest with
      | none => cases other <;> simp [removeTimes, hfind]
      | some path =>
          cases other with
          | zero =>
              have hnone := Tree.forestFindPath?_of_lacks 0 hother
              rw [removeTimes, hfind] at hnone
              cases hnone
          | succ other =>
              simp only [removeTimes, hfind] at hcount hother ⊢
              rw [ih hcount hother]

/-- What survives taking out the first tree survives taking out all of them. -/
theorem removeWhere_invariant {P : Forest → Prop}
    (hstep : ∀ {target forest removal}, RemovesFirst p target forest removal → P forest →
      P removal.rest) {forest : Forest} (hforest : P forest) : P (removeWhere p forest).1 := by
  rw [removeWhere]
  generalize forest.subtrees.countP p = count
  induction count generalizing forest with
  | zero => exact hforest
  | succ count ih =>
      rw [removeTimes]
      split
      next => exact hforest
      next path hfind =>
        obtain ⟨target, hremoves⟩ := removesFirst_of_findPath? hfind
        exact ih (hstep hremoves hforest)

/-- Trees at the end make no difference to what is taken out before them. -/
theorem removeAt_append {forest : Forest} {path : List Nat}
    (hfind : Tree.forestFindPath? p 0 forest = some path) (ending : Forest) :
    removeAt path (forest ++ ending) =
      { removeAt path forest with rest := (removeAt path forest).rest ++ ending } := by
  obtain ⟨before, tree, after, inner, rfl, rfl, -, -⟩ := Tree.forestFindPath?_eq_some hfind
  rw [Nat.zero_add, List.append_assoc, List.cons_append]
  by_cases hinner : inner = []
  · rw [hinner, removeAt_here, removeAt_here, List.append_assoc]
  · rw [removeAt_deeper hinner, removeAt_deeper hinner]
    dsimp only
    split
    next => split <;> simp
    next => simp

/-- Trees at the end that do not satisfy the predicate are left alone. -/
theorem removeWhere_append (forest : Forest) {ending : Forest} (hending : Lacks p ending) :
    (removeWhere p (forest ++ ending)).1 = (removeWhere p forest).1 ++ ending := by
  have hnone : ending.subtrees.countP p = 0 :=
    List.countP_eq_zero.mpr fun tree hmem => by simp [hending tree hmem]
  rw [removeWhere, removeWhere, subtrees_append, List.countP_append, hnone, Nat.add_zero]
  generalize forest.subtrees.countP p = count
  induction count generalizing forest with
  | zero => rfl
  | succ count ih =>
      rw [removeTimes, removeTimes, Tree.forestFindPath?_append hending]
      split
      next => rfl
      next path hfind =>
        dsimp only
        rw [removeAt_append hfind, ih]

end Forest

end PageMarkup
