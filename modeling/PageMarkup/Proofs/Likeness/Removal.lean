import PageMarkup.Proofs.Likeness.Blocks
import PageMarkup.Proofs.Tree.Rules

/-! # Likeness under removal

A predicate that cannot tell alike trees apart finds the same path in forests that are
alike. Taking the subtrees there out empties the same ancestors and leaves forests that
are alike. The predicate is asked only about trees that obey a rule.
-/

namespace PageMarkup

variable {L : Likeness} {C : String → String → Prop} {rule : Rule}

/-- The predicate answers the same for alike trees, as far as they obey the rule. -/
def Tree.Agrees (L : Likeness) (C : String → String → Prop) (rule : Rule) (p : Tree → Bool) :
    Prop :=
  ∀ {tree other : Tree}, tree.Obeys rule → tree.Like L C other → p tree = p other

/-- Removals with the same outcome from forests that are alike. -/
structure Removal.Like (L : Likeness) (C : String → String → Prop) (removal other : Removal) :
    Prop where
  rest : Forest.Like L C removal.rest other.rest
  removed : Option.Rel (Node.Like L C) removal.removed other.removed
  emptied : List.Forall₂ (Node.Like L C) removal.emptied other.emptied
  cut : removal.cut = other.cut

theorem Removal.Like.notices {removal other : Removal} (hlike : removal.Like L C other) :
    Notice.Like L removal.notices other.notices := by
  intro hplaced
  unfold Removal.notices
  have hemptied := hlike.emptied
  generalize removal.emptied = emptied, other.emptied = emptied' at hemptied
  induction hemptied with
  | nil => rfl
  | @cons data other _ _ hdata _ ih =>
      have hnotice : data.emptiedNotice? = other.emptiedNotice? := by
        simp [Node.emptiedNotice?, Node.emptyNotice, hdata.kind, hdata.offset hplaced]
      rw [List.filterMap_cons, List.filterMap_cons, hnotice, ih]

section Lists

variable {α β : Type} {R : α → β → Prop} {xs : List α} {ys : List β}

theorem Forest.rel_getElem? (hlists : List.Forall₂ R xs ys) (index : Nat) :
    Option.Rel R xs[index]? ys[index]? := by
  induction hlists generalizing index with
  | nil => exact .none
  | cons hhead _ ih =>
      cases index with
      | zero => exact .some hhead
      | succ index => exact ih index

theorem Forest.rel_eraseIdx (hlists : List.Forall₂ R xs ys) (index : Nat) :
    List.Forall₂ R (xs.eraseIdx index) (ys.eraseIdx index) := by
  induction hlists generalizing index with
  | nil => exact .nil
  | cons hhead hrest ih =>
      cases index with
      | zero => exact hrest
      | succ index => exact .cons hhead (ih index)

theorem Forest.rel_set (hlists : List.Forall₂ R xs ys) (index : Nat) {x : α} {y : β}
    (hset : R x y) : List.Forall₂ R (xs.set index x) (ys.set index y) := by
  induction hlists generalizing index with
  | nil => exact .nil
  | cons hhead hrest ih =>
      cases index with
      | zero => exact .cons hset hrest
      | succ index => exact .cons hhead (ih index)

end Lists

variable {p : Tree → Bool}

mutual

/-- Corresponding subtrees satisfy the predicate on both sides. -/
theorem Tree.Like.matching (hp : Agrees L C rule p) {tree other : Tree} (htree : tree.Obeys rule)
    (hlike : tree.Like L C other) :
    Forest.Like L C (Forest.matching p [tree]) (Forest.matching p [other]) := by
  cases tree with
  | node data children =>
      have hchildren := htree.children
      have hagree := hp htree hlike
      cases hlike with
      | @node _ data' _ children' hdata hlike =>
          have hbelow := Tree.forestLike_matching hp hchildren hlike
          simp only [Forest.matching_cons, Forest.matching_nil, List.append_nil,
            Tree.children_node, hagree]
          split
          · exact .cons (.node hdata hlike) hbelow
          · exact hbelow

theorem Tree.forestLike_matching (hp : Agrees L C rule p) {forest other : Forest}
    (hforest : forest.Obeys rule) (hlike : Forest.Like L C forest other) :
    Forest.Like L C (Forest.matching p forest) (Forest.matching p other) := by
  cases forest with
  | nil =>
      cases hlike
      exact .nil
  | cons tree rest =>
      obtain ⟨htree, hrest⟩ := Forest.obeys_cons.mp hforest
      cases hlike with
      | cons hfirst hothers =>
          have happend := (hfirst.matching hp htree).append
            (Tree.forestLike_matching hp hrest hothers)
          rwa [← Forest.matching_singleton_append, ← Forest.matching_singleton_append] at happend

end

mutual

theorem Tree.Like.findPath? (hp : Agrees L C rule p) {tree other : Tree}
    (htree : tree.Obeys rule) (hlike : tree.Like L C other) :
    Tree.findPath? p tree = Tree.findPath? p other := by
  cases tree with
  | node data children =>
      have hchildren : Forest.Obeys rule children := htree.children
      have hagree := hp htree hlike
      cases hlike with
      | node hdata hlike =>
          rw [Tree.findPath?, Tree.findPath?, hagree,
            Tree.forestLike_findPath? hp hchildren hlike]

theorem Tree.forestLike_findPath? (hp : Agrees L C rule p) {index : Nat} {forest other : Forest}
    (hforest : forest.Obeys rule) (hlike : Forest.Like L C forest other) :
    forestFindPath? p index forest = forestFindPath? p index other := by
  cases forest with
  | nil =>
      cases hlike
      rfl
  | cons tree rest =>
      obtain ⟨htree, hrest⟩ := Forest.obeys_cons.mp hforest
      cases hlike with
      | cons hfirst hothers =>
          rw [forestFindPath?, forestFindPath?, hfirst.findPath? hp htree,
            Tree.forestLike_findPath? hp hrest hothers]

end

namespace Forest.Like

theorem settle {data other : Node} (hdata : data.Like L C other) {children others : Forest}
    (hlike : Forest.Like L C children others) :
    Forest.Like L C (Forest.settle data children) (Forest.settle other others) := by
  unfold Forest.settle
  rw [hdata.kind]
  split
  · exact hlike.trimEdges
  · exact hlike

/-- Taking out what stands at the same path empties the same ancestors. -/
theorem removeAt (path : List Nat) {forest other : Forest} (hlike : Forest.Like L C forest other) :
    (Forest.removeAt path forest).Like L C (Forest.removeAt path other) := by
  induction path generalizing forest other with
  | nil => exact ⟨hlike, .none, .nil, rfl⟩
  | cons index path ih =>
      have htree := Forest.rel_getElem? hlike index
      rw [Forest.removeAt, Forest.removeAt]
      generalize forest[index]? = found, other[index]? = found' at htree
      cases htree with
      | none => exact ⟨hlike, .none, .nil, rfl⟩
      | @some tree tree' htree =>
          dsimp only
          split
          · exact ⟨Forest.rel_eraseIdx hlike index, .some htree.data, .nil, rfl⟩
          · have hinner := ih htree.children
            have hgoes : Forest.goesWhenEmpty tree.data = Forest.goesWhenEmpty tree'.data := by
              simp [Forest.goesWhenEmpty, htree.data.kind]
            rw [← hinner.cut, ← hgoes]
            cases (Forest.removeAt path tree.children).cut with
            | false =>
                exact ⟨Forest.rel_set hlike index (.node htree.data hinner.rest),
                  hinner.removed, hinner.emptied, rfl⟩
            | true =>
                have hsettled := hinner.rest.settle htree.data
                simp only [if_true, true_and, hsettled.isEmpty]
                split
                · exact ⟨Forest.rel_eraseIdx hlike index, hinner.removed,
                    List.rel_append hinner.emptied (.cons htree.data .nil), rfl⟩
                · exact ⟨Forest.rel_set hlike index (.node htree.data hsettled), hinner.removed,
                    hinner.emptied, rfl⟩

theorem removeTimes (hwears : rule.Wears) (hp : Tree.Agrees L C rule p)
    (hgoes : ∀ tree, p tree = true → tree.kind.goesWhenEmpty = true) (count : Nat)
    {forest other : Forest} (hforest : forest.Obeys rule) (hlike : Forest.Like L C forest other) :
    Forest.Like L C (Forest.removeTimes p count forest).1 (Forest.removeTimes p count other).1 ∧
      List.Forall₂ (Removal.Like L C) (Forest.removeTimes p count forest).2
        (Forest.removeTimes p count other).2 := by
  induction count generalizing forest other with
  | zero => exact ⟨hlike, .nil⟩
  | succ count ih =>
      rw [Forest.removeTimes, Forest.removeTimes, ← Tree.forestLike_findPath? hp hforest hlike]
      cases hfind : Tree.forestFindPath? p 0 forest with
      | none => exact ⟨hlike, .nil⟩
      | some path =>
          obtain ⟨target, hremoves⟩ := removesFirst_of_findPath? hfind
          have hremoval := hlike.removeAt path
          obtain ⟨hrest, hremovals⟩ := ih (hremoves.obeys hwears hgoes hforest) hremoval.rest
          exact ⟨hrest, .cons hremoval hremovals⟩

theorem removeWhere (hwears : rule.Wears) (hp : Tree.Agrees L C rule p)
    (hgoes : ∀ tree, p tree = true → tree.kind.goesWhenEmpty = true)
    {forest other : Forest} (hforest : forest.Obeys rule) (hlike : Forest.Like L C forest other) :
    Forest.Like L C (Forest.removeWhere p forest).1 (Forest.removeWhere p other).1 ∧
      List.Forall₂ (Removal.Like L C) (Forest.removeWhere p forest).2
        (Forest.removeWhere p other).2 := by
  have hcount : forest.subtrees.countP p = other.subtrees.countP p := by
    rw [List.countP_eq_length_filter, List.countP_eq_length_filter]
    exact (Tree.forestLike_matching hp hforest hlike).length_eq
  rw [Forest.removeWhere, Forest.removeWhere, hcount]
  exact removeTimes hwears hp hgoes _ hforest hlike

end Forest.Like

/-- The warnings about what several removals emptied. -/
theorem Removal.like_notices {removals others : List Removal}
    (hlike : List.Forall₂ (Removal.Like L C) removals others) :
    Notice.Like L (removals.flatMap Removal.notices) (others.flatMap Removal.notices) := by
  induction hlike with
  | nil => exact Notice.like_nil
  | cons hremoval _ ih => exact hremoval.notices.append ih

end PageMarkup
