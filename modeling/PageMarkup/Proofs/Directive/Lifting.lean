import PageMarkup.Proofs.Page.Presented

/-! # Lifting directives

Directives are known by their kind once a source is nested: lifting them takes every tree
of that kind away from the root, and pruning before it changes nothing about that.
-/

namespace PageMarkup

namespace Tree

theorem forestPruneEmpty_append (first second : Forest) :
    (forestPruneEmpty (first ++ second)).1 =
      (forestPruneEmpty first).1 ++ (forestPruneEmpty second).1 := by
  induction first with
  | nil => rfl
  | cons tree rest ih => simp only [List.cons_append, forestPruneEmpty, ih, List.append_assoc]

end Tree

namespace Directive

/-- Whether the tree is a directive. -/
def isLine (tree : Tree) : Bool := tree.kind == .aggregate (.line .directive)

/-- Every directive of a forest that is built of lexemes can be read. -/
theorem body_eq_filter {source : Source} {forest : Forest}
    (hforest : forest.Obeys (Node.Built source)) : body source forest = forest.filter (!isLine ·) := by
  refine List.filter_congr fun tree hmem => ?_
  have hbuilt := (Forest.obeys_iff.mp hforest tree hmem).data
  unfold ofTree? isLine
  split
  next hkind =>
    obtain ⟨opener, hopener, hparse⟩ := hbuilt.marked hkind
    obtain ⟨opening, hopening⟩ := Option.isSome_iff_exists.mp hparse
    rw [show tree.data.opener = some opener from hopener, hkind]
    simp [hopening]
  next hkind => simp [hkind]

end Directive

namespace Forest

/-- What is left of a nested page without empty aggregates and directives. -/
def lifted (forest : Forest) : Forest := forest.pruneEmpty.1.filter (!Directive.isLine ·)

theorem body_eq_lifted {source : Source} {forest : Forest}
    (hforest : ofLexemes source.lexemes = .ok forest) :
    Directive.body source forest.pruneEmpty.1 = forest.lifted :=
  Directive.body_eq_filter (built_ofLexemes hforest).built_pruneEmpty

theorem lifted_append (first second : Forest) :
    lifted (first ++ second) = first.lifted ++ second.lifted := by
  simp [lifted, pruneEmpty, Tree.forestPruneEmpty_append]

theorem lifted_cons (tree : Tree) (rest : Forest) :
    lifted (tree :: rest) = lifted [tree] ++ rest.lifted := lifted_append [tree] rest

/-- Pruning and lifting leave nothing of a directive. -/
theorem lifted_directive {tree : Tree} (hkind : tree.kind = .aggregate (.line .directive)) :
    lifted [tree] = [] := by
  refine List.filter_eq_nil_iff.mpr fun other hmem => ?_
  have hother := Tree.kinds_forestPruneEmpty [tree] (List.mem_map_of_mem hmem)
  rw [kinds, List.map_singleton, List.mem_singleton, hkind] at hother
  simp [Directive.isLine, hother]

end Forest

/-! ## Leaves -/

theorem Tree.forestFaults_append (atRoot : Bool) (first second : Forest) :
    forestFaults atRoot (first ++ second) =
      forestFaults atRoot first ++ forestFaults atRoot second := by
  induction first with
  | nil => rfl
  | cons tree rest ih => simp only [List.cons_append, forestFaults, ih, List.append_assoc]

namespace Forest

theorem check_eq_ok_iff_faults {forest : Forest} :
    forest.check = .ok () ↔ Tree.forestFaults true forest = [] := by
  unfold check
  split
  next hfaults => simp [hfaults]
  next fault rest hfaults => simp [hfaults]

/-- The leaves of lexemes that are texts and newlines. -/
abbrev leaves (lexemes : List Lexeme) : Forest := lexemes.map Nesting.leafOf

variable {lexemes : List Lexeme}

theorem check_leaves (hkinds : ∀ lexeme ∈ lexemes, lexeme.kind = .text ∨ lexeme.kind = .newline) :
    (leaves lexemes).check = .ok () := by
  have hnone : Tree.forestFaults true (leaves lexemes) = [] := by
    induction lexemes with
    | nil => rfl
    | cons lexeme rest ih =>
        obtain ⟨hkind, hrest⟩ := List.forall_mem_cons.mp hkinds
        obtain ⟨kind, span, text⟩ := lexeme
        have hleaf : (Nesting.leafOf ⟨kind, span, text⟩).faults true = [] := by
          obtain rfl | rfl : kind = .text ∨ kind = .newline := hkind <;> rfl
        rw [leaves, List.map_cons, Tree.forestFaults, hleaf, List.nil_append]
        exact ih hrest
  rw [check, hnone]

theorem pruneEmpty_leaves
    (hkinds : ∀ lexeme ∈ lexemes, lexeme.kind = .text ∨ lexeme.kind = .newline) :
    (leaves lexemes).pruneEmpty = (leaves lexemes, []) := by
  unfold pruneEmpty
  induction lexemes with
  | nil => rfl
  | cons lexeme rest ih =>
      obtain ⟨hkind, hrest⟩ := List.forall_mem_cons.mp hkinds
      obtain ⟨kind, span, text⟩ := lexeme
      have hleaf : (Nesting.leafOf ⟨kind, span, text⟩).pruneEmpty =
          ([Nesting.leafOf ⟨kind, span, text⟩], []) := by
        obtain rfl | rfl : kind = .text ∨ kind = .newline := hkind <;> rfl
      rw [leaves, List.map_cons, Tree.forestPruneEmpty, hleaf, ih hrest]
      rfl

theorem lifted_leaves (hkinds : ∀ lexeme ∈ lexemes, lexeme.kind = .text ∨ lexeme.kind = .newline) :
    (leaves lexemes).lifted = leaves lexemes := by
  rw [lifted, pruneEmpty_leaves hkinds]
  refine List.filter_eq_self.mpr fun tree hmem => ?_
  obtain ⟨lexeme, hlexeme, rfl⟩ := List.mem_map.mp hmem
  have hkind : (Nesting.leafOf lexeme).kind = lexeme.kind := rfl
  rcases hkinds lexeme hlexeme with hlexeme | hlexeme <;> simp [Directive.isLine, hkind, hlexeme]

end Forest

end PageMarkup
