import PageMarkup.Proofs.Arena.Climbing
import PageMarkup.Proofs.Tree.Census

/-! # What numbered nodes add up to

A census of a numbered forest tells which node gives what. Trimming a forest and taking
out a node with what it empties change a census by what the node itself gives, as long
as text leaves and the nodes around the place give nothing.
-/

namespace PageMarkup

open NumberedForest

variable {α : Type} {f : NumberedTree → List α}

namespace NumberedForest

theorem census_cons_eq (tree : NumberedTree) (rest : NumberedForest) :
    census f (tree :: rest) = f tree ++ (census f tree.children ++ census f rest) := by
  obtain ⟨id, data, children⟩ := tree
  exact census_cons ..

theorem census_eq_flatMap (forest : NumberedForest) :
    census f forest = forest.flatMap fun tree => census f [tree] := by
  induction forest with
  | nil => simp
  | cons tree rest ih =>
      rw [List.flatMap_cons, ← ih, ← census_append, List.singleton_append]

theorem flatMap_trimFront (hf : ∀ tree, tree.erase.isTextLeaf = true → f tree = [])
    (trimText : String → String) (forest : NumberedForest) :
    (trimFront trimText forest).flatMap f = forest.flatMap f := by
  induction forest with
  | nil => rfl
  | cons tree rest ih =>
      rw [trimFront]
      split
      next hleaf =>
        split
        next => rw [ih, List.flatMap_cons, hf tree hleaf, List.nil_append]
        next =>
          have htrimmed := (Forest.isTextLeaf_withText tree.erase (trimText tree.data.text)).trans hleaf
          rw [List.flatMap_cons, List.flatMap_cons, hf tree hleaf,
            hf (.node tree.id { tree.data with text := trimText tree.data.text } tree.children)
              htrimmed]
      next => rfl

theorem flatMap_trimEdges (hf : ∀ tree, tree.erase.isTextLeaf = true → f tree = [])
    (forest : NumberedForest) : (trimEdges forest).flatMap f = forest.flatMap f := by
  have hreversed : ∀ tree : NumberedTree, tree.erase.isTextLeaf = true →
      (List.reverse ∘ f) tree = [] := by
    intro tree hleaf
    simp [hf tree hleaf]
  rw [trimEdges, List.flatMap_reverse, flatMap_trimFront hreversed, ← List.flatMap_reverse,
    List.reverse_reverse, flatMap_trimFront hf]

/-- Trimming keeps a census to which text leaves give nothing. -/
theorem census_trimEdges (hf : ∀ tree, tree.erase.isTextLeaf = true → f tree = [])
    (forest : NumberedForest) : census f (trimEdges forest) = census f forest := by
  have hleaf : ∀ tree : NumberedTree, tree.erase.isTextLeaf = true → census f [tree] = [] := by
    rintro ⟨id, data, children⟩ hleaf
    cases children with
    | nil => simp [census_cons, hf _ hleaf]
    | cons child rest =>
        rw [NumberedTree.erase, NumberedTree.children_node, erase_cons_eq] at hleaf
        cases hleaf
  rw [census_eq_flatMap, census_eq_flatMap, flatMap_trimEdges hleaf]

theorem census_settle (hf : ∀ tree, tree.erase.isTextLeaf = true → f tree = [])
    (forest : NumberedForest) (data : Node) : census f (forest.settle data) = census f forest := by
  unfold settle
  split
  next => exact census_trimEdges hf forest
  next => rfl

end NumberedForest

namespace Place

/-- What the trees before a place give. -/
def front (f : NumberedTree → List α) : Place → List α
  | [] => []
  | frame :: place => front f place ++ census f frame.before

/-- What the trees after a place give. -/
def back (f : NumberedTree → List α) : Place → List α
  | [] => []
  | frame :: place => census f frame.after ++ back f place

theorem census_before_subset {place : Place} {frame : Frame} (hmem : frame ∈ place) :
    census f frame.before ⊆ front f place := by
  induction place with
  | nil => cases hmem
  | cons other place ih =>
      rw [front]
      rcases List.mem_cons.mp hmem with rfl | hmem
      · exact List.subset_append_right _ _
      · exact List.subset_append_of_subset_left _ (ih hmem)

theorem front_append_back_subset {f : NumberedTree → List Nat}
    (hf : ∀ forest, census f forest ⊆ forest.ids) (place : Place) :
    front f place ++ back f place ⊆ Place.ids place := by
  induction place with
  | nil => exact List.Subset.refl _
  | cons frame place ih =>
      intro id hmem
      have hbefore := @hf frame.before id
      have hafter := @hf frame.after id
      have houter := @ih id
      simp only [front, back, Place.ids, List.mem_append, List.mem_cons] at hmem houter ⊢
      tauto

/-- The nodes around a place give nothing, unless they have no children and should go. -/
def Quiet (f : NumberedTree → List α) (place : Place) : Prop :=
  ∀ frame ∈ place, ∀ children,
    (Forest.goesWhenEmpty frame.data = true → children ≠ []) →
    f (.node frame.id frame.data children) = []

theorem census_plug {place : Place} (hquiet : Quiet f place) {siblings : NumberedForest}
    (hfull : siblings ≠ [] ∨ ∀ frame ∈ place, f (.node frame.id frame.data []) = []) :
    census f (place.plug siblings) = front f place ++ (census f siblings ++ back f place) := by
  induction place generalizing siblings with
  | nil => simp [front, back]
  | cons frame place ih =>
      obtain ⟨hframe, hquiet⟩ := List.forall_mem_cons.mp hquiet
      have hnode : f (.node frame.id frame.data siblings) = [] := by
        by_cases hnil : siblings = []
        · rw [hnil]
          exact (hfull.resolve_left (not_not.mpr hnil)) frame List.mem_cons_self
        · exact hframe siblings fun _ => hnil
      rw [plug_cons, ih hquiet (.inl (by simp)), census_append, census_cons, hnode, front, back]
      simp

theorem census_subset_plug (place : Place) (siblings : NumberedForest) :
    census f siblings ⊆ census f (place.plug siblings) := by
  induction place generalizing siblings with
  | nil => exact List.Subset.refl _
  | cons frame place ih =>
      rw [plug_cons]
      refine List.Subset.trans ?_ (ih _)
      intro found hmem
      simp [census_cons, hmem]

/-- The first thing that a census tells comes from a tree before which it tells nothing. -/
theorem exists_first (hf : ∀ id data children others,
      f (.node id data children) = f (.node id data others)) {found : α} {more : List α}
    {forest : NumberedForest} (hcensus : census f forest = found :: more) :
    ∃ (place : Place) (before : NumberedForest) (tree : NumberedTree) (after : NumberedForest),
      forest = place.plug (before ++ tree :: after) ∧ found ∈ f tree ∧ census f before = [] ∧
      ∀ frame ∈ place, census f frame.before = [] ∧
        ∀ children, f (.node frame.id frame.data children) = [] := by
  suffices hsuffix : ∀ siblings : NumberedForest, census f siblings = [] →
      ∃ (place : Place) (before : NumberedForest) (tree : NumberedTree) (after : NumberedForest),
        siblings ++ forest = place.plug (before ++ tree :: after) ∧ found ∈ f tree ∧
        census f before = [] ∧ ∀ frame ∈ place, census f frame.before = [] ∧
          ∀ children, f (.node frame.id frame.data children) = [] from
    hsuffix [] (census_nil f)
  induction forest using NumberedForest.induction generalizing more with
  | nil => simp at hcensus
  | cons id data children rest ihchildren ihrest =>
      intro siblings hsiblings
      rw [census_cons] at hcensus
      cases hself : f (.node id data children) with
      | cons first others =>
          rw [hself, List.cons_append] at hcensus
          obtain ⟨rfl, -⟩ := List.cons_eq_cons.mp hcensus
          exact ⟨[], siblings, .node id data children, rest, rfl, by simp [hself], hsiblings,
            fun _ hmem => absurd hmem List.not_mem_nil⟩
      | nil =>
          rw [hself, List.nil_append] at hcensus
          cases hchildren : census f children with
          | cons first others =>
              rw [hchildren, List.cons_append] at hcensus
              obtain ⟨rfl, -⟩ := List.cons_eq_cons.mp hcensus
              obtain ⟨place, before, tree, after, hplug, hfound, hbefore, hplace⟩ :=
                ihchildren hchildren [] (census_nil f)
              refine ⟨place ++ [⟨id, data, siblings, rest⟩], before, tree, after, ?_, hfound,
                hbefore, fun frame hmem => ?_⟩
              · rw [plug_append, ← hplug]
                rfl
              · rcases List.mem_append.mp hmem with hmem | hmem
                · exact hplace frame hmem
                · obtain rfl := List.mem_singleton.mp hmem
                  exact ⟨hsiblings, fun others => (hf ..).trans hself⟩
          | nil =>
              rw [hchildren, List.nil_append] at hcensus
              have hpassed : census f (siblings ++ [NumberedTree.node id data children]) = [] := by
                simp [census_cons, hsiblings, hself, hchildren]
              obtain ⟨place, before, tree, after, hplug, hfound⟩ := ihrest hcensus _ hpassed
              exact ⟨place, before, tree, after, by simpa using hplug, hfound⟩

/-- Closing a place keeps what is around it. -/
theorem census_close (hf : ∀ tree, tree.erase.isTextLeaf = true → f tree = []) {place : Place}
    (hquiet : Quiet f place) (siblings : NumberedForest) :
    census f (place.close siblings).1 = front f place ++ (census f siblings ++ back f place) := by
  induction place generalizing siblings with
  | nil => simp [front, back, close]
  | cons frame place ih =>
      obtain ⟨hframe, houter⟩ := List.forall_mem_cons.mp hquiet
      have hsettle := census_settle hf siblings frame.data
      by_cases hempty : Forest.goesWhenEmpty frame.data = true ∧ siblings.settle frame.data = []
      · rw [close_of_emptied hempty.1 hempty.2]
        rw [hempty.2, census_nil] at hsettle
        rw [ih houter, census_append, ← hsettle, front, back]
        simp
      · rw [close_of_kept hempty, plug_cons, census_plug houter (.inl (by simp)), census_append,
          census_cons, hframe _ fun hgoes hnil => hempty ⟨hgoes, hnil⟩, hsettle, front, back]
        simp

end Place

end PageMarkup
