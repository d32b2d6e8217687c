import PageMarkup.Proofs.Page.Fullness
import PageMarkup.Proofs.Tree.Census
import PageMarkup.Proofs.Tree.Groups

/-! # Groups of quoted lines

Quoted lines that follow each other make one quote. The quotes of a merged forest are the
longest runs of quoted lines of the forest, one for each run, in order; a run is left out
just if all of its lines are blank.
-/

namespace PageMarkup

open Node

namespace Forest

/-- The longest runs of quoted lines in a forest. -/
def quoteGroups (forest : Forest) : List Forest :=
  (forest.splitBy fun first second => isQuote first && isQuote second).filter (·.all isQuote)

/-- Whether a quoted line holds nothing but white space. -/
def isBlankLine (line : Tree) : Bool := line.children.all isBlankText

/-! ## Runs -/

theorem quoteGroups_eq (forest : Forest) :
    forest.quoteGroups = (groupsBy isQuote forest).filter (·.all isQuote) := rfl

theorem quoteGroups_cons_of_not {tree : Tree} (htree : isQuote tree = false) (rest : Forest) :
    quoteGroups (tree :: rest) = quoteGroups rest := by
  rw [quoteGroups_eq, groupsBy_cons_of_not htree, List.filter_cons_of_neg (by simp [htree]),
    quoteGroups_eq]

theorem quoteGroups_group {line : Tree} {lines rest : Forest}
    (hlines : ∀ quoted ∈ line :: lines, isQuote quoted = true)
    (hrest : ∀ next ∈ rest.head?, isQuote next = false) :
    quoteGroups (line :: lines ++ rest) = (line :: lines) :: quoteGroups rest := by
  have hall : (line :: lines).all isQuote = true := List.all_eq_true.mpr hlines
  rw [quoteGroups_eq, groupsBy_run hlines hrest, List.filter_cons, hall, if_pos rfl, quoteGroups_eq]

/-! ## Merging -/

theorem joinQuotes_cons_of_not {tree : Tree} (htree : isQuote tree = false) (rest : Forest) :
    joinQuotes (tree :: rest) = tree :: joinQuotes rest := by
  rw [joinQuotes, if_neg (by simp [htree])]

/-- A run of quoted lines becomes one quote with a paragraph for each line. -/
theorem joinQuotes_group {line : Tree} {lines rest : Forest}
    (hlines : ∀ quoted ∈ line :: lines, isQuote quoted = true)
    (hrest : ∀ next ∈ rest.head?, isQuote next = false) :
    ∃ span, joinQuotes (line :: lines ++ rest) =
      .node { line.data with span } ((line :: lines).flatMap quotedParagraph) ::
        joinQuotes rest := by
  induction lines generalizing line with
  | nil =>
      have hquote := hlines line List.mem_cons_self
      refine ⟨line.data.span, ?_⟩
      rw [List.singleton_append, joinQuotes, if_pos hquote, List.flatMap_singleton]
      cases rest with
      | nil => rfl
      | cons next rest =>
          have hnext := hrest next rfl
          rw [joinQuotes_cons_of_not hnext, prependQuote, if_neg (by simp [hnext])]
  | cons second lines ih =>
      obtain ⟨hquote, hothers⟩ := List.forall_mem_cons.mp hlines
      obtain ⟨span, hjoined⟩ := ih hothers
      have hsecond := hothers second List.mem_cons_self
      refine ⟨line.data.span.cover span, ?_⟩
      rw [List.cons_append, joinQuotes, if_pos hquote, hjoined, prependQuote,
        if_pos (show isQuote (.node { second.data with span } _) = true from hsecond)]
      rfl

/-! ## Blank lines -/

theorem trimFront_eq_nil {trimText : String → String} {forest : Forest}
    (hblank : ∀ tree ∈ forest, isBlankLeaf tree = true) : trimFront trimText forest = [] := by
  induction forest with
  | nil => rfl
  | cons tree rest ih =>
      obtain ⟨htree, hrest⟩ := List.forall_mem_cons.mp hblank
      rw [isBlankLeaf, Bool.and_eq_true] at htree
      rw [trimFront, if_pos htree.1, if_pos htree.2, ih hrest]

theorem trimEdges_eq_nil_iff {forest : Forest} :
    forest.trimEdges = [] ↔ ∀ tree ∈ forest, isBlankLeaf tree = true := by
  refine ⟨fun hnil => ?_, fun hblank => ?_⟩
  · by_contra hsome
    push Not at hsome
    exact trimEdges_ne_nil (by simpa using hsome) hnil
  · rw [trimEdges, trimLeading, trimFront_eq_nil hblank]
    rfl

theorem isBlankLeaf_eq {tree : Tree} (htree : tree.Obeys (Sound liftedKinds)) :
    isBlankLeaf tree = isBlankText tree := by
  obtain ⟨data, children⟩ := tree
  obtain ⟨hdata, -⟩ := Tree.obeys_node.mp htree
  have hready : data.kind ≠ .ready := fun hkind => hdata.present (by rw [hkind]; decide)
  rw [isBlankLeaf, isBlankText, Tree.kind_node]
  cases hkind : data.kind == .text with
  | false =>
      cases children with
      | nil => simp [Tree.isTextLeaf, hkind, hready]
      | cons => rfl
  | true =>
      have hchildless := hdata.childless (by rw [beq_iff_eq.mp hkind]; rfl)
      rw [List.map_eq_nil_iff.mp hchildless, Tree.isTextLeaf, hdata.element_eq_none, hkind]
      rfl

/-- A quoted line gives no paragraph just if it is blank. -/
theorem quotedParagraph_eq_nil_iff {line : Tree} (hline : line.Obeys (Sound liftedKinds)) :
    quotedParagraph line = [] ↔ isBlankLine line = true := by
  have hempty : quotedParagraph line = [] ↔ line.children.trimEdges = [] := by
    unfold quotedParagraph
    dsimp only
    split <;> simp_all
  rw [hempty, trimEdges_eq_nil_iff, isBlankLine, List.all_eq_true]
  refine forall₂_congr fun tree hmem => ?_
  rw [isBlankLeaf_eq (obeys_iff.mp hline.children tree hmem)]

/-! ## Quotes that are left -/

theorem mergeQuotes_cons_of_not {tree : Tree} (htree : isQuote tree = false) (rest : Forest) :
    mergeQuotes (tree :: rest) = tree :: mergeQuotes rest := by
  rw [mergeQuotes, joinQuotes_cons_of_not htree, List.filter_cons_of_pos (by simp [htree])]
  rfl

/-- A run of quoted lines is dropped just if all of its lines are blank. -/
theorem mergeQuotes_group {line : Tree} {lines rest : Forest}
    (hlines : ∀ quoted ∈ line :: lines, isQuote quoted = true)
    (hrest : ∀ next ∈ rest.head?, isQuote next = false)
    (hsound : Forest.Obeys (Sound liftedKinds) (line :: lines)) :
    ∃ span, mergeQuotes (line :: lines ++ rest) =
      (if (line :: lines).all isBlankLine then []
        else [Tree.node { line.data with span } ((line :: lines).flatMap quotedParagraph)]) ++
        mergeQuotes rest := by
  obtain ⟨span, hjoined⟩ := joinQuotes_group hlines hrest
  have hquote : isQuote (.node { line.data with span } ((line :: lines).flatMap quotedParagraph)) =
      true := hlines line List.mem_cons_self
  have hleaf : Tree.isLeaf (.node { line.data with span } ((line :: lines).flatMap quotedParagraph)) =
      (line :: lines).all isBlankLine := by
    rw [Bool.eq_iff_iff, Tree.isLeaf, List.isEmpty_iff, Tree.children_node,
      List.flatMap_eq_nil_iff, List.all_eq_true]
    exact forall₂_congr fun quoted hmem => quotedParagraph_eq_nil_iff (obeys_iff.mp hsound quoted hmem)
  refine ⟨span, ?_⟩
  rw [mergeQuotes, hjoined, List.filter_cons, hquote, hleaf, Bool.true_and]
  cases (line :: lines).all isBlankLine <;> rfl

/-- The runs of quoted lines with anything to show. -/
def shownGroups (forest : Forest) : List Forest :=
  forest.quoteGroups.filter fun group => !group.all isBlankLine

theorem shownGroups_cons_of_not {tree : Tree} (htree : isQuote tree = false) (rest : Forest) :
    shownGroups (tree :: rest) = shownGroups rest := by
  rw [shownGroups, quoteGroups_cons_of_not htree, shownGroups]

theorem shownGroups_group {line : Tree} {lines rest : Forest}
    (hlines : ∀ quoted ∈ line :: lines, isQuote quoted = true)
    (hrest : ∀ next ∈ rest.head?, isQuote next = false) :
    shownGroups (line :: lines ++ rest) =
      (if (line :: lines).all isBlankLine then [] else [line :: lines]) ++ shownGroups rest := by
  rw [shownGroups, quoteGroups_group hlines hrest, List.filter_cons, shownGroups]
  cases (line :: lines).all isBlankLine <;> rfl

/-- What quotes themselves give to a census is given once for each run of quoted lines that
is not blank, by the first line of the run. -/
theorem census_mergeQuotes_groups {α : Type} {f : Tree → List α} (hf : Trims f)
    (hparagraph : ∀ span (children : Forest),
      f (.node { kind := .paragraph, span } children) = [])
    (hspan : ∀ (line : Tree) span children,
      f (.node { line.data with span } children) = f line)
    {forest : Forest} (hforest : forest.Obeys (Sound liftedKinds))
    (hother : ∀ tree ∈ forest, isQuote tree = false → f tree = [])
    (hbelow : ∀ tree ∈ forest, census f tree.children = []) :
    census f forest.mergeQuotes =
      forest.shownGroups.flatMap fun group => group.head?.toList.flatMap f := by
  induction forest using groupsBy_induction isQuote with
  | hnil => rfl
  | hother tree rest htree ih =>
      obtain ⟨-, hrest⟩ := obeys_cons.mp hforest
      obtain ⟨hnothing, hothers⟩ := List.forall_mem_cons.mp hother
      obtain ⟨hchildren, hinner⟩ := List.forall_mem_cons.mp hbelow
      obtain ⟨data, children⟩ := tree
      rw [mergeQuotes_cons_of_not htree, census_cons, hnothing htree,
        show census f children = [] from hchildren, ih hrest hothers hinner,
        shownGroups_cons_of_not htree]
      rfl
  | hrun line lines rest hlines hrest ih =>
      obtain ⟨hgroup, hsound⟩ := obeys_append.mp hforest
      have hothers := (List.forall_mem_append.mp hother).2
      obtain ⟨hinner, hrestBelow⟩ := List.forall_mem_append.mp hbelow
      obtain ⟨span, hmerged⟩ := mergeQuotes_group hlines hrest hgroup
      have hparagraphs : census f ((line :: lines).flatMap quotedParagraph) = [] := by
        rw [census_flatMap, List.flatMap_eq_nil_iff]
        exact fun quoted hmem =>
          (census_quotedParagraph hf hparagraph quoted).trans (hinner quoted hmem)
      rw [hmerged, census_append, ih hsound hothers hrestBelow, shownGroups_group hlines hrest,
        List.flatMap_append]
      cases (line :: lines).all isBlankLine with
      | true => rfl
      | false =>
          rw [if_neg Bool.false_ne_true, if_neg Bool.false_ne_true, census_cons, hparagraphs, hspan,
            census_nil, List.flatMap_singleton]
          simp

end Forest

end PageMarkup
