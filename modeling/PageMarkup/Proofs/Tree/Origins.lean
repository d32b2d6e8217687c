import PageMarkup.Proofs.Tree.Census

/-! # Where subtrees come from

A pass leaves most of a page alone. What is below the root after it is a subtree that was
there before, a text leaf that was trimmed, a node whose children went through the same
pass, or part of what took the place of a subtree. So a property of all subtrees survives
a pass if it survives in each of these cases.
-/

namespace PageMarkup

namespace Tree

theorem children_of_isTextLeaf {tree : Tree} (hleaf : tree.isTextLeaf = true) :
    tree.children = [] := by
  obtain ⟨data, children⟩ := tree
  cases children with
  | nil => rfl
  | cons => cases hleaf

theorem mem_subtrees_iff {tree below : Tree} :
    below ∈ tree.subtrees ↔ below = tree ∨ below ∈ tree.children.subtrees := by
  obtain ⟨data, children⟩ := tree
  rw [subtrees_node]
  exact List.mem_cons

end Tree

namespace Forest

theorem mem_subtrees_cons {tree below : Tree} {rest : Forest} :
    below ∈ subtrees (tree :: rest) ↔
      below = tree ∨ below ∈ tree.children.subtrees ∨ below ∈ rest.subtrees := by
  rw [subtrees_cons, List.mem_append, Tree.mem_subtrees_iff, or_assoc]

theorem subtrees_subset {kept forest : Forest} (hkept : kept ⊆ forest) :
    kept.subtrees ⊆ forest.subtrees := by
  intro below hbelow
  obtain ⟨top, htop, hbelow⟩ := mem_subtrees.mp hbelow
  exact mem_subtrees.mpr ⟨top, hkept htop, hbelow⟩

end Forest

namespace Tree

mutual

theorem subtrees_children_subset {tree inner : Tree} (hinner : inner ∈ tree.subtrees) :
    inner.children.subtrees ⊆ tree.subtrees := by
  obtain ⟨data, children⟩ := tree
  intro below hbelow
  rw [subtrees_node] at hinner ⊢
  rcases List.mem_cons.mp hinner with rfl | hinner
  · exact List.mem_cons_of_mem _ hbelow
  · exact List.mem_cons_of_mem _ (forestSubtrees_children_subset hinner hbelow)

/-- What is below a subtree of a forest is a subtree of it as well. -/
theorem forestSubtrees_children_subset {forest : Forest} {inner : Tree}
    (hinner : inner ∈ forest.subtrees) : inner.children.subtrees ⊆ forest.subtrees := by
  cases forest with
  | nil => simp at hinner
  | cons tree rest =>
      intro below hbelow
      rw [Forest.subtrees_cons] at hinner ⊢
      rcases List.mem_append.mp hinner with hinner | hinner
      · exact List.mem_append_left _ (subtrees_children_subset hinner hbelow)
      · exact List.mem_append_right _ (forestSubtrees_children_subset hinner hbelow)

end

end Tree

namespace Forest

/-! ## Trimming -/

theorem mem_trimFront {trimText : String → String} {forest : Forest} {tree : Tree}
    (hmem : tree ∈ trimFront trimText forest) : tree ∈ forest ∨ tree.isTextLeaf = true := by
  induction forest with
  | nil => exact .inl hmem
  | cons first rest ih =>
      rw [trimFront] at hmem
      split at hmem
      next hleaf =>
        split at hmem
        next => exact (ih hmem).imp_left (List.mem_cons_of_mem _)
        next =>
          rcases List.mem_cons.mp hmem with rfl | hmem
          · exact .inr ((isTextLeaf_withText _ _).trans hleaf)
          · exact .inl (List.mem_cons_of_mem _ hmem)
      next => exact .inl hmem

theorem mem_trimEdges {forest : Forest} {tree : Tree} (hmem : tree ∈ forest.trimEdges) :
    tree ∈ forest ∨ tree.isTextLeaf = true := by
  rw [trimEdges, trimTrailing, List.mem_reverse] at hmem
  rcases mem_trimFront hmem with hmem | hleaf
  · exact mem_trimFront (List.mem_reverse.mp hmem)
  · exact .inr hleaf

/-- Trimming leaves subtrees that were there, and text leaves. -/
theorem mem_subtrees_trimEdges {forest : Forest} {below : Tree}
    (hbelow : below ∈ forest.trimEdges.subtrees) :
    below ∈ forest.subtrees ∨ below.isTextLeaf = true := by
  obtain ⟨top, htop, hbelow⟩ := mem_subtrees.mp hbelow
  rcases mem_trimEdges htop with htop | hleaf
  · exact .inl (mem_subtrees.mpr ⟨top, htop, hbelow⟩)
  · rw [Tree.mem_subtrees_iff, Tree.children_of_isTextLeaf hleaf, subtrees_nil] at hbelow
    rcases hbelow with rfl | hbelow
    · exact .inr hleaf
    · cases hbelow

theorem mem_subtrees_settle {data : Node} {children : Forest} {below : Tree}
    (hbelow : below ∈ (settle data children).subtrees) :
    below ∈ children.subtrees ∨ below.isTextLeaf = true := by
  unfold settle at hbelow
  split at hbelow
  next => exact mem_subtrees_trimEdges hbelow
  next => exact .inl hbelow

/-! ## Quotes and paragraphs -/

theorem mem_quotedParagraph {line tree : Tree} (hmem : tree ∈ quotedParagraph line) :
    tree.kind = .paragraph ∧ tree.children = line.children.trimEdges := by
  unfold quotedParagraph at hmem
  dsimp only at hmem
  split at hmem
  next => cases hmem
  next =>
    obtain rfl := List.mem_singleton.mp hmem
    exact ⟨rfl, rfl⟩

/-- A quote of paragraphs, each of them from a quoted line of the forest. -/
def QuotesLines (forest : Forest) (quote : Tree) : Prop :=
  isQuote quote = true ∧
    ∀ child ∈ quote.children, ∃ line ∈ forest, isQuote line = true ∧ child ∈ quotedParagraph line

theorem QuotesLines.cons {forest : Forest} {quote : Tree} (hquote : QuotesLines forest quote)
    (tree : Tree) : QuotesLines (tree :: forest) quote := by
  refine ⟨hquote.1, fun child hchild => ?_⟩
  obtain ⟨line, hline, hfrom⟩ := hquote.2 child hchild
  exact ⟨line, List.mem_cons_of_mem _ hline, hfrom⟩

theorem mem_prependQuote {line : Tree} {joined forest : Forest} (hline : isQuote line = true)
    (hjoined : ∀ tree ∈ joined, isQuote tree = true → QuotesLines forest tree) {tree : Tree}
    (hmem : tree ∈ prependQuote line joined) :
    QuotesLines (line :: forest) tree ∨ tree ∈ joined := by
  have hparagraph : ∀ child ∈ quotedParagraph line,
      ∃ quoted ∈ line :: forest, isQuote quoted = true ∧ child ∈ quotedParagraph quoted :=
    fun _ hchild => ⟨line, List.mem_cons_self, hline, hchild⟩
  cases joined with
  | nil =>
      obtain rfl := List.mem_singleton.mp hmem
      exact .inl ⟨hline, hparagraph⟩
  | cons next rest =>
      rw [prependQuote] at hmem
      split at hmem
      next hnext =>
        rcases List.mem_cons.mp hmem with rfl | hmem
        · have hothers := ((hjoined next List.mem_cons_self hnext).cons line).2
          exact .inl ⟨hline, List.forall_mem_append.mpr ⟨hparagraph, hothers⟩⟩
        · exact .inr (List.mem_cons_of_mem _ hmem)
      next =>
        rcases List.mem_cons.mp hmem with rfl | hmem
        · exact .inl ⟨hline, hparagraph⟩
        · exact .inr hmem

theorem mem_joinQuotes {forest : Forest} {tree : Tree} (hmem : tree ∈ joinQuotes forest) :
    tree ∈ forest ∧ isQuote tree = false ∨ QuotesLines forest tree := by
  induction forest generalizing tree with
  | nil => cases hmem
  | cons first rest ih =>
      have hrest : ∀ {tree}, tree ∈ joinQuotes rest →
          tree ∈ first :: rest ∧ isQuote tree = false ∨ QuotesLines (first :: rest) tree :=
        fun hmem => (ih hmem).imp (.imp_left (List.mem_cons_of_mem _)) (.cons · first)
      rw [joinQuotes] at hmem
      split at hmem
      next hquote =>
        have hjoined : ∀ tree ∈ joinQuotes rest, isQuote tree = true → QuotesLines rest tree := by
          intro tree hmem hquote
          refine (ih hmem).resolve_left fun hnot => ?_
          rw [hnot.2] at hquote
          cases hquote
        exact (mem_prependQuote hquote hjoined hmem).elim .inr hrest
      next hnot =>
        rcases List.mem_cons.mp hmem with rfl | hmem
        · exact .inl ⟨List.mem_cons_self, by simpa using hnot⟩
        · exact hrest hmem

/-- Merging leaves what is no quoted line, and makes quotes of the lines. -/
theorem mem_mergeQuotes {forest : Forest} {tree : Tree} (hmem : tree ∈ mergeQuotes forest) :
    tree ∈ forest ∧ isQuote tree = false ∨ QuotesLines forest tree :=
  mem_joinQuotes (List.mem_filter.mp hmem).1

theorem trimNewlines_subset (forest : Forest) : forest.trimNewlines ⊆ forest := by
  intro tree hmem
  rw [trimNewlines, Text.dropTailWhile, List.mem_reverse] at hmem
  exact List.dropWhile_subset _ (List.mem_reverse.mp (List.dropWhile_subset _ hmem))

theorem mem_paragraphOf {run : Forest} {tree : Tree} (hmem : tree ∈ paragraphOf run) :
    tree.kind = .paragraph ∧ tree.children = run.trimEdges := by
  unfold paragraphOf at hmem
  split at hmem
  next => cases hmem
  next =>
    obtain rfl := List.mem_singleton.mp hmem
    exact ⟨rfl, rfl⟩

theorem mem_paragraphsFrom {run forest : Forest} {tree : Tree}
    (hmem : tree ∈ paragraphsFrom run forest) :
    tree ∈ forest ∧ tree.kind.isBlock = true ∨
      ∃ part : Forest, tree ∈ paragraphOf part ∧
        ∀ inner ∈ part, inner ∈ run ∨ inner ∈ forest ∧ inner.kind.isBlock = false := by
  induction forest generalizing run with
  | nil => exact .inr ⟨run.reverse, hmem, fun inner hinner => .inl (List.mem_reverse.mp hinner)⟩
  | cons first rest ih =>
      have hrun : ∀ {tree}, tree ∈ paragraphOf run.reverse → ∃ part : Forest,
          tree ∈ paragraphOf part ∧ ∀ inner ∈ part,
            inner ∈ run ∨ inner ∈ first :: rest ∧ inner.kind.isBlock = false :=
        fun hmem => ⟨run.reverse, hmem, fun inner hinner => .inl (List.mem_reverse.mp hinner)⟩
      have hrest : ∀ {passed}, tree ∈ paragraphsFrom passed rest →
          (∀ inner ∈ passed, inner ∈ run ∨ inner ∈ first :: rest ∧ inner.kind.isBlock = false) →
          tree ∈ first :: rest ∧ tree.kind.isBlock = true ∨ ∃ part : Forest,
            tree ∈ paragraphOf part ∧ ∀ inner ∈ part,
              inner ∈ run ∨ inner ∈ first :: rest ∧ inner.kind.isBlock = false := by
        intro passed hmem hpassed
        rcases ih hmem with ⟨hmem, hblock⟩ | ⟨part, hmem, hpart⟩
        · exact .inl ⟨List.mem_cons_of_mem _ hmem, hblock⟩
        · refine .inr ⟨part, hmem, fun inner hinner => ?_⟩
          exact (hpart inner hinner).elim (hpassed inner)
            fun hlater => .inr ⟨List.mem_cons_of_mem _ hlater.1, hlater.2⟩
      rw [paragraphsFrom] at hmem
      split at hmem
      next =>
        rcases List.mem_append.mp hmem with hmem | hmem
        · exact .inr (hrun hmem)
        · exact hrest hmem (List.forall_mem_nil _)
      next =>
        split at hmem
        next hblock =>
          rcases List.mem_append.mp hmem with hmem | hmem
          · exact .inr (hrun hmem)
          · rcases List.mem_cons.mp hmem with rfl | hmem
            · exact .inl ⟨List.mem_cons_self, hblock⟩
            · exact hrest hmem (List.forall_mem_nil _)
        next hnot =>
          refine hrest hmem (List.forall_mem_cons.mpr ⟨.inr ⟨List.mem_cons_self, ?_⟩, ?_⟩)
          · exact Bool.eq_false_iff.mpr hnot
          · exact fun inner hinner => .inl hinner

/-- Grouping leaves the blocks, and makes paragraphs of trees that are none. -/
theorem mem_paragraphs {forest : Forest} {tree : Tree} (hmem : tree ∈ paragraphs forest) :
    tree ∈ forest ∧ tree.kind.isBlock = true ∨
      ∃ run : Forest, tree ∈ paragraphOf run ∧
        ∀ inner ∈ run, inner ∈ forest ∧ inner.kind.isBlock = false := by
  refine (mem_paragraphsFrom hmem).imp_right fun ⟨run, hmem, hrun⟩ => ⟨run, hmem, ?_⟩
  exact fun inner hinner => (hrun inner hinner).resolve_left List.not_mem_nil

/-! ## Taking trees out -/

section Removal

variable {p : Tree → Bool}

/-- Where the first tree is taken out, a subtree is as it was, or a text leaf, or has the
tree taken out below it. -/
theorem RemovesFirst.origin {target : Tree} {forest : Forest} {removal : Removal}
    (hremoves : RemovesFirst p target forest removal) {below : Tree}
    (hbelow : below ∈ removal.rest.subtrees) :
    below ∈ forest.subtrees ∨ below.isTextLeaf = true ∨
      ∃ children inner, .node below.data children ∈ forest.subtrees ∧
        RemovesFirst p target children inner ∧
          (below.children = inner.rest ∨ below.children = settle below.data inner.rest) := by
  have hsides : ∀ {before after : Forest} {tree below : Tree},
      below ∈ subtrees (before ++ after) → below ∈ subtrees (before ++ tree :: after) :=
    fun hbelow => subtrees_subset ((List.sublist_cons_self ..).append_left _).subset hbelow
  have hinside : ∀ {before after children : Forest} {data : Node} {below : Tree},
      below ∈ children.subtrees → below ∈ subtrees (before ++ .node data children :: after) := by
    intro before after children data below hbelow
    rw [subtrees_append, List.mem_append, mem_subtrees_cons]
    exact .inr (.inr (.inl hbelow))
  have hself : ∀ {before after : Forest} {tree : Tree},
      tree ∈ subtrees (before ++ tree :: after) := by
    intro before after tree
    rw [subtrees_append, List.mem_append, mem_subtrees_cons]
    exact .inr (.inl rfl)
  induction hremoves with
  | here before after => exact .inl (hsides hbelow)
  | deeper before after data children inner _ _ hinner _ ih =>
      rw [subtrees_append, List.mem_append, mem_subtrees_cons] at hbelow
      rcases hbelow with hbelow | rfl | hbelow | hbelow
      · exact .inl (hsides (by simp [hbelow]))
      · exact .inr (.inr ⟨children, inner, hself, hinner, .inl rfl⟩)
      · rcases ih hbelow with hbelow | hleaf | ⟨others, removal, hmem, hfrom⟩
        · exact .inl (hinside hbelow)
        · exact .inr (.inl hleaf)
        · exact .inr (.inr ⟨others, removal, hinside hmem, hfrom⟩)
      · exact .inl (hsides (by simp [hbelow]))
  | settled before after data children inner _ _ hinner _ _ ih =>
      rw [subtrees_append, List.mem_append, mem_subtrees_cons] at hbelow
      rcases hbelow with hbelow | rfl | hbelow | hbelow
      · exact .inl (hsides (by simp [hbelow]))
      · exact .inr (.inr ⟨children, inner, hself, hinner, .inr rfl⟩)
      · rcases mem_subtrees_settle hbelow with hbelow | hleaf
        · rcases ih hbelow with hbelow | hleaf | ⟨others, removal, hmem, hfrom⟩
          · exact .inl (hinside hbelow)
          · exact .inr (.inl hleaf)
          · exact .inr (.inr ⟨others, removal, hinside hmem, hfrom⟩)
        · exact .inr (.inl hleaf)
      · exact .inl (hsides (by simp [hbelow]))
  | emptied before after => exact .inl (hsides hbelow)

end Removal

end Forest

namespace Tree

mutual

theorem origin_pruneEmpty {tree below : Tree} (hbelow : below ∈ tree.pruneEmpty.1.subtrees) :
    ∃ children, .node below.data children ∈ tree.subtrees ∧
      below.children = (forestPruneEmpty children).1 := by
  obtain ⟨data, children⟩ := tree
  rw [pruneEmpty] at hbelow
  dsimp only at hbelow
  split at hbelow
  next => simp at hbelow
  next =>
    rw [Forest.mem_subtrees_cons, Forest.subtrees_nil] at hbelow
    rw [subtrees_node]
    rcases hbelow with rfl | hbelow | hbelow
    · exact ⟨children, List.mem_cons_self, rfl⟩
    · obtain ⟨others, hmem, hfrom⟩ := origin_forestPruneEmpty hbelow
      exact ⟨others, List.mem_cons_of_mem _ hmem, hfrom⟩
    · cases hbelow

/-- What pruning leaves are nodes whose children were pruned. -/
theorem origin_forestPruneEmpty {forest : Forest} {below : Tree}
    (hbelow : below ∈ (forestPruneEmpty forest).1.subtrees) :
    ∃ children, .node below.data children ∈ forest.subtrees ∧
      below.children = (forestPruneEmpty children).1 := by
  cases forest with
  | nil => simp [forestPruneEmpty] at hbelow
  | cons tree rest =>
      simp only [forestPruneEmpty, Forest.subtrees_append, List.mem_append] at hbelow
      rw [Forest.subtrees_cons]
      rcases hbelow with hbelow | hbelow
      · obtain ⟨others, hmem, hfrom⟩ := origin_pruneEmpty hbelow
        exact ⟨others, List.mem_append_left _ hmem, hfrom⟩
      · obtain ⟨others, hmem, hfrom⟩ := origin_forestPruneEmpty hbelow
        exact ⟨others, List.mem_append_right _ hmem, hfrom⟩

end

/-! ## Putting other trees in their place -/

section Expand

variable {f : Tree → Option (Forest × List Notice)}

mutual

theorem origin_expand {tree below : Tree} (hbelow : below ∈ (expand f tree).1.subtrees) :
    (∃ replaced ∈ tree.subtrees, ∃ answer, f replaced = some answer ∧
        below ∈ answer.1.subtrees) ∨
      ∃ children, .node below.data children ∈ tree.subtrees ∧
        f (.node below.data children) = none ∧ below.children = (forestExpand f children).1 := by
  obtain ⟨data, children⟩ := tree
  rw [expand] at hbelow
  rw [subtrees_node]
  split at hbelow
  next answer hanswer => exact .inl ⟨_, List.mem_cons_self, answer, hanswer, hbelow⟩
  next hnone =>
    rw [Forest.mem_subtrees_cons, Forest.subtrees_nil] at hbelow
    rcases hbelow with rfl | hbelow | hbelow
    · exact .inr ⟨children, List.mem_cons_self, hnone, rfl⟩
    · refine (origin_forestExpand hbelow).imp (fun ⟨replaced, hmem, hfrom⟩ => ?_)
        fun ⟨others, hmem, hfrom⟩ => ?_
      · exact ⟨replaced, List.mem_cons_of_mem _ hmem, hfrom⟩
      · exact ⟨others, List.mem_cons_of_mem _ hmem, hfrom⟩
    · cases hbelow

/-- What expanding leaves is part of an answer, or a node whose children were expanded. -/
theorem origin_forestExpand {forest : Forest} {below : Tree}
    (hbelow : below ∈ (forestExpand f forest).1.subtrees) :
    (∃ replaced ∈ forest.subtrees, ∃ answer, f replaced = some answer ∧
        below ∈ answer.1.subtrees) ∨
      ∃ children, .node below.data children ∈ forest.subtrees ∧
        f (.node below.data children) = none ∧ below.children = (forestExpand f children).1 := by
  cases forest with
  | nil => simp [forestExpand] at hbelow
  | cons tree rest =>
      simp only [forestExpand, Forest.subtrees_append, List.mem_append] at hbelow
      rw [Forest.subtrees_cons]
      rcases hbelow with hbelow | hbelow
      · refine (origin_expand hbelow).imp (fun ⟨replaced, hmem, hfrom⟩ => ?_)
          fun ⟨others, hmem, hfrom⟩ => ?_
        · exact ⟨replaced, List.mem_append_left _ hmem, hfrom⟩
        · exact ⟨others, List.mem_append_left _ hmem, hfrom⟩
      · refine (origin_forestExpand hbelow).imp (fun ⟨replaced, hmem, hfrom⟩ => ?_)
          fun ⟨others, hmem, hfrom⟩ => ?_
        · exact ⟨replaced, List.mem_append_right _ hmem, hfrom⟩
        · exact ⟨others, List.mem_append_right _ hmem, hfrom⟩

end

end Expand

section References

variable {notes : List Note}

mutual

theorem origin_rewriteNoteRefs {seen : List String} {tree below : Tree}
    (hbelow : below ∈ (tree.rewriteNoteRefs notes seen).1.subtrees) :
    below ∈ tree.subtrees ∨
      (∃ reference ∈ tree.subtrees, reference.isNoteRef = true ∧ ∃ (note : Note) (index : Nat),
        below ∈ (note.referenceTree index reference.data).subtrees) ∨
      ∃ children earlier, .node below.data children ∈ tree.subtrees ∧
        below.isNoteRef = false ∧
          below.children = (forestRewriteNoteRefs notes earlier children).1 := by
  obtain ⟨data, children⟩ := tree
  rw [rewriteNoteRefs] at hbelow
  dsimp only at hbelow
  split at hbelow
  next href =>
    split at hbelow
    next note _ =>
      exact .inr (.inl ⟨_, mem_subtrees_iff.mpr (.inl rfl), href, note, _, hbelow⟩)
    next => exact .inl hbelow
  next hnot =>
    rw [mem_subtrees_iff] at hbelow
    rcases hbelow with rfl | hbelow
    · exact .inr (.inr ⟨children, seen, mem_subtrees_iff.mpr (.inl rfl),
        Bool.eq_false_iff.mpr hnot, rfl⟩)
    · have hinside : Forest.subtrees children ⊆ (node data children).subtrees :=
        fun _ hmem => mem_subtrees_iff.mpr (.inr hmem)
      refine (origin_forestRewriteNoteRefs hbelow).imp (hinside ·) (.imp ?_ ?_)
      · exact fun ⟨reference, hmem, hfrom⟩ => ⟨reference, hinside hmem, hfrom⟩
      · exact fun ⟨others, earlier, hmem, hfrom⟩ => ⟨others, earlier, hinside hmem, hfrom⟩

/-- Rewriting leaves references of other notes and what is in them, rewritten references,
and nodes whose children were rewritten. -/
theorem origin_forestRewriteNoteRefs {seen : List String} {forest : Forest} {below : Tree}
    (hbelow : below ∈ (forestRewriteNoteRefs notes seen forest).1.subtrees) :
    below ∈ forest.subtrees ∨
      (∃ reference ∈ forest.subtrees, reference.isNoteRef = true ∧ ∃ (note : Note) (index : Nat),
        below ∈ (note.referenceTree index reference.data).subtrees) ∨
      ∃ children earlier, .node below.data children ∈ forest.subtrees ∧
        below.isNoteRef = false ∧
          below.children = (forestRewriteNoteRefs notes earlier children).1 := by
  cases forest with
  | nil => simp [forestRewriteNoteRefs] at hbelow
  | cons tree rest =>
      simp only [forestRewriteNoteRefs, Forest.subtrees_cons, List.mem_append] at hbelow
      rw [Forest.subtrees_cons]
      rcases hbelow with hbelow | hbelow
      · refine (origin_rewriteNoteRefs hbelow).imp (List.mem_append_left _) (.imp ?_ ?_)
        · exact fun ⟨reference, hmem, hfrom⟩ => ⟨reference, List.mem_append_left _ hmem, hfrom⟩
        · exact fun ⟨others, earlier, hmem, hfrom⟩ =>
            ⟨others, earlier, List.mem_append_left _ hmem, hfrom⟩
      · refine (origin_forestRewriteNoteRefs hbelow).imp (List.mem_append_right _) (.imp ?_ ?_)
        · exact fun ⟨reference, hmem, hfrom⟩ => ⟨reference, List.mem_append_right _ hmem, hfrom⟩
        · exact fun ⟨others, earlier, hmem, hfrom⟩ =>
            ⟨others, earlier, List.mem_append_right _ hmem, hfrom⟩

end

end References

/-! ## Headings -/

mutual

theorem origin_trimHeadings {tree below : Tree} (hbelow : below ∈ tree.trimHeadings.subtrees) :
    below.isTextLeaf = true ∨ ∃ children, .node below.data children ∈ tree.subtrees ∧
      (below.children = forestTrimHeadings children ∨
        below.children = (forestTrimHeadings children).trimEdges) := by
  obtain ⟨data, children⟩ := tree
  have hinside : Forest.subtrees children ⊆ (node data children).subtrees :=
    fun _ hmem => mem_subtrees_iff.mpr (.inr hmem)
  rw [trimHeadings, mem_subtrees_iff] at hbelow
  rcases hbelow with rfl | hbelow
  · refine .inr ⟨children, mem_subtrees_iff.mpr (.inl rfl), ?_⟩
    rw [children_node]
    split
    next => exact .inr rfl
    next => exact .inl rfl
  · have horigin : below ∈ (forestTrimHeadings children).subtrees ∨ below.isTextLeaf = true := by
      rw [children_node] at hbelow
      split at hbelow
      next => exact Forest.mem_subtrees_trimEdges hbelow
      next => exact .inl hbelow
    rcases horigin with hbelow | hleaf
    · exact (origin_forestTrimHeadings hbelow).imp_right
        fun ⟨others, hmem, hfrom⟩ => ⟨others, hinside hmem, hfrom⟩
    · exact .inl hleaf

/-- Trimming headings leaves nodes whose children went through it, and text leaves. -/
theorem origin_forestTrimHeadings {forest : Forest} {below : Tree}
    (hbelow : below ∈ (forestTrimHeadings forest).subtrees) :
    below.isTextLeaf = true ∨ ∃ children, .node below.data children ∈ forest.subtrees ∧
      (below.children = forestTrimHeadings children ∨
        below.children = (forestTrimHeadings children).trimEdges) := by
  cases forest with
  | nil => simp [forestTrimHeadings] at hbelow
  | cons tree rest =>
      rw [forestTrimHeadings, Forest.subtrees_cons, List.mem_append] at hbelow
      rw [Forest.subtrees_cons]
      rcases hbelow with hbelow | hbelow
      · exact (origin_trimHeadings hbelow).imp_right
          fun ⟨others, hmem, hfrom⟩ => ⟨others, List.mem_append_left _ hmem, hfrom⟩
      · exact (origin_forestTrimHeadings hbelow).imp_right
          fun ⟨others, hmem, hfrom⟩ => ⟨others, List.mem_append_right _ hmem, hfrom⟩

end

/-- A node as slugging leaves it: a heading has got its element. -/
def Sluggified (data slugged : Node) : Prop :=
  slugged = data ∨ ∃ level slug, data.kind.headingLevel? = some level ∧
    slugged =
      { data with
        element := some { tag := "h" ++ toString level.number, attributes := [("id", slug)] } }

mutual

theorem origin_slugHeadings {slugger : Slugger} {tree below : Tree}
    (hbelow : below ∈ (tree.slugHeadings slugger).1.subtrees) :
    ∃ data children later, .node data children ∈ tree.subtrees ∧ Sluggified data below.data ∧
      below.children = (forestSlugHeadings later children).1 := by
  obtain ⟨data, children⟩ := tree
  have hinside : Forest.subtrees children ⊆ (node data children).subtrees :=
    fun _ hmem => mem_subtrees_iff.mpr (.inr hmem)
  have hself : node data children ∈ (node data children).subtrees :=
    mem_subtrees_iff.mpr (.inl rfl)
  rw [slugHeadings] at hbelow
  dsimp only at hbelow
  split at hbelow
  next level hlevel =>
    rcases mem_subtrees_iff.mp hbelow with rfl | hbelow
    · exact ⟨data, children, _, hself, .inr ⟨level, _, hlevel, rfl⟩, rfl⟩
    · obtain ⟨other, others, later, hmem, hfrom⟩ := origin_forestSlugHeadings hbelow
      exact ⟨other, others, later, hinside hmem, hfrom⟩
  next =>
    rcases mem_subtrees_iff.mp hbelow with rfl | hbelow
    · exact ⟨data, children, _, hself, .inl rfl, rfl⟩
    · obtain ⟨other, others, later, hmem, hfrom⟩ := origin_forestSlugHeadings hbelow
      exact ⟨other, others, later, hinside hmem, hfrom⟩

/-- Slugging leaves nodes whose children were slugged. -/
theorem origin_forestSlugHeadings {slugger : Slugger} {forest : Forest} {below : Tree}
    (hbelow : below ∈ (forestSlugHeadings slugger forest).1.subtrees) :
    ∃ data children later, .node data children ∈ forest.subtrees ∧ Sluggified data below.data ∧
      below.children = (forestSlugHeadings later children).1 := by
  cases forest with
  | nil => simp [forestSlugHeadings] at hbelow
  | cons tree rest =>
      simp only [forestSlugHeadings, Forest.subtrees_cons, List.mem_append] at hbelow
      rw [Forest.subtrees_cons]
      rcases hbelow with hbelow | hbelow
      · obtain ⟨data, children, later, hmem, hfrom⟩ := origin_slugHeadings hbelow
        exact ⟨data, children, later, List.mem_append_left _ hmem, hfrom⟩
      · obtain ⟨data, children, later, hmem, hfrom⟩ := origin_forestSlugHeadings hbelow
        exact ⟨data, children, later, List.mem_append_right _ hmem, hfrom⟩

end

/-! ## Lowering -/

theorem mem_subtrees_lowerNode {data : Node} {children : Forest} {below : Tree}
    (hbelow : below ∈ (lowerNode data children).subtrees) :
    below = lowerNode data children ∨ below = container { tag := "b" } children ∨
      below ∈ children.subtrees := by
  rw [mem_subtrees_iff] at hbelow
  refine hbelow.imp_right fun hbelow => ?_
  have hlowers := lowers_lowerNode data children
  generalize lowerNode data children = lowered at hlowers hbelow
  cases hlowers with
  | emBold =>
      rw [tagged, children_node, Forest.mem_subtrees_cons, Forest.subtrees_nil] at hbelow
      rcases hbelow with rfl | hbelow | hbelow
      · exact .inl rfl
      · exact .inr hbelow
      · cases hbelow
  | _ => exact .inr hbelow

mutual

theorem origin_lower {tree below : Tree} (hbelow : below ∈ tree.lower.subtrees) :
    ∃ data children, .node data children ∈ tree.subtrees ∧
      (below = lowerNode data (forestLower children) ∨
        below = container { tag := "b" } (forestLower children)) := by
  obtain ⟨data, children⟩ := tree
  rw [lower] at hbelow
  rcases mem_subtrees_lowerNode hbelow with hself | hbold | hbelow
  · exact ⟨data, children, mem_subtrees_iff.mpr (.inl rfl), .inl hself⟩
  · exact ⟨data, children, mem_subtrees_iff.mpr (.inl rfl), .inr hbold⟩
  · obtain ⟨other, others, hmem, hfrom⟩ := origin_forestLower hbelow
    exact ⟨other, others, mem_subtrees_iff.mpr (.inr hmem), hfrom⟩

/-- Lowering leaves lowered nodes, and bold texts inside bold emphases. -/
theorem origin_forestLower {forest : Forest} {below : Tree}
    (hbelow : below ∈ (forestLower forest).subtrees) :
    ∃ data children, .node data children ∈ forest.subtrees ∧
      (below = lowerNode data (forestLower children) ∨
        below = container { tag := "b" } (forestLower children)) := by
  cases forest with
  | nil => simp [forestLower] at hbelow
  | cons tree rest =>
      rw [forestLower, Forest.subtrees_cons, List.mem_append] at hbelow
      rw [Forest.subtrees_cons]
      rcases hbelow with hbelow | hbelow
      · obtain ⟨data, children, hmem, hfrom⟩ := origin_lower hbelow
        exact ⟨data, children, List.mem_append_left _ hmem, hfrom⟩
      · obtain ⟨data, children, hmem, hfrom⟩ := origin_forestLower hbelow
        exact ⟨data, children, List.mem_append_right _ hmem, hfrom⟩

end

end Tree

end PageMarkup
