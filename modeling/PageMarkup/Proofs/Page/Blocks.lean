import Mathlib.Data.List.TakeWhile
import PageMarkup.Proofs.Page.Presented

/-! # Blocks between newlines

A newline at the root ends whatever is gathered there: no quote and no paragraph goes on
over it. So a page is arranged between newlines part by part, and newlines that nothing
stands between make no difference.
-/

namespace PageMarkup

namespace Forest

variable {newline : Tree}

theorem not_isQuote_of_isNewline (hnewline : isNewline newline = true) :
    isQuote newline = false := by
  have hkind : newline.kind = .newline := by simpa [isNewline] using hnewline
  simp [isQuote, hkind]

/-- A quote in front goes on a quote only if nothing stands between them. -/
theorem prependQuote_append (hnewline : isNewline newline = true) (line : Tree)
    (first second : Forest) :
    prependQuote line (first ++ newline :: second) =
      prependQuote line first ++ newline :: second := by
  cases first with
  | nil => simp [prependQuote, not_isQuote_of_isNewline hnewline]
  | cons next rest =>
      rw [List.cons_append, prependQuote, prependQuote]
      split <;> rfl

theorem joinQuotes_append (hnewline : isNewline newline = true) (first second : Forest) :
    joinQuotes (first ++ newline :: second) = joinQuotes first ++ newline :: joinQuotes second := by
  induction first with
  | nil => simp [joinQuotes, not_isQuote_of_isNewline hnewline]
  | cons tree rest ih =>
      rw [List.cons_append, joinQuotes, joinQuotes, ih]
      split
      · exact prependQuote_append hnewline ..
      · rfl

theorem mergeQuotes_append (hnewline : isNewline newline = true) (first second : Forest) :
    mergeQuotes (first ++ newline :: second) =
      mergeQuotes first ++ newline :: mergeQuotes second := by
  simp [mergeQuotes, joinQuotes_append hnewline, not_isQuote_of_isNewline hnewline]

theorem paragraphsFrom_append (hnewline : isNewline newline = true) (run first second : Forest) :
    paragraphsFrom run (first ++ newline :: second) =
      paragraphsFrom run first ++ paragraphs second := by
  induction first generalizing run with
  | nil => simp [paragraphsFrom, hnewline, paragraphs]
  | cons tree rest ih =>
      rw [List.cons_append, paragraphsFrom, paragraphsFrom]
      split
      · rw [ih, List.append_assoc]
      · split
        · rw [ih, List.append_assoc, List.cons_append]
        · exact ih _

theorem paragraphs_append (hnewline : isNewline newline = true) (first second : Forest) :
    paragraphs (first ++ newline :: second) = paragraphs first ++ paragraphs second :=
  paragraphsFrom_append hnewline ..

theorem paragraphs_cons_newline (hnewline : isNewline newline = true) (rest : Forest) :
    paragraphs (newline :: rest) = paragraphs rest := paragraphs_append hnewline [] rest

theorem paragraphs_newlines {newlines : Forest}
    (hnewlines : ∀ tree ∈ newlines, isNewline tree = true) : paragraphs newlines = [] := by
  induction newlines with
  | nil => rfl
  | cons newline rest ih =>
      obtain ⟨hnewline, hrest⟩ := List.forall_mem_cons.mp hnewlines
      rw [paragraphs_cons_newline hnewline, ih hrest]

/-- Newlines after everything else are not looked at. -/
theorem paragraphs_append_newlines {newlines : Forest}
    (hnewlines : ∀ tree ∈ newlines, isNewline tree = true) (first : Forest) :
    paragraphs (first ++ newlines) = paragraphs first := by
  cases newlines with
  | nil => rw [List.append_nil]
  | cons newline rest =>
      obtain ⟨hnewline, hrest⟩ := List.forall_mem_cons.mp hnewlines
      rw [paragraphs_append hnewline, paragraphs_newlines hrest, List.append_nil]

/-- Grouping drops the newlines that trimming would have dropped. -/
theorem paragraphs_trimNewlines (forest : Forest) :
    forest.trimNewlines.paragraphs = forest.paragraphs := by
  have hfront : ∀ forest : Forest, paragraphs (forest.dropWhile isNewline) = paragraphs forest := by
    intro forest
    induction forest with
    | nil => rfl
    | cons tree rest ih =>
        rw [List.dropWhile_cons]
        split
        next hnewline => rw [ih, paragraphs_cons_newline hnewline]
        next => rfl
  have hback : ∀ forest : Forest,
      paragraphs (Text.dropTailWhile isNewline forest) = paragraphs forest := by
    intro forest
    have hparts : forest = Text.dropTailWhile isNewline forest ++
        (forest.reverse.takeWhile isNewline).reverse := by
      rw [Text.dropTailWhile, ← List.reverse_append, List.takeWhile_append_dropWhile,
        List.reverse_reverse]
    have hnewlines : ∀ tree ∈ (forest.reverse.takeWhile isNewline).reverse,
        isNewline tree = true :=
      fun tree hmem => List.mem_takeWhile_imp (List.mem_reverse.mp hmem)
    have hsame := paragraphs_append_newlines hnewlines (Text.dropTailWhile isNewline forest)
    rw [← hparts] at hsame
    exact hsame.symm
  rw [trimNewlines, hback, hfront]

theorem arranged_eq (body : Forest) : body.arranged = body.mergeQuotes.paragraphs :=
  paragraphs_trimNewlines _

/-- A page is arranged between newlines part by part. -/
theorem arranged_append (hnewline : isNewline newline = true) (first second : Forest) :
    arranged (first ++ newline :: second) = arranged first ++ arranged second := by
  rw [arranged_eq, mergeQuotes_append hnewline, paragraphs_append hnewline, arranged_eq,
    arranged_eq]

end Forest

end PageMarkup
