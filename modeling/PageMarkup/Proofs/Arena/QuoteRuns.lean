import PageMarkup.Proofs.Arena.Running
import PageMarkup.Proofs.Tree.Groups

/-! # Quotes as runs of quoted lines

Merging takes the children of the root one after the other and carries the quote that goes on.
Seen from the list, every longest run of quoted lines becomes one quote: the node of its first
line, with a new paragraph for each of its lines that is not blank. The nodes of the other lines
are gone, a run of blank lines is gone altogether, and everything else stands as it stood, with
the numbers it had.
-/

namespace PageMarkup

namespace Arena

variable {arena : Arena} {forest joined rest : NumberedForest} {first quote tree : NumberedTree}

/-- The node is the paragraph of a quoted line: it holds what the line held, trimmed. -/
def Quotes (line paragraph : NumberedTree) : Prop :=
  paragraph.data = { kind := .paragraph, span := line.data.span } ∧
    paragraph.children = line.children.trimEdges

/-- The lines with anything left when their edges are trimmed. -/
def filledLines (lines : NumberedForest) : NumberedForest :=
  lines.filter fun line => !line.children.trimEdges.isEmpty

/-- What merging leaves of a longest run of quoted lines, or of another node. -/
inductive MergedRun : NumberedForest → NumberedForest → Prop where
  | other {tree : NumberedTree} : isQuote tree = false → MergedRun [tree] [tree]
  | blank {lines : NumberedForest} : (∀ line ∈ lines, isQuote line = true) →
    filledLines lines = [] → MergedRun lines []
  | quote {first : NumberedTree} {lines paragraphs : NumberedForest} :
    (∀ line ∈ first :: lines, isQuote line = true) → filledLines (first :: lines) ≠ [] →
    List.Forall₂ Quotes (filledLines (first :: lines)) paragraphs →
    MergedRun (first :: lines) [.node first.id
      { first.data with span := coverAll ((first :: lines).map fun line => line.data.span) }
      paragraphs]

theorem ParagraphOf.forall₂ {line : NumberedTree} {added : NumberedForest}
    (hadded : ParagraphOf line added) : List.Forall₂ Quotes (filledLines [line]) added := by
  obtain ⟨paragraph, rfl⟩ := hadded
  rw [filledLines, List.filter_singleton]
  cases line.children.trimEdges.isEmpty with
  | true => exact .nil
  | false => exact .cons ⟨rfl, rfl⟩ .nil

/-! ## One run -/

/-- Nothing goes on the quote before a node that is no quoted line. -/
theorem Joins.of_not_isQuote (hrest : ∀ next ∈ rest.head?, isQuote next = false)
    (hjoins : Joins (some quote) rest joined) :
    ∃ others, joined = quote :: others ∧ Joins none rest others := by
  cases hjoins with
  | nil => exact ⟨[], rfl, .nil none⟩
  | other htree hothers => exact ⟨_, rfl, .other htree hothers⟩
  | join hquote =>
      rw [hrest _ rfl] at hquote
      cases hquote

/-- Quoted lines go on the quote before them, each with its span and its paragraph. -/
theorem Joins.of_lines {lines : NumberedForest} (hlines : ∀ line ∈ lines, isQuote line = true)
    (hrest : ∀ next ∈ rest.head?, isQuote next = false)
    (hjoins : Joins (some quote) (lines ++ rest) joined) :
    ∃ added others, joined = .node quote.id
          { quote.data with
            span := (lines.map fun line => line.data.span).foldl Span.cover quote.data.span }
          (quote.children ++ added) :: others ∧
      List.Forall₂ Quotes (filledLines lines) added ∧ Joins none rest others := by
  induction lines generalizing quote with
  | nil =>
      obtain ⟨others, rfl, hothers⟩ := hjoins.of_not_isQuote hrest
      refine ⟨[], others, ?_, .nil, hothers⟩
      obtain ⟨id, data, children⟩ := quote
      simp
  | cons line lines ih =>
      obtain ⟨hline, hlines⟩ := List.forall_mem_cons.mp hlines
      cases hjoins with
      | other htree =>
          rw [hline] at htree
          cases htree
      | @join _ _ paragraph _ _ _ hparagraph hjoins =>
          obtain ⟨added, others, rfl, hadded, hothers⟩ := ih hlines hjoins
          refine ⟨paragraph ++ added, others, ?_, ?_, hothers⟩
          · simp [extended]
          · rw [← List.singleton_append, filledLines, List.filter_append]
            exact List.rel_append hparagraph.forall₂ hadded

/-- A longest run of quoted lines becomes one quote. -/
theorem Joins.of_run {lines : NumberedForest}
    (hlines : ∀ line ∈ first :: lines, isQuote line = true)
    (hrest : ∀ next ∈ rest.head?, isQuote next = false)
    (hjoins : Joins none (first :: lines ++ rest) joined) :
    ∃ paragraphs others, joined = .node first.id
          { first.data with span := coverAll ((first :: lines).map fun line => line.data.span) }
          paragraphs :: others ∧
      List.Forall₂ Quotes (filledLines (first :: lines)) paragraphs ∧ Joins none rest others := by
  obtain ⟨hfirst, hlines⟩ := List.forall_mem_cons.mp hlines
  cases hjoins with
  | other htree =>
      rw [hfirst] at htree
      cases htree
  | start _ hparagraph hjoins =>
      obtain ⟨added, others, rfl, hadded, hothers⟩ := hjoins.of_lines hlines hrest
      refine ⟨_, others, rfl, ?_, hothers⟩
      rw [← List.singleton_append, filledLines, List.filter_append]
      exact List.rel_append hparagraph.forall₂ hadded

/-! ## All of them -/

/-- The quotes that are kept are those of the runs with anything to show. -/
theorem Joins.mergedRuns (hjoins : Joins none forest joined) :
    ∃ outcomes, List.Forall₂ MergedRun (groupsBy isQuote forest) outcomes ∧
      joined.filter (fun tree => !(isQuote tree && tree.children.isEmpty)) = outcomes.flatten := by
  -- no quote goes on where a run starts, since the run before it is a longest one
  induction forest using groupsBy_induction isQuote generalizing joined with
  | hnil =>
      cases hjoins
      exact ⟨[], .nil, rfl⟩
  | hother tree rest htree ih =>
      cases hjoins with
      | start hquote =>
          rw [htree] at hquote
          cases hquote
      | other _ hothers =>
          obtain ⟨outcomes, hruns, hkept⟩ := ih hothers
          refine ⟨[tree] :: outcomes, ?_, ?_⟩
          · rw [groupsBy_cons_of_not htree]
            exact .cons (.other htree) hruns
          · rw [List.flatten_cons, ← hkept]
            simp [htree]
  | hrun first lines rest hlines hrest ih =>
      obtain ⟨paragraphs, others, rfl, hparagraphs, hothers⟩ := hjoins.of_run hlines hrest
      obtain ⟨outcomes, hruns, hkept⟩ := ih hothers
      have hquote : isQuote (.node first.id
          { first.data with span := coverAll ((first :: lines).map fun line => line.data.span) }
          paragraphs) = true := hlines first List.mem_cons_self
      rw [groupsBy_run hlines hrest, List.filter_cons, hquote, Bool.true_and,
        NumberedTree.children_node, hkept]
      by_cases hblank : filledLines (first :: lines) = []
      · -- a quote without paragraphs is one that is not kept
        rw [hblank] at hparagraphs
        cases hparagraphs
        exact ⟨[] :: outcomes, .cons (.blank hlines hblank) hruns, rfl⟩
      · refine ⟨[_] :: outcomes, .cons (.quote hlines hblank hparagraphs) hruns, ?_⟩
        have hfilled : paragraphs.isEmpty = false := by
          rw [List.isEmpty_eq_false_iff]
          rintro rfl
          exact hblank (List.forall₂_nil_right_iff.mp hparagraphs)
        rw [hfilled]
        rfl

theorem MergedRun.of_not_isQuote {outcome : NumberedForest} (htree : isQuote tree = false)
    (hrun : MergedRun [tree] outcome) : outcome = [tree] := by
  have hnot : ¬ ∀ line ∈ [tree], isQuote line = true := by simp [htree]
  cases hrun with
  | other => rfl
  | blank hlines => exact absurd hlines hnot
  | quote hlines => exact absurd hlines hnot

theorem MergedRun.length_le {run outcome : NumberedForest} (hrun : MergedRun run outcome) :
    outcome.length ≤ 1 := by
  cases hrun with
  | blank => exact Nat.zero_le 1
  | other | quote => exact Nat.le_refl 1

/-- Between two quotes that are left there is always another node. -/
theorem isChain_of_mergedRuns {outcomes : List NumberedForest}
    (hruns : List.Forall₂ MergedRun (groupsBy isQuote forest) outcomes) :
    outcomes.flatten.IsChain (fun first second => ¬ (isQuote first = true ∧ isQuote second = true)) ∧
      ((∀ next ∈ forest.head?, isQuote next = false) →
        ∀ next ∈ outcomes.flatten.head?, isQuote next = false) := by
  induction forest using groupsBy_induction isQuote generalizing outcomes with
  | hnil =>
      cases hruns
      exact ⟨.nil, fun _ => nofun⟩
  | hother tree rest htree ih =>
      rw [groupsBy_cons_of_not htree] at hruns
      obtain ⟨outcome, others, hrun, hothers, rfl⟩ := List.forall₂_cons_left_iff.mp hruns
      obtain rfl := hrun.of_not_isQuote htree
      obtain ⟨hchain, -⟩ := ih hothers
      refine ⟨List.isChain_cons.mpr ⟨fun _ _ hboth => ?_, hchain⟩, fun hhead => hhead⟩
      rw [htree] at hboth
      cases hboth.1
  | hrun first lines rest hlines hrest ih =>
      rw [groupsBy_run hlines hrest] at hruns
      obtain ⟨outcome, others, hrun, hothers, rfl⟩ := List.forall₂_cons_left_iff.mp hruns
      obtain ⟨hchain, hnext⟩ := ih hothers
      refine ⟨?_, fun hhead => ?_⟩
      · -- what follows a longest run is no quote, nor does one come forward when the run is gone
        match outcome, hrun.length_le with
        | [], _ => exact hchain
        | [quote], _ =>
            refine List.isChain_cons.mpr ⟨fun next hmem hboth => ?_, hchain⟩
            rw [hnext hrest next hmem] at hboth
            cases hboth.2
      · have hfirst := hhead first rfl
        rw [hlines first List.mem_cons_self] at hfirst
        cases hfirst

/-- Once a page is nested, the arena of a compilation holds a document after any of its passes. -/
theorem exists_holds_of_runPasses {source : Source} {registries : Registries}
    (hbuild : Arena.build source.lexemes = .ok (.ok arena)) {passes : List Pass}
    (hpasses : passes <+: Pass.inOrder) {happenings : List Happening} {numbered : ArenaDraft}
    (hrun : ArenaDraft.runPasses source registries passes { arena } =
      .ok (happenings, .ok numbered)) :
    ∃ forest, numbered.arena.Holds forest := by
  obtain ⟨body, draft, -, -, hmirrors⟩ := Source.exists_mirrors_of_runPasses hbuild hpasses hrun
  obtain ⟨forest, hholds, -⟩ := hmirrors.page
  exact ⟨forest, hholds⟩

/-- Merging quotes meets the list of runs in any arena that holds a document, as it does in a
compilation after the passes before: nothing fails, and the arena then holds what is left of the
runs, in order. -/
theorem mergeQuotes_runs (hholds : Holds arena forest) :
    ∃ next outcomes, arena.mergeQuotes = .ok next ∧ Holds next outcomes.flatten ∧
      List.Forall₂ MergedRun (groupsBy isQuote forest) outcomes ∧
      outcomes.flatten.IsChain fun first second =>
        ¬ (isQuote first = true ∧ isQuote second = true) := by
  obtain ⟨next, joined, hnext, hjoins, hholds⟩ := hholds.exists_joins
  obtain ⟨outcomes, hruns, hkept⟩ := hjoins.mergedRuns
  rw [hkept] at hholds
  exact ⟨next, outcomes, hnext, hholds, hruns, (isChain_of_mergedRuns hruns).1⟩

/-- A quote of two lines, of which the second is blank, and after a newline a blank one. -/
def quotesExample : Arena where
  slots :=
    #[ some { data := { kind := .documentRoot }, first := some 1, last := some 6 }
     , some { data := { kind := .aggregate (.line .blockquote), span := ⟨0, 2⟩ }, parent := some 0,
              next := some 3, first := some 2, last := some 2 }
     , some { data := { kind := .text, text := " a", span := ⟨1, 2⟩ }, parent := some 1 }
     , some { data := { kind := .aggregate (.line .blockquote), span := ⟨3, 5⟩ }, parent := some 0,
              previous := some 1, next := some 5, first := some 4, last := some 4 }
     , some { data := { kind := .text, text := " ", span := ⟨4, 5⟩ }, parent := some 3 }
     , some { data := { kind := .newline, span := ⟨6, 7⟩ }, parent := some 0, previous := some 3,
              next := some 6 }
     , some { data := { kind := .aggregate (.line .blockquote), span := ⟨7, 8⟩ }, parent := some 0,
              previous := some 5 } ]
  free := []

/-- The children of the root of the example. -/
def quotesTrees : NumberedForest :=
  [ .node 1 { kind := .aggregate (.line .blockquote), span := ⟨0, 2⟩ }
      [.node 2 { kind := .text, text := " a", span := ⟨1, 2⟩ } []]
  , .node 3 { kind := .aggregate (.line .blockquote), span := ⟨3, 5⟩ }
      [.node 4 { kind := .text, text := " ", span := ⟨4, 5⟩ } []]
  , .node 5 { kind := .newline, span := ⟨6, 7⟩ } []
  , .node 6 { kind := .aggregate (.line .blockquote), span := ⟨7, 8⟩ } [] ]

theorem quotesExample_holds : Holds quotesExample quotesTrees := by
  have hids : NumberedForest.ids (Place.plug [top] quotesTrees) = [0, 1, 2, 3, 4, 5, 6] := by
    simp [quotesTrees, Place.plug_cons, top, root]
  apply stores_of_slots hids (by decide) ?_ (by decide) (by decide)
  simp only [quotesTrees, Place.plug_cons, Place.plug_nil, top, List.nil_append, linked_cons,
    linked_nil]
  decide

/-- Two lines become one quote with one paragraph, and the blank quote is gone. -/
theorem mergeQuotes_quotesExample : Holds quotesExample quotesTrees ∧
    ∃ next outcomes, quotesExample.mergeQuotes = .ok next ∧ Holds next outcomes.flatten ∧
      List.Forall₂ MergedRun (groupsBy isQuote quotesTrees) outcomes ∧
      outcomes.flatten.IsChain fun first second =>
        ¬ (isQuote first = true ∧ isQuote second = true) :=
  ⟨quotesExample_holds, mergeQuotes_runs quotesExample_holds⟩

example : (quotesExample.mergeQuotes.bind fun next => next.children root) = .ok [1, 5] := by
  decide

end Arena

end PageMarkup
