import PageMarkup.Block.Paragraph
import PageMarkup.Proofs.Arena.Visiting

/-! # Quotes and paragraphs in an arena

The passes that arrange the children of the root go over the numbers of the children
once. What they have arranged stands before the child whose turn it is, and what they
have not passed yet stands after it as it stood at the start.
-/

namespace PageMarkup

open NumberedForest

namespace Arena

variable {arena : Arena} {frame : Frame} {place : Place}
  {before after siblings : NumberedForest} {tree : NumberedTree}

/-! ## Newlines -/

/-- Whether the tree is a newline. -/
def isNewline (tree : NumberedTree) : Bool := Forest.isNewline tree.erase

theorem erase_dropWhile (siblings : NumberedForest) :
    NumberedForest.erase (siblings.dropWhile isNewline) =
      siblings.erase.dropWhile Forest.isNewline := by
  induction siblings with
  | nil => simp
  | cons tree rest ih =>
      rw [erase_cons_eq, List.dropWhile_cons, List.dropWhile_cons, ← ih, isNewline]
      split
      next => rfl
      next => exact erase_cons_eq ..

/-- The newlines at one end of the children of the root are removed. -/
theorem Stores.trimNewlinesAt {outermost : Cell → Option Nat}
    {arrange : NumberedForest → NumberedForest} (hend : IsEnd outermost arrange) {fuel : Nat}
    (hfuel : siblings.length < fuel)
    (hstores : Stores arena (Place.plug [top] (arrange siblings))) :
    ∃ next, Arena.trimNewlinesAt outermost fuel arena = .ok next ∧
      Stores next (Place.plug [top] (arrange (siblings.dropWhile isNewline))) := by
  induction siblings generalizing arena fuel with
  | nil =>
      obtain ⟨fuel, rfl⟩ : ∃ smaller, fuel = smaller + 1 := ⟨fuel - 1, by omega⟩
      obtain ⟨cell, hcell, houtermost⟩ := hend.outermost_get? hstores
      have hroot : arena.get root = .ok cell := get_eq hcell
      refine ⟨arena, ?_, hstores⟩
      rw [Arena.trimNewlinesAt, hroot, ok_bind, houtermost]
      rfl
  | cons tree rest ih =>
      obtain ⟨fuel, rfl⟩ : ∃ smaller, fuel = smaller + 1 := ⟨fuel - 1, by omega⟩
      obtain ⟨parent, hparent, houtermost⟩ := hend.outermost_get? hstores
      have hroot : arena.get root = .ok parent := get_eq hparent
      obtain ⟨before, after, hrest, hsplit⟩ := hend.split rest
      rw [hsplit] at hstores
      obtain ⟨cell, hcell, hdata, -, -⟩ := hstores.exists_get
      have hnewline : isNewline tree = (tree.data.kind == .newline) := rfl
      rw [Arena.trimNewlinesAt, hroot, ok_bind, houtermost, firstId_cons, List.dropWhile_cons,
        hnewline]
      simp only [hcell, ok_bind, hdata, beq_iff_eq]
      split
      next =>
        obtain ⟨removed, hremove, hstores⟩ := hstores.remove
        rw [hrest] at hstores
        obtain ⟨next, hnext, hstores⟩ := ih (by simpa using hfuel) hstores
        exact ⟨next, by rw [hremove, ok_bind, hnext], hstores⟩
      next => exact ⟨arena, rfl, by rwa [hsplit]⟩

/-- The forest between the newlines at its start and those at its end. -/
def trimmedNewlines (forest : NumberedForest) : NumberedForest :=
  ((forest.dropWhile isNewline).reverse.dropWhile isNewline).reverse

theorem erase_trimmedNewlines (forest : NumberedForest) :
    NumberedForest.erase (trimmedNewlines forest) = forest.erase.trimNewlines := by
  rw [trimmedNewlines, erase_reverse, erase_dropWhile, erase_reverse, erase_dropWhile]
  rfl

/-- The newlines at the start and the end of a document are removed. -/
theorem Holds.trimmedNewlines {forest : NumberedForest} (hholds : Holds arena forest) :
    ∃ next, arena.trimNewlines = .ok next ∧ Holds next (trimmedNewlines forest) := by
  obtain ⟨middle, hmiddle, hstores⟩ :=
    Stores.trimNewlinesAt isEnd_first (Stores.length_lt_bound hholds) hholds
  rw [id, ← List.reverse_reverse (forest.dropWhile _)] at hstores
  have hlt := hstores.length_lt_bound
  rw [List.length_reverse] at hlt
  obtain ⟨next, hnext, hstores⟩ := Stores.trimNewlinesAt isEnd_last hlt hstores
  exact ⟨next, by rw [Arena.trimNewlines, hmiddle, ok_bind, hnext], hstores⟩

/-- Trimming the newlines of an arena trims those of the forest in it. -/
theorem Holds.trimNewlines {forest : NumberedForest} (hholds : Holds arena forest) :
    ∃ next kept, arena.trimNewlines = .ok next ∧
      NumberedForest.erase kept = forest.erase.trimNewlines ∧ Holds next kept := by
  obtain ⟨next, hnext, hholds⟩ := hholds.trimmedNewlines
  exact ⟨next, _, hnext, erase_trimmedNewlines forest, hholds⟩

/-! ## Quotes -/

namespace Stores

/-- The content of a quoted line becomes a paragraph beside the document. -/
theorem quotedParagraph (span : Span)
    (hstores : Stores arena (Place.plug (frame :: place) (before ++ tree :: after))) :
    ∃ paragraph next, arena.quotedParagraph tree.id span = .ok (paragraph, next) ∧
      Stores next (.node paragraph { kind := .paragraph, span } tree.children.trimEdges ::
        Place.plug (frame :: place) (before ++ .node tree.id tree.data [] :: after)) := by
  obtain ⟨paragraph, allocated, halloc, hstores⟩ := hstores.alloc { kind := .paragraph, span }
  rw [← Place.plug_frame] at hstores
  obtain ⟨moved, hmove, hstores⟩ := hstores.moveChildren
  have hbeside : Stores moved (Place.plug [⟨paragraph, { kind := .paragraph, span }, [],
      Place.plug (tree.frame before after :: frame :: place) []⟩] tree.children) := hstores
  obtain ⟨next, htrim, hstores⟩ := hbeside.trimEdges
  refine ⟨paragraph, next, ?_, hstores⟩
  have hmove : allocated.moveChildren tree.id paragraph = .ok moved := hmove
  have htrim : moved.trimEdges paragraph = .ok next := htrim
  simp [Arena.quotedParagraph, halloc, hmove, htrim]

/-- A root is linked as the last child of a node, or removed if it is a leaf. -/
theorem adopt {id : Nat} {data : Node} {children : NumberedForest}
    (hstores : Stores arena (.node id data children :: Place.plug (frame :: place) siblings)) :
    ∃ next, arena.adopt frame.id id = .ok next ∧
      Stores next (Place.plug (frame :: place)
        (siblings ++ if children.isEmpty then [] else [NumberedTree.node id data children])) := by
  have hroot : Stores arena (Place.plug [] ([] ++ .node id data children ::
      Place.plug (frame :: place) siblings)) := hstores
  obtain ⟨cell, hcell, -, -, hleaf⟩ := hroot.exists_get
  rw [NumberedTree.id_node] at hcell
  rw [Arena.adopt, hcell, ok_bind, hleaf, NumberedTree.children_node]
  cases children with
  | nil =>
      obtain ⟨next, hremove, hstores⟩ := hstores.remove_root
      exact ⟨next, hremove, by simpa using hstores⟩
  | cons child rest =>
      obtain ⟨next, happend, hstores⟩ := hstores.append
      exact ⟨next, happend, hstores⟩

/-- A quote goes on to the end of a quoted line after it, and the line is removed. The
paragraph of the line is still beside the document. -/
theorem extendQuote {paragraph quote line : NumberedTree} (span : Span)
    (hstores : Stores arena
      (paragraph :: Place.plug (frame :: place) (before ++ quote :: line :: after))) :
    ∃ next, arena.extendQuote quote.id line.id span = .ok next ∧
      Stores next (paragraph :: Place.plug (frame :: place)
        (before ++ .node quote.id { quote.data with span := quote.data.span.cover span }
          quote.children :: after)) := by
  obtain ⟨other, outer, -, -, hplug⟩ := Place.exists_beside [paragraph] frame place
  simp only [List.singleton_append] at hplug
  rw [← hplug] at hstores
  obtain ⟨updated, hupdate, hstores⟩ :=
    hstores.update fun data => { data with span := data.span.cover span }
  rw [List.append_cons] at hstores
  obtain ⟨next, hremove, hstores⟩ := hstores.remove
  refine ⟨next, by rw [Arena.extendQuote, hupdate, ok_bind, hremove], ?_⟩
  rwa [hplug, List.append_assoc] at hstores

end Stores

end Arena

namespace Forest

/-- A quote before a forest whose quotes are merged. A quote right after it goes on it. -/
def continueQuote (quote : Tree) : Forest → Forest
  | [] => [quote]
  | next :: rest =>
    if isQuote next then
      .node { quote.data with span := quote.data.span.cover next.data.span }
        (quote.children ++ next.children) :: rest
    else quote :: next :: rest

/-- A forest whose quotes are merged, with the quote right before it if there is one. -/
def afterQuote : Option Tree → Forest → Forest
  | some quote, forest => continueQuote quote forest
  | none, forest => forest

theorem prependQuote_eq (line : Tree) (forest : Forest) :
    prependQuote line forest = continueQuote (.node line.data (quotedParagraph line)) forest := by
  cases forest with
  | nil => rfl
  | cons next rest => rfl

theorem continueQuote_of_isQuote {next : Tree} (hnext : isQuote next = true) (quote : Tree)
    (rest : Forest) :
    continueQuote quote (next :: rest) =
      .node { quote.data with span := quote.data.span.cover next.data.span }
        (quote.children ++ next.children) :: rest := if_pos hnext

theorem continueQuote_of_not_isQuote {next : Tree} (hnext : isQuote next = false) (quote : Tree)
    (rest : Forest) : continueQuote quote (next :: rest) = quote :: next :: rest :=
  if_neg (by simp [hnext])

/-- A quote that goes on with a quote goes on with everything that one goes on with. -/
theorem continueQuote_continueQuote {line : Tree} (hline : isQuote line = true) (quote : Tree)
    (forest : Forest) :
    continueQuote quote (continueQuote line forest) =
      continueQuote (.node { quote.data with span := quote.data.span.cover line.data.span }
        (quote.children ++ line.children)) forest := by
  cases forest with
  | nil => exact continueQuote_of_isQuote hline quote []
  | cons next rest =>
      by_cases hnext : isQuote next = true
      · rw [continueQuote_of_isQuote hnext, continueQuote_of_isQuote hnext]
        have hjoined : isQuote (.node { line.data with span := line.data.span.cover next.data.span }
            (line.children ++ next.children)) = true := hline
        rw [continueQuote_of_isQuote hjoined]
        simp [Span.cover_assoc, Tree.data, Tree.children]
      · have hnext : isQuote next = false := by simpa using hnext
        rw [continueQuote_of_not_isQuote hnext, continueQuote_of_not_isQuote hnext,
          continueQuote_of_isQuote hline]

end Forest

namespace Arena

variable {arena : Arena} {frame : Frame} {place : Place}
  {before after siblings : NumberedForest} {tree : NumberedTree}

/-- Whether the tree is a quoted line. -/
def isQuote (tree : NumberedTree) : Bool := Forest.isQuote tree.erase

/-- What a quoted line adds to its quote: its content in a new paragraph, if there is any. -/
def ParagraphOf (line : NumberedTree) (added : NumberedForest) : Prop :=
  ∃ paragraph, added = if line.children.trimEdges.isEmpty then []
    else [.node paragraph { kind := .paragraph, span := line.data.span } line.children.trimEdges]

theorem ParagraphOf.erase {line : NumberedTree} {added : NumberedForest}
    (hadded : ParagraphOf line added) :
    NumberedForest.erase added = Forest.quotedParagraph line.erase := by
  obtain ⟨paragraph, rfl⟩ := hadded
  rw [Forest.quotedParagraph, NumberedTree.children_erase, ← erase_trimEdges, isEmpty_erase]
  split
  next => exact erase_nil
  next => rw [erase_cons, erase_nil, NumberedTree.data_erase]

/-- A quote with what a line after it adds to it. -/
def extended (quote line : NumberedTree) (added : NumberedForest) : NumberedTree :=
  .node quote.id { quote.data with span := quote.data.span.cover line.data.span }
    (quote.children ++ added)

/-- What merging leaves of some siblings, with the quote right before them if there is one. Quotes
without content are still there. -/
inductive Joins : Option NumberedTree → NumberedForest → NumberedForest → Prop where
  | nil (quote : Option NumberedTree) : Joins quote [] quote.toList
  | other {quote : Option NumberedTree} {tree : NumberedTree} {rest joined : NumberedForest} :
    isQuote tree = false → Joins none rest joined →
    Joins quote (tree :: rest) (quote.toList ++ tree :: joined)
  | start {line : NumberedTree} {added rest joined : NumberedForest} :
    isQuote line = true → ParagraphOf line added →
    Joins (some (.node line.id line.data added)) rest joined → Joins none (line :: rest) joined
  | join {quote line : NumberedTree} {added rest joined : NumberedForest} :
    isQuote line = true → ParagraphOf line added →
    Joins (some (extended quote line added)) rest joined → Joins (some quote) (line :: rest) joined

/-- Without the numbers, quotes are merged from the last one on. -/
theorem Joins.erase {quote : Option NumberedTree} {joined : NumberedForest}
    (hjoins : Joins quote siblings joined) :
    NumberedForest.erase joined =
      Forest.afterQuote (quote.map NumberedTree.erase) (Forest.joinQuotes siblings.erase) := by
  induction hjoins with
  | nil quote =>
      cases quote <;> simp [Forest.joinQuotes, Forest.afterQuote, Forest.continueQuote, erase_cons_eq]
  | @other quote tree rest joined htree _ ih =>
      have hline : Forest.isQuote tree.erase = false := htree
      rw [erase_cons_eq, Forest.joinQuotes, if_neg (by simp [hline])]
      cases quote with
      | none => simp [erase_cons_eq, ih, Forest.afterQuote]
      | some quote =>
          rw [Option.map_some, Forest.afterQuote, Forest.continueQuote_of_not_isQuote hline]
          simp [erase_cons_eq, ih, Forest.afterQuote]
  | @start line _ _ _ hquote hadded _ ih =>
      have hline : Forest.isQuote line.erase = true := hquote
      rw [ih, erase_cons_eq, Forest.joinQuotes, if_pos hline, Forest.prependQuote_eq,
        ← hadded.erase]
      rfl
  | @join quote line added rest joined hquote hadded _ ih =>
      have hline : Forest.isQuote line.erase = true := hquote
      have hparagraph : Forest.isQuote
          (.node line.erase.data (Forest.quotedParagraph line.erase)) = true := hquote
      have hextended : (extended quote line added).erase =
          .node { quote.data with span := quote.data.span.cover line.data.span }
            (quote.children.erase ++ Forest.quotedParagraph line.erase) := by
        rw [← hadded.erase, ← erase_append]
        rfl
      rw [ih, erase_cons_eq, Forest.joinQuotes, if_pos hline, Forest.prependQuote_eq,
        Option.map_some, hextended]
      exact (Forest.continueQuote_continueQuote hparagraph quote.erase _).symm

namespace Stores

/-- A quoted line that is the first of its quote holds its paragraph. -/
theorem startQuote (hstores : Stores arena (Place.plug (frame :: place) (before ++ tree :: after))) :
    ∃ paragraph middle next added,
      arena.quotedParagraph tree.id tree.data.span = .ok (paragraph, middle) ∧
      middle.adopt tree.id paragraph = .ok next ∧ ParagraphOf tree added ∧
      Stores next (Place.plug (frame :: place) (before ++ NumberedTree.node tree.id tree.data added :: after)) := by
  obtain ⟨paragraph, middle, hparagraph, hstores⟩ := hstores.quotedParagraph tree.data.span
  have hline : Stores middle (.node paragraph { kind := .paragraph, span := tree.data.span }
      tree.children.trimEdges ::
      Place.plug (⟨tree.id, tree.data, before, after⟩ :: frame :: place) []) := hstores
  obtain ⟨next, hadopt, hstores⟩ := hline.adopt
  exact ⟨paragraph, middle, next, _, hparagraph, hadopt, ⟨paragraph, rfl⟩, hstores⟩

/-- A quoted line after a quote leaves its paragraph to the quote. -/
theorem joinQuote {quote : NumberedTree}
    (hstores : Stores arena (Place.plug (frame :: place) (before ++ quote :: tree :: after))) :
    ∃ paragraph first second next added,
      arena.quotedParagraph tree.id tree.data.span = .ok (paragraph, first) ∧
      first.extendQuote quote.id tree.id tree.data.span = .ok second ∧
      second.adopt quote.id paragraph = .ok next ∧ ParagraphOf tree added ∧
      Stores next (Place.plug (frame :: place) (before ++ extended quote tree added :: after)) := by
  rw [List.append_cons] at hstores
  obtain ⟨paragraph, first, hparagraph, hstores⟩ := hstores.quotedParagraph tree.data.span
  rw [← List.append_cons] at hstores
  obtain ⟨second, hextend, hstores⟩ := hstores.extendQuote tree.data.span
  have hquote : Stores second (.node paragraph { kind := .paragraph, span := tree.data.span }
      tree.children.trimEdges :: Place.plug
        (⟨quote.id, { quote.data with span := quote.data.span.cover tree.data.span }, before,
          after⟩ :: frame :: place) quote.children) := hstores
  obtain ⟨next, hadopt, hstores⟩ := hquote.adopt
  exact ⟨paragraph, first, second, next, _, hparagraph, hextend, hadopt, ⟨paragraph, rfl⟩, hstores⟩

/-- The quoted lines among some siblings are merged, with the quote right before them if
there is one. -/
theorem joinQuotes {quote : Option NumberedTree}
    (hstores : Stores arena
      (Place.plug (frame :: place) (before ++ (quote.toList ++ siblings)))) :
    ∃ next joined,
      arena.joinQuotes (quote.map NumberedTree.id) (siblings.map NumberedTree.id) = .ok next ∧
      Joins quote siblings joined ∧ Stores next (Place.plug (frame :: place) (before ++ joined)) := by
  induction siblings generalizing arena before quote with
  | nil =>
      refine ⟨arena, quote.toList, by rw [List.map_nil, Arena.joinQuotes]; rfl, .nil quote, ?_⟩
      simpa using hstores
  | cons tree rest ih =>
      have htree : Stores arena
          (Place.plug (frame :: place) ((before ++ quote.toList) ++ tree :: rest)) := by
        simpa using hstores
      obtain ⟨cell, hcell, hdata, -, -⟩ := htree.exists_get
      have hkind : isQuote tree = (tree.data.kind == .aggregate (.line .blockquote)) := rfl
      rw [List.map_cons, Arena.joinQuotes, hcell, ok_bind, hdata]
      by_cases hquote : tree.data.kind = .aggregate (.line .blockquote)
      · have hline : isQuote tree = true := by simp [hkind, hquote]
        rw [if_pos hquote]
        cases quote with
        | none =>
            obtain ⟨paragraph, middle, started, added, hparagraph, hadopt, hadded, hstores⟩ :=
              hstores.startQuote
            have hquote : Stores started (Place.plug (frame :: place)
                (before ++ ((some (.node tree.id tree.data added)).toList ++ rest))) := hstores
            obtain ⟨next, joined, hjoin, hjoins, hstores⟩ := ih hquote
            refine ⟨next, joined, ?_, .start hline hadded hjoins, hstores⟩
            simp only [hparagraph, ok_bind, Option.map_none, hadopt]
            exact hjoin
        | some quote =>
            obtain ⟨paragraph, first, second, started, added, hparagraph, hextend, hadopt, hadded,
              hstores⟩ := hstores.joinQuote
            have hquote : Stores started (Place.plug (frame :: place)
                (before ++ ((some (extended quote tree added)).toList ++ rest))) := hstores
            obtain ⟨next, joined, hjoin, hjoins, hstores⟩ := ih hquote
            refine ⟨next, joined, ?_, .join hline hadded hjoins, hstores⟩
            simp only [hparagraph, ok_bind, Option.map_some, hextend, hadopt]
            exact hjoin
      · have hline : isQuote tree = false := by simp [hkind, hquote]
        have hrest : Stores arena (Place.plug (frame :: place)
            ((before ++ quote.toList ++ [tree]) ++ (none.toList ++ rest))) := by
          simpa using hstores
        obtain ⟨next, joined, hjoin, hjoins, hstores⟩ := ih hrest
        rw [if_neg hquote]
        exact ⟨next, _, hjoin, .other hline hjoins, by simpa using hstores⟩

/-- Quotes without content are removed. -/
theorem each_dropQuote
    (hstores : Stores arena (Place.plug (frame :: place) (before ++ siblings))) :
    ∃ next, arena.each Arena.dropQuote (siblings.map NumberedTree.id) = .ok next ∧
      Stores next (Place.plug (frame :: place)
        (before ++ siblings.filter fun tree => !(isQuote tree && tree.children.isEmpty))) := by
  induction siblings generalizing arena before with
  | nil => exact ⟨arena, by rw [List.map_nil, each]; rfl, hstores⟩
  | cons tree rest ih =>
      obtain ⟨cell, hcell, hdata, -, hleaf⟩ := hstores.exists_get
      have hkind : isQuote tree = (tree.data.kind == .aggregate (.line .blockquote)) := rfl
      rw [List.map_cons, each, Arena.dropQuote, hcell, ok_bind, hdata, hleaf]
      by_cases hdrop : tree.data.kind = .aggregate (.line .blockquote) ∧ tree.children.isEmpty = true
      · obtain ⟨removed, hremove, hstores⟩ := hstores.remove
        obtain ⟨next, hnext, hstores⟩ := ih hstores
        refine ⟨next, by rw [if_pos hdrop, hremove, ok_bind, hnext], ?_⟩
        rwa [List.filter_cons_of_neg (by simpa [hkind] using hdrop)]
      · rw [List.append_cons] at hstores
        obtain ⟨next, hnext, hstores⟩ := ih hstores
        refine ⟨next, by rw [if_neg hdrop]; exact hnext, ?_⟩
        rw [List.filter_cons_of_pos (by simpa [hkind, ← imp_iff_not_or] using hdrop)]
        simpa using hstores

end Stores

/-- Merging the quotes of an arena joins quoted lines and keeps the quotes with content. -/
theorem Holds.exists_joins {forest : NumberedForest} (hholds : Holds arena forest) :
    ∃ next joined, arena.mergeQuotes = .ok next ∧ Joins none forest joined ∧
      Holds next (joined.filter fun tree => !(isQuote tree && tree.children.isEmpty)) := by
  have hchildren : arena.children root = .ok (forest.map NumberedTree.id) := Stores.children hholds
  have hstores : Stores arena (Place.plug [top] ([] ++ (none.toList ++ forest))) := hholds
  obtain ⟨middle, joined, hjoin, hjoins, hstores⟩ := hstores.joinQuotes
  have hchildren' : middle.children root = .ok (joined.map NumberedTree.id) :=
    Stores.children hstores
  obtain ⟨next, hdrop, hstores⟩ := hstores.each_dropQuote
  refine ⟨next, joined, ?_, hjoins, hstores⟩
  rw [Arena.mergeQuotes, hchildren, ok_bind]
  rw [Option.map_none] at hjoin
  rw [hjoin, ok_bind, hchildren', ok_bind, hdrop]

/-- Merging the quotes of an arena merges those of the forest in it. -/
theorem Holds.mergeQuotes {forest : NumberedForest} (hholds : Holds arena forest) :
    ∃ next merged, arena.mergeQuotes = .ok next ∧
      NumberedForest.erase merged = forest.erase.mergeQuotes ∧ Holds next merged := by
  obtain ⟨next, joined, hnext, hjoins, hholds⟩ := hholds.exists_joins
  refine ⟨next, _, hnext, ?_, hholds⟩
  have hdropped : (fun tree => !(isQuote tree && tree.children.isEmpty)) =
      (fun tree => !(Forest.isQuote tree && tree.isLeaf)) ∘ NumberedTree.erase := by
    funext tree
    rw [Function.comp_apply, Tree.isLeaf, NumberedTree.children_erase, isEmpty_erase, isQuote]
  rw [hdropped, erase_eq_map, ← List.filter_map, ← erase_eq_map, hjoins.erase]
  rfl

/-! ## Paragraphs -/

/-- Whether the tree is a text of white space. -/
def isBlank (tree : NumberedTree) : Bool := Forest.isBlankText tree.erase

/-- What a run of siblings becomes: nothing if it is blank, and a paragraph around it if not. -/
inductive Flushed (run : NumberedForest) : NumberedForest → Prop where
  | blank : (∀ tree ∈ run, isBlank tree) → Flushed run []
  | paragraph (id : Nat) : (¬ ∀ tree ∈ run, isBlank tree) →
    Flushed run [.node id { kind := .paragraph, span := coverAll (run.map fun tree => tree.data.span) }
      run.trimEdges]

/-- What the siblings after a run become, with the paragraph of the run before them. -/
inductive Groups : NumberedForest → NumberedForest → NumberedForest → Prop where
  | done {run added : NumberedForest} : Flushed run added → Groups run [] added
  | newline {run added rest grouped : NumberedForest} {tree : NumberedTree} :
    isNewline tree → Flushed run added → Groups [] rest grouped →
    Groups run (tree :: rest) (added ++ grouped)
  | block {run added rest grouped : NumberedForest} {tree : NumberedTree} :
    ¬ isNewline tree → tree.data.kind.isBlock → Flushed run added → Groups [] rest grouped →
    Groups run (tree :: rest) (added ++ tree :: grouped)
  | inline {run rest grouped : NumberedForest} {tree : NumberedTree} :
    ¬ isNewline tree → ¬ tree.data.kind.isBlock → Groups (run ++ [tree]) rest grouped →
    Groups run (tree :: rest) grouped

theorem all_isBlank (run : NumberedForest) :
    run.erase.all Forest.isBlankText ↔ ∀ tree ∈ run, isBlank tree := by
  rw [erase_eq_map, List.all_map, List.all_eq_true]
  rfl

theorem span_erase (run : NumberedForest) :
    Forest.span run.erase = coverAll (run.map fun tree => tree.data.span) := by
  rw [erase_eq_map]
  cases run with
  | nil => rfl
  | cons tree rest =>
      rw [List.map_cons, List.map_cons, coverAll, Forest.span, List.foldl_map, List.foldl_map]
      rfl

theorem Flushed.erase {run added : NumberedForest} (hadded : Flushed run added) :
    NumberedForest.erase added = Forest.paragraphOf run.erase := by
  rw [Forest.paragraphOf]
  cases hadded with
  | blank hblank => rw [if_pos ((all_isBlank run).mpr hblank), erase_nil]
  | paragraph id hfull =>
      rw [if_neg (mt (all_isBlank run).mp hfull), erase_cons, erase_nil, erase_trimEdges, span_erase]

theorem Groups.erase {run siblings grouped : NumberedForest} (hgroups : Groups run siblings grouped) :
    NumberedForest.erase grouped = Forest.paragraphsFrom run.erase.reverse siblings.erase := by
  have hkind : ∀ tree : NumberedTree, Forest.isNewline tree.erase = isNewline tree := fun _ => rfl
  have hblock : ∀ tree : NumberedTree, tree.erase.kind.isBlock = tree.data.kind.isBlock :=
    fun _ => rfl
  induction hgroups with
  | done hadded =>
      rw [hadded.erase, erase_nil, Forest.paragraphsFrom, List.reverse_reverse]
  | newline htree hadded _ ih =>
      rw [erase_append, hadded.erase, ih, erase_cons_eq, Forest.paragraphsFrom, hkind,
        if_pos htree, List.reverse_reverse, erase_nil, List.reverse_nil]
  | block htree hstays hadded _ ih =>
      rw [erase_append, hadded.erase, erase_cons_eq, ih, erase_cons_eq, Forest.paragraphsFrom,
        hkind, if_neg htree, hblock, if_pos hstays, List.reverse_reverse, erase_nil,
        List.reverse_nil]
  | inline htree hstays _ ih =>
      rw [ih, erase_append, List.reverse_append, erase_cons_eq, erase_nil, erase_cons_eq,
        Forest.paragraphsFrom, hkind, if_neg htree, hblock, if_neg hstays]
      rfl

theorem all_isBlank_cells {cells : List Cell}
    (hdata : cells.map Cell.data = siblings.map NumberedTree.data) :
    (cells.all fun cell => cell.data.kind == .text && Text.isBlankText cell.data.text) ↔
      ∀ tree ∈ siblings, isBlank tree := by
  let blank (data : Node) : Bool := data.kind == .text && Text.isBlankText data.text
  have hsame : cells.all (fun cell => blank cell.data) = siblings.all isBlank :=
    calc cells.all (fun cell => blank cell.data)
      _ = (cells.map Cell.data).all blank := by rw [List.all_map]; rfl
      _ = siblings.all fun tree => blank tree.data := by rw [hdata, List.all_map]; rfl
  exact (Bool.eq_iff_iff.mp hsame).trans List.all_eq_true

theorem map_span_cells {cells : List Cell}
    (hdata : cells.map Cell.data = siblings.map NumberedTree.data) :
    (cells.map fun cell => cell.data.span) = siblings.map fun tree => tree.data.span := by
  have hmap := congrArg (List.map Node.span) hdata
  rwa [List.map_map, List.map_map] at hmap

namespace Stores

/-- A run of siblings is removed. -/
theorem each_remove {run : NumberedForest}
    (hstores : Stores arena (Place.plug (frame :: place) (before ++ (run ++ after)))) :
    ∃ next, arena.each Arena.remove (run.map NumberedTree.id) = .ok next ∧
      Stores next (Place.plug (frame :: place) (before ++ after)) := by
  induction run generalizing arena with
  | nil => exact ⟨arena, by rw [List.map_nil, each]; rfl, hstores⟩
  | cons tree rest ih =>
      obtain ⟨removed, hremove, hstores⟩ := hstores.remove
      obtain ⟨next, hnext, hstores⟩ := ih hstores
      exact ⟨next, by rw [List.map_cons, each, hremove, ok_bind, hnext], hstores⟩

/-- A run of siblings is moved to the node before it. -/
theorem each_move {paragraph : Nat} {data : Node} {moved run : NumberedForest}
    (hstores : Stores arena
      (Place.plug (frame :: place) (before ++ .node paragraph data moved :: (run ++ after)))) :
    ∃ next, arena.each (fun arena id => do (← arena.detach id).append paragraph id)
        (run.map NumberedTree.id) = .ok next ∧
      Stores next
        (Place.plug (frame :: place) (before ++ .node paragraph data (moved ++ run) :: after)) := by
  induction run generalizing arena moved with
  | nil => exact ⟨arena, by rw [List.map_nil, each]; rfl, by simpa using hstores⟩
  | cons tree rest ih =>
      rw [List.append_cons] at hstores
      obtain ⟨detached, hdetach, hstores⟩ := hstores.detach
      have hparagraph : Stores detached (tree ::
          Place.plug (⟨paragraph, data, before, rest ++ after⟩ :: frame :: place) moved) := by
        rw [Place.plug_cons]
        simpa using hstores
      obtain ⟨appended, happend, hstores⟩ := hparagraph.append
      obtain ⟨next, hnext, hstores⟩ := ih hstores
      refine ⟨next, ?_, by simpa using hstores⟩
      rw [List.map_cons, each, hdetach, ok_bind, happend, ok_bind, hnext]

/-- A run of siblings becomes a paragraph. -/
theorem flush {run : NumberedForest}
    (hstores : Stores arena (Place.plug (frame :: place) (before ++ (run ++ after)))) :
    ∃ next added, arena.flush (run.map NumberedTree.id) = .ok next ∧ Flushed run added ∧
      Stores next (Place.plug (frame :: place) (before ++ added ++ after)) := by
  cases run with
  | nil =>
      exact ⟨arena, [], by rw [List.map_nil, Arena.flush]; rfl, .blank nofun, by simpa using hstores⟩
  | cons tree rest =>
      have hrun := (linked_append.mp (linked_append.mp (linked_plug.mp hstores.linked).2).2).1
      obtain ⟨cells, hcells, hdata⟩ := hrun.exists_cells
      rw [List.map_cons] at hcells ⊢
      rw [Arena.flush, hcells, ok_bind, map_span_cells hdata]
      split
      next hblank =>
        obtain ⟨next, hnext, hstores⟩ := hstores.each_remove
        exact ⟨next, [], hnext, .blank ((all_isBlank_cells hdata).mp hblank), by simpa using hstores⟩
      next hfull =>
        have hstored := hstores.alloc
          { kind := .paragraph, span := coverAll ((tree :: rest).map fun tree => tree.data.span) }
        obtain ⟨paragraph, allocated, halloc, hstores⟩ := hstored
        obtain ⟨inserted, hinsert, hstores⟩ := hstores.insertBefore
        have hrun : Stores inserted (Place.plug (frame :: place)
            (before ++ .node paragraph _ [] :: ((tree :: rest) ++ after))) := hstores
        obtain ⟨moved, hmove, hstores⟩ := hrun.each_move
        have hparagraph : Stores moved (Place.plug
            (⟨paragraph, _, before, after⟩ :: frame :: place) (tree :: rest)) := hstores
        obtain ⟨next, htrim, hstores⟩ := hparagraph.trimEdges
        have hinsert : allocated.insertBefore tree.id paragraph = .ok inserted := hinsert
        rw [List.map_cons] at hmove
        refine ⟨next, _, ?_, .paragraph paragraph (mt (all_isBlank_cells hdata).mpr hfull),
          by rw [List.append_assoc]; exact hstores⟩
        simp only [halloc, hinsert, ok_bind, hmove]
        exact htrim

/-- Siblings are grouped into paragraphs and blocks. The run that has been passed since the
last paragraph stands right before them. -/
theorem groupParagraphs {run : NumberedForest}
    (hstores : Stores arena (Place.plug (frame :: place) (before ++ (run ++ siblings)))) :
    ∃ next grouped, arena.groupParagraphs (run.map NumberedTree.id)
        (siblings.map NumberedTree.id) = .ok next ∧ Groups run siblings grouped ∧
      Stores next (Place.plug (frame :: place) (before ++ grouped)) := by
  induction siblings generalizing arena before run with
  | nil =>
      obtain ⟨next, added, hflush, hadded, hstores⟩ := hstores.flush
      exact ⟨next, added, by rw [List.map_nil, Arena.groupParagraphs, hflush], .done hadded,
        by simpa using hstores⟩
  | cons tree rest ih =>
      have hnode : Stores arena (Place.plug (frame :: place) ((before ++ run) ++ tree :: rest)) := by
        simpa using hstores
      obtain ⟨cell, hcell, hdata, -, -⟩ := hnode.exists_get
      have hkind : isNewline tree ↔ tree.data.kind = .newline := beq_iff_eq
      rw [List.map_cons, Arena.groupParagraphs, hcell, ok_bind, hdata]
      split
      next hnewline =>
        obtain ⟨flushed, added, hflush, hadded, hstores⟩ := hstores.flush
        obtain ⟨removed, hremove, hstores⟩ := hstores.remove
        have hrest : Stores removed
          (Place.plug (frame :: place) ((before ++ added) ++ ([] ++ rest))) := hstores
        obtain ⟨next, grouped, hnext, hgroups, hstores⟩ := ih hrest
        refine ⟨next, added ++ grouped, ?_, .newline (hkind.mpr hnewline) hadded hgroups,
          by simpa using hstores⟩
        rw [hflush, ok_bind, hremove, ok_bind]
        exact hnext
      next hnewline =>
        split
        next hblock =>
          obtain ⟨flushed, added, hflush, hadded, hstores⟩ := hstores.flush
          have hrest : Stores flushed
              (Place.plug (frame :: place) ((before ++ added ++ [tree]) ++ ([] ++ rest))) := by
            simpa using hstores
          obtain ⟨next, grouped, hnext, hgroups, hstores⟩ := ih hrest
          refine ⟨next, added ++ tree :: grouped, ?_,
            .block (mt hkind.mp hnewline) hblock hadded hgroups, by simpa using hstores⟩
          rw [hflush, ok_bind]
          exact hnext
        next hblock =>
          have hrest : Stores arena
              (Place.plug (frame :: place) (before ++ ((run ++ [tree]) ++ rest))) := by
            simpa using hstores
          obtain ⟨next, grouped, hnext, hgroups, hstores⟩ := ih hrest
          rw [List.map_append] at hnext
          exact ⟨next, grouped, hnext, .inline (mt hkind.mp hnewline) hblock hgroups, hstores⟩

end Stores

/-- The children of the root are grouped into paragraphs and blocks. -/
theorem Holds.exists_groups {forest : NumberedForest} (hholds : Holds arena forest) :
    ∃ next grouped, arena.paragraphs = .ok next ∧ Groups [] forest grouped ∧ Holds next grouped := by
  have hchildren : arena.children root = .ok (forest.map NumberedTree.id) := Stores.children hholds
  have hstores : Stores arena (Place.plug [top] ([] ++ ([] ++ forest))) := hholds
  obtain ⟨next, grouped, hnext, hgroups, hstores⟩ := hstores.groupParagraphs
  refine ⟨next, grouped, ?_, hgroups, hstores⟩
  rw [Arena.paragraphs, hchildren, ok_bind]
  exact hnext

/-- Grouping the paragraphs of an arena groups those of the forest in it. -/
theorem Holds.paragraphs {forest : NumberedForest} (hholds : Holds arena forest) :
    ∃ next grouped, arena.paragraphs = .ok next ∧
      NumberedForest.erase grouped = forest.erase.paragraphs ∧ Holds next grouped := by
  obtain ⟨next, grouped, hnext, hgroups, hholds⟩ := hholds.exists_groups
  refine ⟨next, grouped, hnext, ?_, hholds⟩
  rw [hgroups.erase, erase_nil]
  rfl

end Arena

end PageMarkup
