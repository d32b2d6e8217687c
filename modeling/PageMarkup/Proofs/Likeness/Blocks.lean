import PageMarkup.Block.Quote
import PageMarkup.Proofs.Likeness.Basic
import PageMarkup.Tree.Nesting
import PageMarkup.Tree.Pruning
import PageMarkup.Tree.Structure

/-! # Likeness from lexemes to paragraphs

Lexemes that are alike nest into forests that are alike, or leave the same marker open.
The check of the structure finds the same faults in both, and pruning, quotes and
paragraphs treat both in the same way.
-/

namespace PageMarkup

/-- Lexemes of one kind whose texts stand for each other, and are the same but for newlines. -/
structure Lexeme.Like (L : Likeness) (lexeme other : Lexeme) : Prop where
  kind : lexeme.kind = other.kind
  text : L.text lexeme.text other.text
  exact : lexeme.kind ≠ .newline → lexeme.text = other.text
  place : L.placed → lexeme.span = other.span

/-- Open aggregates with the same marker after forests that are alike. -/
structure Pending.Like (L : Likeness) (C : String → String → Prop) (pending other : Pending) :
    Prop where
  aggregate : pending.aggregate = other.aggregate
  opener : L.placed → pending.opener = other.opener
  before : Forest.Like L C pending.before other.before

/-- States of nesting that differ in places and newlines only. -/
structure Nesting.Like (L : Likeness) (C : String → String → Prop) (state other : Nesting) :
    Prop where
  pending : List.Forall₂ (Pending.Like L C) state.pending other.pending
  level : Forest.Like L C state.level other.level

variable {L : Likeness} {C : String → String → Prop}

namespace Nesting

theorem like_leafOf {lexeme other : Lexeme} (hlike : lexeme.Like L other) :
    (leafOf lexeme).Like L C (leafOf other) := by
  refine .leaf ⟨hlike.kind, hlike.text, .none, ?_, fun hplaced => ⟨hlike.place hplaced, rfl⟩⟩
  rintro (hkind | hkind)
  · exact ⟨hlike.exact (by simp [show lexeme.kind = .text from hkind]), rfl⟩
  · exact ⟨hlike.exact (by simp [show lexeme.kind = .aggregate _ from hkind]), rfl⟩

theorem like_close {pending other : Pending} (hlike : pending.Like L C other)
    {closer closer' : Span} (hcloser : L.placed → closer = closer') {children others : Forest}
    (hchildren : Forest.Like L C children others) :
    (close pending closer children).Like L C (close other closer' others) := by
  refine .node ⟨?_, L.empty, .none, fun _ => ⟨rfl, rfl⟩, fun hplaced => ?_⟩ hchildren
  · exact congrArg Kind.aggregate hlike.aggregate
  · simp [hlike.opener hplaced, hcloser hplaced]

theorem Like.enter {state other : Nesting} (hstate : state.Like L C other)
    {lexeme lexeme' : Lexeme} (hlexeme : lexeme.Like L lexeme') :
    (state.enter lexeme).Like L C (other.enter lexeme') := by
  unfold Nesting.enter
  rw [hlexeme.kind]
  split
  next aggregate _ =>
    exact ⟨.cons ⟨rfl, hlexeme.place, hstate.level⟩ hstate.pending, .nil⟩
  next => exact ⟨hstate.pending, .cons (like_leafOf hlexeme) hstate.level⟩

theorem Like.step {state other : Nesting} (hstate : state.Like L C other)
    {lexeme lexeme' : Lexeme} (hlexeme : lexeme.Like L lexeme') :
    (state.step lexeme).Like L C (other.step lexeme') := by
  obtain ⟨pending, level⟩ := state
  obtain ⟨pending', level'⟩ := other
  obtain ⟨hpending, hlevel⟩ := hstate
  cases hpending with
  | nil => exact Like.enter ⟨.nil, hlevel⟩ hlexeme
  | @cons innermost innermost' outer outer' hinnermost houter =>
      simp only [Nesting.step, hlexeme.kind, hinnermost.aggregate]
      split
      · exact ⟨houter, .cons (like_close hinnermost hlexeme.place hlevel.reverse)
          hinnermost.before⟩
      · exact Like.enter ⟨.cons hinnermost houter, hlevel⟩ hlexeme

theorem like_foldl {lexemes others : List Lexeme}
    (hlexemes : List.Forall₂ (Lexeme.Like L) lexemes others) {state other : Nesting}
    (hstate : state.Like L C other) :
    (lexemes.foldl Nesting.step state).Like L C (others.foldl Nesting.step other) := by
  induction hlexemes generalizing state other with
  | nil => exact hstate
  | cons hlexeme _ ih => exact ih (hstate.step hlexeme)

end Nesting

/-- Outcomes that are alike: values that are related, or faults that are the same if places
count. -/
inductive Fault.Outcome (L : Likeness) {α : Type} (R : α → α → Prop) :
    Except (Fault Nat) α → Except (Fault Nat) α → Prop where
  | ok {first second : α} : R first second → Outcome L R (.ok first) (.ok second)
  | error {fault other : Fault Nat} : (L.placed → fault = other) →
      Outcome L R (.error fault) (.error other)

theorem Fault.Outcome.exists_ok {α : Type} {R : α → α → Prop}
    {outcome other : Except (Fault Nat) α} (houtcome : Outcome L R outcome other) {first : α}
    (hfirst : outcome = .ok first) : ∃ second, other = .ok second ∧ R first second := by
  cases houtcome with
  | ok hrelated =>
      cases hfirst
      exact ⟨_, rfl, hrelated⟩
  | error => cases hfirst

theorem Forest.like_ofLexemes {lexemes others : List Lexeme}
    (hlexemes : List.Forall₂ (Lexeme.Like L) lexemes others) :
    Fault.Outcome L (Forest.Like L C) (ofLexemes lexemes) (ofLexemes others) := by
  have hstate : Nesting.Like L C (lexemes.foldl Nesting.step {}) (others.foldl Nesting.step {}) :=
    Nesting.like_foldl hlexemes ⟨.nil, .nil⟩
  unfold ofLexemes
  generalize lexemes.foldl Nesting.step {} = state, others.foldl Nesting.step {} = other at hstate
  obtain ⟨pending, level⟩ := state
  obtain ⟨pending', level'⟩ := other
  obtain ⟨hpending, hlevel⟩ := hstate
  cases hpending with
  | nil => exact .ok hlevel.reverse
  | cons hinnermost _ =>
      refine .error fun hplaced => ?_
      rw [hinnermost.aggregate, hinnermost.opener hplaced]

namespace Tree

section Faults

variable {Place : Type} {g : Nat → Place}

theorem Like.ownFaults (hg : ∀ {data other : Node}, data.Like L C other →
      g data.offset = g other.offset)
    {tree other : Tree} (hlike : tree.Like L C other) (atRoot : Bool) :
    (tree.ownFaults atRoot).map (Fault.map g) = (other.ownFaults atRoot).map (Fault.map g) := by
  have hsingle : isSingleText tree.children = isSingleText other.children := by
    have hchildren := hlike.children
    generalize tree.children = children, other.children = others at hchildren
    cases hchildren with
    | nil => rfl
    | cons hchild hrest =>
        cases hrest with
        | nil => simp [isSingleText, hchild.kind]
        | cons => rfl
  have hnested : ((tree.children.find? (·.kind.canHaveChildren)).map fun child =>
        Fault.nestedAggregate tree.kind.name child.kind.name (g child.data.offset)) =
      (other.children.find? (·.kind.canHaveChildren)).map fun child =>
        Fault.nestedAggregate tree.kind.name child.kind.name (g child.data.offset) := by
    have hchildren := hlike.children
    generalize tree.children = children, other.children = others at hchildren
    induction hchildren with
    | nil => rfl
    | cons hchild _ ih =>
        rw [List.find?_cons, List.find?_cons, hchild.kind]
        split
        · simp [hchild.kind, hg hchild.data]
        · exact ih
  have harity : tree.arityFault?.map (Fault.map g) = other.arityFault?.map (Fault.map g) := by
    unfold arityFault?
    rw [hlike.kind, hlike.isLeaf, hsingle]
    split <;> simp [Fault.map, hg hlike.data]
  have hplace : (tree.placeFault? atRoot).map (Fault.map g) =
      (other.placeFault? atRoot).map (Fault.map g) := by
    unfold placeFault?
    rw [hlike.kind]
    split <;> simp [Fault.map, hg hlike.data]
  have hnesting : tree.nestingFault?.map (Fault.map g) = other.nestingFault?.map (Fault.map g) := by
    unfold nestingFault?
    rw [hlike.kind] at hnested ⊢
    split
    · simpa only [Option.map_map, Function.comp_def, Fault.map] using hnested
    · rfl
  have htoList (option : Option (Fault Nat)) :
      option.toList.map (Fault.map g) = (option.map (Fault.map g)).toList := by
    cases option <;> rfl
  simp only [Tree.ownFaults, List.map_append, htoList, harity, hplace, hnesting]

mutual

theorem Like.faults (hg : ∀ {data other : Node}, data.Like L C other →
      g data.offset = g other.offset)
    {tree other : Tree} (hlike : tree.Like L C other) (atRoot : Bool) :
    (tree.faults atRoot).map (Fault.map g) = (other.faults atRoot).map (Fault.map g) := by
  cases tree with
  | node data children =>
      cases hlike with
      | node hdata hchildren =>
          have hown := Like.ownFaults hg (.node hdata hchildren) atRoot
          simp only [Tree.faults, List.map_append, hown, forestLike_faults hg hchildren]

theorem forestLike_faults (hg : ∀ {data other : Node}, data.Like L C other →
      g data.offset = g other.offset)
    {forest other : Forest} (hlike : Forest.Like L C forest other) (atRoot : Bool) :
    (forestFaults atRoot forest).map (Fault.map g) =
      (forestFaults atRoot other).map (Fault.map g) := by
  cases forest with
  | nil =>
      cases hlike
      rfl
  | cons tree rest =>
      cases hlike with
      | cons htree hrest =>
          simp only [forestFaults, List.map_append, htree.faults hg, forestLike_faults hg hrest]

end

end Faults

end Tree

theorem Fault.map_id (fault : Fault Nat) : fault.map id = fault := by cases fault <;> rfl

/-- The check accepts both forests or finds the same fault in both. -/
theorem Forest.Like.check {forest other : Forest} (hlike : Forest.Like L C forest other) :
    Fault.Outcome L (fun _ _ => True) forest.check other.check := by
  have hfaults := Tree.forestLike_faults (g := fun _ => ()) (fun _ => rfl) hlike true
  have hplaced : L.placed → Tree.forestFaults true forest = Tree.forestFaults true other := by
    intro hplaced
    have hsame := Tree.forestLike_faults (g := id) (fun hdata => hdata.offset hplaced) hlike true
    simpa only [show Fault.map id = id from funext Fault.map_id, List.map_id] using hsame
  unfold Forest.check
  generalize Tree.forestFaults true forest = faults, Tree.forestFaults true other = faults'
    at hfaults hplaced
  cases faults with
  | nil =>
      obtain rfl : faults' = [] := by simpa using hfaults.symm
      exact .ok trivial
  | cons fault rest =>
      cases faults' with
      | nil => simp at hfaults
      | cons fault' rest' => exact .error fun h => (List.cons.inj (hplaced h)).1

namespace Tree

mutual

theorem Like.pruneEmpty {tree other : Tree} (hlike : tree.Like L C other) :
    Forest.Like L C tree.pruneEmpty.1 other.pruneEmpty.1 ∧
      Notice.Like L tree.pruneEmpty.2 other.pruneEmpty.2 := by
  cases tree with
  | node data children =>
      cases hlike with
      | @node _ data' _ children' hdata hchildren =>
          obtain ⟨hkept, hnotices⟩ := forestLike_pruneEmpty hchildren
          have hnotice : Notice.Like L [data.emptyNotice] [data'.emptyNotice] := by
            intro hplaced
            simp [Node.emptyNotice, hdata.kind, hdata.offset hplaced]
          simp only [Tree.pruneEmpty, hdata.kind, hkept.isEmpty]
          split
          · exact ⟨.nil, hnotices.append hnotice⟩
          · exact ⟨.cons (.node hdata hkept) .nil, hnotices⟩

theorem forestLike_pruneEmpty {forest other : Forest} (hlike : Forest.Like L C forest other) :
    Forest.Like L C (forestPruneEmpty forest).1 (forestPruneEmpty other).1 ∧
      Notice.Like L (forestPruneEmpty forest).2 (forestPruneEmpty other).2 := by
  cases forest with
  | nil =>
      cases hlike
      exact ⟨.nil, Notice.like_nil⟩
  | cons tree rest =>
      cases hlike with
      | cons htree hrest =>
          obtain ⟨hfirst, hnotices⟩ := htree.pruneEmpty
          obtain ⟨hothers, hmore⟩ := forestLike_pruneEmpty hrest
          exact ⟨hfirst.append hothers, hmore.append hnotices⟩

end

end Tree

namespace Forest.Like

variable {forest other : Forest}

theorem quotedParagraph {line line' : Tree} (hline : line.Like L C line') :
    Forest.Like L C (Forest.quotedParagraph line) (Forest.quotedParagraph line') := by
  have hchildren := hline.children.trimEdges
  unfold Forest.quotedParagraph
  simp only [hchildren.isEmpty]
  split
  · exact .nil
  · refine .cons (.node ⟨rfl, L.empty, .none, nofun, fun hplaced => ⟨?_, rfl⟩⟩ hchildren) .nil
    exact (hline.data.place hplaced).1

theorem isQuote {tree other : Tree} (hlike : tree.Like L C other) :
    Forest.isQuote tree = Forest.isQuote other := by
  simp [Forest.isQuote, hlike.kind]

theorem prependQuote {line line' : Tree} (hline : line.Like L C line')
    (hquote : Forest.isQuote line = true) (hlike : Forest.Like L C forest other) :
    Forest.Like L C (Forest.prependQuote line forest) (Forest.prependQuote line' other) := by
  have hparagraph := quotedParagraph hline
  cases hlike with
  | nil => exact .cons (.node hline.data hparagraph) .nil
  | @cons next next' rest rest' hnext hrest =>
      simp only [Forest.prependQuote, isQuote hnext]
      split
      · refine .cons (.node ⟨hline.kind, hline.data.text, hline.data.element, ?_, ?_⟩
          (hparagraph.append hnext.children)) hrest
        · have hkind : line.data.kind = .aggregate (.line .blockquote) := by
            simpa [Forest.isQuote, Tree.kind] using hquote
          simp [hkind]
        · intro hplaced
          obtain ⟨hspan, hopener⟩ := hline.data.place hplaced
          simp [hspan, hopener, (hnext.data.place hplaced).1]
      · exact .cons (.node hline.data hparagraph) (.cons hnext hrest)

theorem joinQuotes (hlike : Forest.Like L C forest other) :
    Forest.Like L C (Forest.joinQuotes forest) (Forest.joinQuotes other) := by
  induction hlike with
  | nil => exact .nil
  | @cons tree tree' _ _ htree _ ih =>
      simp only [Forest.joinQuotes, ← isQuote htree]
      split
      next hquote => exact prependQuote htree hquote ih
      next => exact .cons htree ih

theorem mergeQuotes (hlike : Forest.Like L C forest other) :
    Forest.Like L C forest.mergeQuotes other.mergeQuotes :=
  hlike.joinQuotes.filter fun htree => by rw [isQuote htree, htree.isLeaf]

theorem isNewline {tree other : Tree} (hlike : tree.Like L C other) :
    Forest.isNewline tree = Forest.isNewline other := by
  simp [Forest.isNewline, hlike.kind]

theorem trimNewlines (hlike : Forest.Like L C forest other) :
    Forest.Like L C forest.trimNewlines other.trimNewlines :=
  ((hlike.dropWhile isNewline).reverse.dropWhile isNewline).reverse

theorem paragraphOf (hlike : Forest.Like L C forest other) :
    Forest.Like L C (Forest.paragraphOf forest) (Forest.paragraphOf other) := by
  have hblank : forest.all Forest.isBlankText = other.all Forest.isBlankText := by
    induction hlike with
    | nil => rfl
    | cons htree _ ih =>
        simp [Forest.isBlankText, htree.kind, L.isBlank htree.data.text, ih]
  unfold Forest.paragraphOf
  rw [hblank]
  split
  · exact .nil
  · exact .cons (.node ⟨rfl, L.empty, .none, nofun, fun hplaced => ⟨hlike.span hplaced, rfl⟩⟩
      hlike.trimEdges) .nil

theorem paragraphsFrom {run run' : Forest} (hrun : Forest.Like L C run run')
    (hlike : Forest.Like L C forest other) :
    Forest.Like L C (Forest.paragraphsFrom run forest) (Forest.paragraphsFrom run' other) := by
  induction hlike generalizing run run' with
  | nil => exact hrun.reverse.paragraphOf
  | cons htree _ ih =>
      simp only [Forest.paragraphsFrom, isNewline htree, htree.kind]
      split_ifs
      · exact hrun.reverse.paragraphOf.append (ih .nil)
      · exact hrun.reverse.paragraphOf.append (.cons htree (ih .nil))
      · exact ih (.cons htree hrun)

theorem paragraphs (hlike : Forest.Like L C forest other) :
    Forest.Like L C forest.paragraphs other.paragraphs := paragraphsFrom .nil hlike

end Forest.Like

end PageMarkup
