import Mathlib.Data.List.Chain
import PageMarkup.Proofs.Nesting.Machine

/-! # Line constructs end with their line

The scanner writes the mark of a quote or a directive only where a line starts, and
joining neighbouring texts keeps that. At a newline the innermost open aggregate
is then no line construct, since one that was would have been closed and what lies
around it was innermost at the newline before.
-/

namespace PageMarkup

namespace Token

/-- What holds of the tokens passed, latest first: their kinds belong to tokens, and
the marks of line constructs stand at line starts. -/
structure Scanned (done : List Token) : Prop where
  raw : ∀ token ∈ done, token.kind.isProcessed = false
  lines : done.IsChain fun next previous => next.kind.MayFollow previous.kind

theorem Scanned.nil : Scanned [] := ⟨by simp, .nil⟩

theorem Scanned.tail {done : List Token} (hdone : Scanned done) : Scanned done.tail :=
  ⟨fun _ hmem => hdone.raw _ (List.mem_of_mem_tail hmem), hdone.lines.tail⟩

/-- The kind may be given to a token, at the start of a line or elsewhere. -/
def Fits (lineStart : Bool) (kind : Kind) : Prop :=
  kind.isProcessed = false ∧ ∀ line, kind = .lineMark line → lineStart = true

theorem Scanned.push {done : List Token} {kind : Kind} (hdone : Scanned done) (span : Span)
    (hfits : Fits (atLineStart done) kind) : Scanned (push kind span done) := by
  obtain ⟨hraw, hline⟩ := hfits
  cases done with
  | nil => exact ⟨by simpa [Token.push] using hraw, .singleton _⟩
  | cons token before =>
      simp only [Token.push]
      split_ifs
      next =>
        refine ⟨?_, ?_⟩
        · intro other hmem
          rcases List.mem_cons.mp hmem with rfl | hmem
          · rfl
          · exact hdone.raw _ (List.mem_cons_of_mem _ hmem)
        · refine List.isChain_cons.mpr ⟨?_, hdone.lines.tail⟩
          intro _ _ line hkind
          cases hkind
      next =>
        refine ⟨?_, ?_⟩
        · simpa [hraw] using hdone.raw
        · refine List.isChain_cons.mpr ⟨?_, hdone.lines⟩
          intro previous hprevious line hkind
          obtain rfl : token = previous := by simpa using hprevious
          simpa [atLineStart] using hline line hkind

theorem fits_hashMark (lineStart : Bool) (run : Nat) : Fits lineStart (hashMark run).1 := by
  unfold hashMark
  split <;> simp [Fits, Kind.isProcessed, Kind.canHaveChildren]

theorem fits_starMark (lineStart : Bool) (run : Nat) : Fits lineStart (starMark run).1 := by
  unfold starMark
  split <;> simp [Fits, Kind.isProcessed, Kind.canHaveChildren]

theorem fits_equalsMark (lineStart : Bool) (run : Nat) : Fits lineStart (equalsMark run).1 := by
  unfold equalsMark Kind.headingMark?
  cases HeadingLevel.ofNumber? run <;> simp [Fits, Kind.isProcessed, Kind.canHaveChildren]

theorem fits_bracketMark (lineStart : Bool) {mark : Bracket → Kind} (run : Nat)
    (hmark : ∀ bracket, Fits lineStart (mark bracket)) :
    Fits lineStart (bracketMark mark run).1 := by
  unfold bracketMark
  split
  · simp [Fits, Kind.isProcessed, Kind.canHaveChildren]
  · exact hmark _
  · exact hmark _

theorem fits_markAt (lineStart : Bool) (glyph : Glyph) (rest : List Glyph) :
    Fits lineStart (markAt lineStart glyph rest).1 := by
  have hbracket : ∀ bracket, Fits lineStart (.bracketStart bracket) ∧
      Fits lineStart (.bracketEnd bracket) := by
    simp [Fits, Kind.isProcessed, Kind.canHaveChildren]
  cases glyph with
  | hash => exact fits_hashMark _ _
  | star => exact fits_starMark _ _
  | equals => exact fits_equalsMark _ _
  | openBracket => exact fits_bracketMark _ _ fun bracket => (hbracket bracket).1
  | closeBracket => exact fits_bracketMark _ _ fun bracket => (hbracket bracket).2
  | bang | greater =>
      cases lineStart <;> simp [markAt, Fits, Kind.isProcessed, Kind.canHaveChildren]
  | _ => simp [markAt, Fits, Kind.isProcessed, Kind.canHaveChildren]

theorem Scanned.step {done : List Token} (hdone : Scanned done) (index : Nat) (glyph : Glyph)
    (rest : List Glyph) : Scanned (step done index glyph rest).1 := by
  unfold Token.step
  split_ifs
  next => exact hdone
  next => exact hdone.tail.push _ ⟨rfl, by simp⟩
  next => exact hdone.push _ (fits_markAt _ _ _)

theorem Scanned.scan {done : List Token} (hdone : Scanned done) (index skip : Nat)
    (glyphs : List Glyph) : Scanned (scan done index skip glyphs) := by
  induction glyphs generalizing done index skip with
  | nil => exact hdone
  | cons glyph rest ih =>
      cases skip with
      | zero => exact ih (hdone.step index glyph rest) _ _
      | succ skip => exact ih hdone _ _

end Token

namespace Lexeme

theorem kind_head_prepend (lexeme : Lexeme) (rest : List Lexeme) :
    ((prepend lexeme rest).head?.map Lexeme.kind) = some lexeme.kind := by
  unfold prepend
  split
  · rfl
  · split_ifs with hjoin
    · simp [hjoin.1]
    · rfl

theorem lineMarks_prepend {lexeme : Lexeme} {rest : List Lexeme}
    (hrest : LineMarksStartLines rest)
    (hfollows : ∀ next ∈ rest.head?, next.kind.MayFollow lexeme.kind) :
    LineMarksStartLines (prepend lexeme rest) := by
  unfold prepend
  split
  next => exact .singleton _
  next next rest =>
    split_ifs with hjoin
    · refine List.isChain_cons.mpr ⟨fun other hmem => ?_, hrest.tail⟩
      have hother := (List.isChain_cons.mp hrest).1 other hmem
      rwa [hjoin.2] at hother
    · exact List.isChain_cons.mpr ⟨hfollows, hrest⟩

theorem lineMarks_coalesce {lexemes : List Lexeme} (hlexemes : LineMarksStartLines lexemes) :
    LineMarksStartLines (coalesce lexemes) := by
  induction lexemes with
  | nil => exact .nil
  | cons lexeme rest ih =>
      refine lineMarks_prepend (ih hlexemes.tail) fun next hnext => ?_
      cases rest with
      | nil => simp at hnext
      | cons second rest =>
          have hkind := kind_head_prepend second (coalesce rest)
          change next ∈ (prepend second (coalesce rest)).head? at hnext
          rw [hnext] at hkind
          have hkind : next.kind = second.kind := by simpa using hkind
          rw [hkind]
          exact (List.isChain_cons.mp hlexemes).1 second rfl

theorem isRaw_coalesce {lexemes : List Lexeme} (hraw : ∀ lexeme ∈ lexemes, lexeme.IsRaw) :
    ∀ lexeme ∈ coalesce lexemes, lexeme.IsRaw := by
  induction lexemes with
  | nil => simp [coalesce]
  | cons lexeme rest ih =>
      obtain ⟨hlexeme, hrest⟩ := List.forall_mem_cons.mp hraw
      have ih := ih hrest
      change ∀ other ∈ prepend lexeme (coalesce rest), other.IsRaw
      unfold prepend
      split
      next => simpa using hlexeme
      next next rest hcoalesce =>
        rw [hcoalesce] at ih
        split_ifs with hjoin
        · intro other hmem
          rcases List.mem_cons.mp hmem with rfl | hmem
          · rfl
          · exact ih other (List.mem_cons_of_mem _ hmem)
        · exact List.forall_mem_cons.mpr ⟨hlexeme, ih⟩

theorem getLast?_coalesce (lexemes : List Lexeme) {last : Lexeme} (hlast : last.kind ≠ .text) :
    (coalesce (lexemes ++ [last])).getLast? = some last := by
  induction lexemes with
  | nil => rfl
  | cons lexeme rest ih =>
      change (prepend lexeme (coalesce (rest ++ [last]))).getLast? = some last
      unfold prepend
      split
      next hnil => simp [hnil] at ih
      next next tail hcoalesce =>
        rw [hcoalesce] at ih
        split_ifs with hjoin
        · cases tail with
          | nil =>
              obtain rfl : next = last := by simpa using ih
              exact absurd hjoin.2 hlast
          | cons second tail => simpa using ih
        · simpa using ih

end Lexeme

namespace Source

theorem scanned_tokens (source : Source) : Token.Scanned source.tokens.reverse := by
  have hscan := Token.Scanned.nil.scan 0 0 source.glyphs
  rw [tokens, List.reverse_reverse]
  refine ⟨?_, List.isChain_cons.mpr ⟨fun _ _ line hkind => ?_, hscan.lines⟩⟩
  · exact List.forall_mem_cons.mpr ⟨rfl, hscan.raw⟩
  · cases hkind

/-- The lexemes of every source are of kinds that tokens have. -/
theorem isRaw_lexemes (source : Source) : ∀ lexeme ∈ source.lexemes, lexeme.IsRaw := by
  refine Lexeme.isRaw_coalesce fun lexeme hmem => ?_
  obtain ⟨token, htoken, rfl⟩ := List.mem_map.mp hmem
  have hraw := source.scanned_tokens.raw token (List.mem_reverse.mpr htoken)
  unfold Lexeme.IsRaw Lexeme.ofToken
  split_ifs
  · rfl
  · exact hraw

/-- Scanning writes the marks of line constructs at line starts only. -/
theorem lineMarks_lexemes (source : Source) : Lexeme.LineMarksStartLines source.lexemes := by
  refine Lexeme.lineMarks_coalesce ?_
  have hlines := List.isChain_reverse.mp source.scanned_tokens.lines
  refine (List.isChain_map _).mpr (hlines.imp fun previous next hfollow line hkind => ?_)
  have hnext : next.kind = .lineMark line := by
    simp only [Lexeme.ofToken] at hkind
    split_ifs at hkind
    exact hkind
  simp [Lexeme.ofToken, hfollow line hnext]

/-- The last lexeme of every source is the newline that ends the last line. -/
theorem getLast?_lexemes (source : Source) :
    source.lexemes.getLast?.map Lexeme.kind = some .newline := by
  rw [lexemes, tokens, List.reverse_cons, List.map_append, List.map_singleton,
    Lexeme.getLast?_coalesce _ (by simp [Lexeme.ofToken])]
  rfl

end Source

namespace Nesting

/-- No line construct is directly inside another, and after a newline the innermost
open aggregate is no line construct. -/
structure LinesEnd (pending : List Pending) (afterNewline : Bool) : Prop where
  apart : pending.IsChain fun inner outer =>
    ∀ line, inner.aggregate = .line line → ∀ other, outer.aggregate ≠ .line other
  innermost : afterNewline → ∀ entry ∈ pending.head?, ∀ line, entry.aggregate ≠ .line line

theorem LinesEnd.step {state : Nesting} {previous : Option Lexeme} {lexeme : Lexeme}
    (hends : LinesEnd state.pending (previous.all (·.kind == .newline)))
    (hfollows : ∀ before ∈ previous, lexeme.kind.MayFollow before.kind) :
    LinesEnd (state.step lexeme).pending (lexeme.kind == .newline) := by
  by_cases hopen : ∀ entry ∈ state.pending.head?, lexeme.kind ≠ entry.aggregate.endedBy
  · rw [step_of_not_closing hopen]
    unfold enter
    split
    next aggregate hstarts =>
      have hkind := Kind.starts?_eq_some_iff.mp hstarts
      refine ⟨List.isChain_cons.mpr ⟨fun outer houter line hline => ?_, hends.apart⟩, ?_⟩
      · -- A line construct opens where a line starts, so what is around it is none.
        refine hends.innermost ?_ outer houter
        obtain rfl : aggregate = .line line := hline
        cases previous with
        | none => rfl
        | some before => simpa using hfollows before rfl line hkind
      · intro hnewline
        rw [beq_iff_eq.mp hnewline] at hstarts
        cases hstarts
    next =>
      refine ⟨hends.apart, fun hnewline entry hentry line hline => ?_⟩
      refine hopen entry hentry ?_
      rw [beq_iff_eq.mp hnewline, hline]
      rfl
  · push Not at hopen
    obtain ⟨entry, hentry, hcloses⟩ := hopen
    obtain ⟨pending, level⟩ := state
    cases pending with
    | nil => simp at hentry
    | cons innermost outer =>
        obtain rfl : innermost = entry := by simpa using hentry
        rw [step_closing hcloses]
        have hapart := List.isChain_cons.mp hends.apart
        refine ⟨hapart.2, fun hnewline other hother => ?_⟩
        -- Only line constructs end with a newline.
        cases haggregate : innermost.aggregate with
        | line line => exact hapart.1 other hother line haggregate
        | style style => simp_all [Aggregate.endedBy]
        | bracket bracket => simp_all [Aggregate.endedBy]

/-- Where the marks of line constructs start lines, no line construct is innermost
after a newline. -/
theorem linesEnd_foldl {lexemes : List Lexeme} (hlines : Lexeme.LineMarksStartLines lexemes) :
    LinesEnd (lexemes.foldl Nesting.step {}).pending
      (lexemes.getLast?.all (·.kind == .newline)) := by
  induction lexemes using List.reverseRecOn with
  | nil => exact ⟨.nil, by simp⟩
  | append_singleton lexemes lexeme ih =>
      obtain ⟨hbefore, -, hlast⟩ := List.isChain_append.mp hlines
      have hfollows : ∀ before ∈ lexemes.getLast?, lexeme.kind.MayFollow before.kind :=
        fun before hmem => hlast before hmem _ rfl
      simpa using (ih hbefore).step hfollows

end Nesting

end PageMarkup
