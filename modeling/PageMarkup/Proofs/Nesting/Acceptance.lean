import PageMarkup.Proofs.Nesting.LineMarks

/-! # Nesting accepts exactly the bracket grammar

Lexemes nest into the one grammatical forest that spells them, or there is none and
the fault names the innermost marker that they leave open. For the lexemes of a
source that marker is never the mark of a quote or a directive.
-/

namespace PageMarkup

namespace Forest

/-- Spelling fixes the kinds and the spans of all lexemes. -/
theorem Spells.kinds_and_spans {forest : Forest} {lexemes : List Lexeme}
    (hspells : forest.Spells lexemes) :
    forest.reading.map (fun mark => (mark.kind, mark.span)) =
      lexemes.map fun lexeme => (lexeme.kind, lexeme.span) := by
  unfold Spells at hspells
  generalize forest.reading = marks at hspells ⊢
  induction hspells with
  | nil => rfl
  | cons hmatches _ ih => simp [hmatches.1, hmatches.2.1, ih]

theorem ofLexemes_of_grammatical {forest : Forest} {lexemes : List Lexeme}
    (hgrammatical : forest.Grammatical) (hspells : forest.Spells lexemes) :
    ofLexemes lexemes = .ok forest := by
  rw [ofLexemes, Nesting.foldl_step_forest hgrammatical {} lexemes (by simp [Nesting.Admits])
    hspells]
  simp [Nesting.finish]

theorem ofLexemes_eq_ok_iff {lexemes : List Lexeme} (hraw : ∀ lexeme ∈ lexemes, lexeme.IsRaw)
    (forest : Forest) :
    ofLexemes lexemes = .ok forest ↔ forest.Grammatical ∧ forest.Spells lexemes := by
  refine ⟨fun hok => ?_, fun ⟨hgrammatical, hspells⟩ =>
    ofLexemes_of_grammatical hgrammatical hspells⟩
  have hsplits := Nesting.splits_foldl lexemes hraw
  unfold ofLexemes Nesting.finish at hok
  split at hok
  next hpending =>
    rw [hpending] at hsplits
    cases hok
    exact hsplits
  next => cases hok

/-- What is read from a nested page are lexemes. -/
theorem exists_lexeme_of_mem_reading {source : Source} {page : Forest}
    (hpage : ofLexemes source.lexemes = .ok page) {mark : Mark} (hmem : mark ∈ page.reading) :
    ∃ lexeme ∈ source.lexemes, lexeme.kind = mark.kind ∧ lexeme.span = mark.span := by
  have hspells := ((ofLexemes_eq_ok_iff source.isRaw_lexemes page).mp hpage).2
  have hpair := List.mem_map_of_mem (f := fun mark : Mark => (mark.kind, mark.span)) hmem
  rw [hspells.kinds_and_spans] at hpair
  obtain ⟨lexeme, hlexeme, heq⟩ := List.mem_map.mp hpair
  injection heq with hkind hspan
  exact ⟨lexeme, hlexeme, hkind, hspan⟩

theorem ofLexemes_eq_error_iff {lexemes : List Lexeme} (hraw : ∀ lexeme ∈ lexemes, lexeme.IsRaw)
    (fault : Fault Nat) :
    ofLexemes lexemes = .error fault ↔
      ∃ opener, Lexeme.LeavesOpen lexemes (some opener) ∧
        fault = .unclosedAggregate opener.kind.name opener.span.start := by
  constructor
  · intro herror
    obtain ⟨innermost, hopen, hmarked⟩ := (Nesting.splits_foldl lexemes hraw).leavesOpen
    unfold ofLexemes Nesting.finish at herror
    split at herror
    next => cases herror
    next entry outer hpending =>
      cases herror
      cases innermost with
      | none => simp [Nesting.MarkedBy, hpending] at hmarked
      | some opener =>
          obtain ⟨hkind, hspan⟩ : opener.kind = entry.aggregate.startedBy ∧
              opener.span = entry.opener := by
            simpa [Nesting.MarkedBy, hpending] using hmarked
          exact ⟨opener, hopen, by rw [hkind, hspan]⟩
  · rintro ⟨opener, hopen, rfl⟩
    have hmarked := Nesting.markedBy_foldl hopen
    unfold ofLexemes Nesting.finish
    split
    next hpending => simp [Nesting.MarkedBy, hpending] at hmarked
    next entry outer hpending =>
      obtain ⟨hkind, hspan⟩ : opener.kind = entry.aggregate.startedBy ∧
          opener.span = entry.opener := by
        simpa [Nesting.MarkedBy, hpending] using hmarked
      rw [hkind, hspan]

/-- The names of markers that open something other than a line construct. -/
theorem name_startedBy_ne_lineMark {aggregate : Aggregate} (line : LineConstruct)
    (haggregate : ∀ other, aggregate ≠ .line other) :
    aggregate.startedBy.name ≠ (Kind.lineMark line).name := by
  cases line <;> rcases aggregate with (_ | _ | _ | _ | (_ | _ | _ | _ | _)) | (_ | _ | _) | other
  all_goals first | exact absurd rfl (haggregate other) | decide

/-- Where the marks of line constructs start lines and the last lexeme is a newline, no
line construct is left open. -/
theorem ofLexemes_ne_unclosed_line {lexemes : List Lexeme}
    (hlines : Lexeme.LineMarksStartLines lexemes)
    (hlast : lexemes.getLast?.map Lexeme.kind = some .newline) (line : LineConstruct)
    (place : Nat) :
    ofLexemes lexemes ≠ .error (.unclosedAggregate (Kind.lineMark line).name place) := by
  intro herror
  have hends := Nesting.linesEnd_foldl hlines
  unfold ofLexemes Nesting.finish at herror
  split at herror
  next => cases herror
  next entry outer hpending =>
    have hnewline : lexemes.getLast?.all (·.kind == .newline) = true := by
      cases hget : lexemes.getLast? <;> simp_all
    have hnot := hends.innermost hnewline entry (by simp [hpending])
    injection herror with herror
    injection herror with hname
    exact name_startedBy_ne_lineMark line hnot hname

/-- Two quotes opened on one line would leave the outer one open. -/
example : ofLexemes [⟨.lineMark .blockquote, ⟨0, 1⟩, ">"⟩, ⟨.lineMark .blockquote, ⟨1, 2⟩, ">"⟩,
    ⟨.newline, ⟨2, 3⟩, "\n"⟩] = .error (.unclosedAggregate "blockquote" 0) := rfl

/-- Nesting accepts exactly the bracket grammar and loses nothing. If raw lexemes nest
into a forest, then reading it gives their kinds and spans and the texts of its leaves
back, it is grammatical, and no other forest is both. They fail to nest exactly if no
grammatical forest spells them; the fault then names a marker after which there are
whole items only, none of which begins with the token that would close it. That marker
opens no line construct as long as line constructs open at line starts and the lexemes
end with a newline, as those of every source do. -/
theorem ofLexemes_accepts_grammar :
    (∀ lexemes : List Lexeme, (∀ lexeme ∈ lexemes, lexeme.IsRaw) →
      (∀ forest, ofLexemes lexemes = .ok forest →
        forest.reading.map (fun mark => (mark.kind, mark.span)) =
            lexemes.map (fun lexeme => (lexeme.kind, lexeme.span)) ∧
          forest.Spells lexemes ∧ forest.Grammatical ∧
          ∀ other : Forest, other.Grammatical → other.Spells lexemes → other = forest) ∧
      ((∃ fault, ofLexemes lexemes = .error fault) ↔
        ¬ ∃ forest : Forest, forest.Grammatical ∧ forest.Spells lexemes) ∧
      (∀ fault, ofLexemes lexemes = .error fault ↔
        ∃ opener, Lexeme.LeavesOpen lexemes (some opener) ∧
          fault = .unclosedAggregate opener.kind.name opener.span.start) ∧
      (Lexeme.LineMarksStartLines lexemes →
        lexemes.getLast?.map Lexeme.kind = some .newline → ∀ line place,
          ofLexemes lexemes ≠ .error (.unclosedAggregate (Kind.lineMark line).name place))) ∧
    ∀ source : Source,
      (∀ lexeme ∈ source.lexemes, lexeme.IsRaw) ∧
        Lexeme.LineMarksStartLines source.lexemes ∧
        source.lexemes.getLast?.map Lexeme.kind = some .newline := by
  refine ⟨fun lexemes hraw => ⟨fun forest hok => ?_, ⟨?_, ?_⟩, ofLexemes_eq_error_iff hraw,
    fun hlines hlast => ofLexemes_ne_unclosed_line hlines hlast⟩,
    fun source => ⟨source.isRaw_lexemes, source.lineMarks_lexemes, source.getLast?_lexemes⟩⟩
  · obtain ⟨hgrammatical, hspells⟩ := (ofLexemes_eq_ok_iff hraw forest).mp hok
    refine ⟨hspells.kinds_and_spans, hspells, hgrammatical, fun other hother hreading => ?_⟩
    have hsame := ofLexemes_of_grammatical hother hreading
    rw [hok] at hsame
    cases hsame
    rfl
  · rintro ⟨fault, herror⟩ ⟨forest, hgrammatical, hspells⟩
    rw [ofLexemes_of_grammatical hgrammatical hspells] at herror
    cases herror
  · intro hnone
    cases hresult : ofLexemes lexemes with
    | error fault => exact ⟨fault, rfl⟩
    | ok forest => exact absurd ⟨forest, (ofLexemes_eq_ok_iff hraw forest).mp hresult⟩ hnone

/-- The quoted line `> *a*` nests into its only reading. Without the second star nothing
spells it, and the fault is not about the quote. -/
theorem ofLexemes_quoted_emphasis :
    (∃ forest : Forest,
      ofLexemes
          [⟨.lineMark .blockquote, ⟨0, 1⟩, ">"⟩, ⟨.styleMark .em, ⟨1, 2⟩, "*"⟩,
            ⟨.text, ⟨2, 3⟩, "a"⟩, ⟨.styleMark .em, ⟨3, 4⟩, "*"⟩, ⟨.newline, ⟨4, 5⟩, "\n"⟩] =
        .ok forest ∧ forest.Grammatical) ∧
    (¬ ∃ forest : Forest, forest.Grammatical ∧ forest.Spells
      [⟨.lineMark .blockquote, ⟨0, 1⟩, ">"⟩, ⟨.styleMark .em, ⟨1, 2⟩, "*"⟩,
        ⟨.text, ⟨2, 3⟩, "a"⟩, ⟨.newline, ⟨3, 4⟩, "\n"⟩]) ∧
    ∀ line place,
      ofLexemes
          [⟨.lineMark .blockquote, ⟨0, 1⟩, ">"⟩, ⟨.styleMark .em, ⟨1, 2⟩, "*"⟩,
            ⟨.text, ⟨2, 3⟩, "a"⟩, ⟨.newline, ⟨3, 4⟩, "\n"⟩] ≠
        .error (.unclosedAggregate (Kind.lineMark line).name place) := by
  have hclosed := ofLexemes_accepts_grammar.1
    [⟨.lineMark .blockquote, ⟨0, 1⟩, ">"⟩, ⟨.styleMark .em, ⟨1, 2⟩, "*"⟩,
      ⟨.text, ⟨2, 3⟩, "a"⟩, ⟨.styleMark .em, ⟨3, 4⟩, "*"⟩, ⟨.newline, ⟨4, 5⟩, "\n"⟩]
    (by simp [Lexeme.IsRaw, Kind.isProcessed, Kind.canHaveChildren])
  have hopen := ofLexemes_accepts_grammar.1
    [⟨.lineMark .blockquote, ⟨0, 1⟩, ">"⟩, ⟨.styleMark .em, ⟨1, 2⟩, "*"⟩,
      ⟨.text, ⟨2, 3⟩, "a"⟩, ⟨.newline, ⟨3, 4⟩, "\n"⟩]
    (by simp [Lexeme.IsRaw, Kind.isProcessed, Kind.canHaveChildren])
  refine ⟨⟨_, rfl, (hclosed.1 _ rfl).2.2.1⟩, hopen.2.1.mp ⟨_, rfl⟩, hopen.2.2.2 ?_ rfl⟩
  simp [Lexeme.LineMarksStartLines, Kind.MayFollow]

end Forest

end PageMarkup
