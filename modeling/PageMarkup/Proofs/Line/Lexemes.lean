import PageMarkup.Proofs.Directive.Lines
import PageMarkup.Proofs.Line.Scanning

/-! # Lexemes line by line

A newline is no text, so texts are joined within a line only, and the lexemes of a source
are those of its lines one after the other. The newline between two lines keeps the text
of its own cluster. Directives are read off a line, so those of a source are those of its
lines as well.
-/

namespace PageMarkup

namespace Lexeme

/-- The lexeme counted from `distance` clusters earlier. -/
def shift (distance : Nat) (lexeme : Lexeme) : Lexeme :=
  { lexeme with span := lexeme.span.shift distance }

theorem foldr_prepend {closer : Lexeme} (hcloser : closer.kind ≠ .text) (first rest : List Lexeme) :
    first.foldr prepend (closer :: rest) = coalesce first ++ closer :: rest := by
  induction first with
  | nil => rfl
  | cons lexeme first ih =>
      change prepend lexeme (first.foldr prepend (closer :: rest)) =
        prepend lexeme (coalesce first) ++ closer :: rest
      rw [ih]
      cases coalesce first with
      | nil => simp [prepend, hcloser]
      | cons next others =>
          simp only [List.cons_append, prepend]
          split <;> rfl

/-- What is no text parts the lexemes before it from those after it. -/
theorem coalesce_append_cons {closer : Lexeme} (hcloser : closer.kind ≠ .text)
    (first rest : List Lexeme) :
    coalesce (first ++ closer :: rest) = coalesce first ++ closer :: coalesce rest := by
  have hrest : prepend closer (coalesce rest) = closer :: coalesce rest := by
    cases coalesce rest <;> simp [prepend, hcloser]
  calc coalesce (first ++ closer :: rest)
      = first.foldr prepend (prepend closer (coalesce rest)) := List.foldr_append
    _ = coalesce first ++ closer :: coalesce rest := by rw [hrest, foldr_prepend hcloser]

theorem coalesce_shift (distance : Nat) (lexemes : List Lexeme) :
    coalesce (lexemes.map (shift distance)) = (coalesce lexemes).map (shift distance) := by
  induction lexemes with
  | nil => rfl
  | cons lexeme rest ih =>
      change prepend (lexeme.shift distance) (coalesce (rest.map (shift distance))) =
        (prepend lexeme (coalesce rest)).map (shift distance)
      rw [ih]
      cases coalesce rest with
      | nil => rfl
      | cons next others =>
          simp only [List.map_cons, prepend, shift, Span.cover_shift]
          split <;> rfl

end Lexeme

namespace Source

theorem cluster?_ofClusters (clusters : List String) (offset : Nat) :
    (ofClusters clusters).cluster? offset =
      if offset = clusters.length then some "\n" else clusters[offset]? := by
  simp [cluster?, ofClusters, length]

section Slices

variable (line rest : List String) (ending : String)

theorem cluster?_line {offset : Nat} (hoffset : offset < line.length) :
    (ofClusters (line ++ ending :: rest)).cluster? offset =
      (ofClusters line).cluster? offset := by
  have hlong : offset ≠ (line ++ ending :: rest).length := by simp; omega
  rw [cluster?_ofClusters, cluster?_ofClusters, if_neg hlong, if_neg hoffset.ne,
    List.getElem?_append_left hoffset]

theorem cluster?_ending :
    (ofClusters (line ++ ending :: rest)).cluster? line.length = some ending := by
  simp [cluster?_ofClusters]

theorem cluster?_shift (offset : Nat) :
    (ofClusters (line ++ ending :: rest)).cluster? (offset + (line.length + 1)) =
      (ofClusters rest).cluster? offset := by
  have hend : offset + (line.length + 1) = (line ++ ending :: rest).length ↔
      offset = rest.length := by simp; omega
  have hpast : line.length ≤ offset + (line.length + 1) := by omega
  have hindex : offset + (line.length + 1) - line.length = offset + 1 := by omega
  rw [cluster?_ofClusters, cluster?_ofClusters, List.getElem?_append_right hpast, hindex,
    List.getElem?_cons_succ]
  simp only [hend]

/-- Spans within the first line cover what they cover there. -/
theorem slice_line {span : Span} (hspan : span.stop ≤ line.length) :
    (ofClusters (line ++ ending :: rest)).slice span = (ofClusters line).slice span := by
  unfold slice
  congr 1
  refine List.filterMap_congr fun offset hmem => ?_
  simp only [List.mem_range'_1, Span.length] at hmem
  exact cluster?_line line rest ending (by omega)

/-- Spans after the first line cover what they cover without it. -/
theorem slice_shift (span : Span) :
    (ofClusters (line ++ ending :: rest)).slice (span.shift (line.length + 1)) =
      (ofClusters rest).slice span := by
  have hlength : (span.shift (line.length + 1)).length = span.length := by
    simp [Span.length, Span.shift, Nat.add_sub_add_right]
  have hrange : List.range' (span.start + (line.length + 1)) span.length =
      (List.range' span.start span.length).map (line.length + 1 + ·) := by
    rw [List.map_add_range', Nat.add_comm]
  unfold slice
  rw [hlength, show (span.shift (line.length + 1)).start = span.start + (line.length + 1) from rfl,
    hrange, List.filterMap_map]
  have hclusters : (ofClusters (line ++ ending :: rest)).cluster? ∘ (line.length + 1 + ·) =
      (ofClusters rest).cluster? := by
    funext offset
    rw [Function.comp_apply, Nat.add_comm, cluster?_shift]
  rw [hclusters]

theorem slice_ending :
    (ofClusters (line ++ ending :: rest)).slice ⟨line.length, line.length + 1⟩ = ending := by
  have hrange : List.range' line.length 1 = [line.length] := rfl
  simp [slice, Span.length, hrange, cluster?_ending]

end Slices

/-- The lexemes before the newline that ends the last line. -/
def openLexemes (source : Source) : List Lexeme :=
  Lexeme.coalesce (source.openTokens.map (Lexeme.ofToken source))

theorem cluster?_length (source : Source) : source.cluster? source.length = some "\n" := by
  simp [cluster?]

theorem lexemes_eq (source : Source) :
    source.lexemes =
      source.openLexemes ++ [⟨.newline, ⟨source.length, source.length + 1⟩, "\n"⟩] := by
  have hrange : List.range' source.length 1 = [source.length] := rfl
  have hlast : Lexeme.ofToken source ⟨.newline, ⟨source.length, source.length + 1⟩⟩ =
      ⟨.newline, ⟨source.length, source.length + 1⟩, "\n"⟩ := by
    simp [Lexeme.ofToken, slice, Span.length, hrange, cluster?_length]
  rw [lexemes, tokens_eq, List.map_append, List.map_singleton, hlast,
    Lexeme.coalesce_append_cons (by simp)]
  rfl

theorem map_ofToken_shift (line rest : List String) (ending : String) (tokens : List Token) :
    (tokens.map (Token.shift (line.length + 1))).map
        (Lexeme.ofToken (ofClusters (line ++ ending :: rest))) =
      (tokens.map (Lexeme.ofToken (ofClusters rest))).map (Lexeme.shift (line.length + 1)) := by
  simp only [List.map_map]
  apply List.map_congr_left
  intro token _
  simp only [Function.comp_apply, Lexeme.ofToken, Lexeme.shift, Token.shift, slice_shift]
  rfl

/-- Lexemes are found line by line. -/
theorem lexemes_line (line rest : List String) {ending : String}
    (hending : isNewline ending = true) :
    (ofClusters (line ++ ending :: rest)).lexemes =
      (ofClusters line).openLexemes ++
        ⟨.newline, ⟨line.length, line.length + 1⟩, ending⟩ ::
          (ofClusters rest).lexemes.map (Lexeme.shift (line.length + 1)) := by
  have hopen : (ofClusters line).openTokens.map
        (Lexeme.ofToken (ofClusters (line ++ ending :: rest))) =
      (ofClusters line).openTokens.map (Lexeme.ofToken (ofClusters line)) := by
    apply List.map_congr_left
    intro token hmem
    have hstop := stop_openTokens token hmem
    rw [length_ofClusters] at hstop
    simp [Lexeme.ofToken, slice_line line rest ending hstop]
  have hcloser : Lexeme.ofToken (ofClusters (line ++ ending :: rest))
      ⟨.newline, ⟨line.length, line.length + 1⟩⟩ =
        ⟨.newline, ⟨line.length, line.length + 1⟩, ending⟩ := by
    simp [Lexeme.ofToken, slice_ending]
  rw [lexemes, tokens_line line rest hending, tokens_eq, List.map_append, List.map_append, hopen,
    length_ofClusters, List.map_singleton, hcloser, map_ofToken_shift, List.append_assoc,
    List.singleton_append, Lexeme.coalesce_append_cons (by simp), Lexeme.coalesce_shift]
  rfl

/-- A carriage return at the end of a line leaves its lexemes as they are. -/
theorem openLexemes_carriageReturn (line : List String) :
    (ofClusters (line ++ ["\r"])).openLexemes = (ofClusters line).openLexemes := by
  unfold openLexemes
  rw [openTokens_carriageReturn]
  congr 1
  apply List.map_congr_left
  intro token hmem
  have hstop := stop_openTokens token hmem
  rw [length_ofClusters] at hstop
  simp [Lexeme.ofToken, slice_line line [] "\r" hstop]

end Source

/-- The directive counted from `distance` clusters earlier. -/
def Directive.shift (distance : Nat) (directive : Directive) : Directive :=
  { directive with offset := directive.offset + distance }

namespace Directive

theorem ofLexemes_append_newline (source : Source) {closer other : Lexeme}
    (hcloser : closer.kind = .newline) (hother : other.kind = .newline)
    (line rest : List Lexeme) :
    ofLexemes source (line ++ closer :: rest) =
      ofLexemes source (line ++ [other]) ++ ofLexemes source rest := by
  induction line with
  | nil => simp [ofLexemes, ofLine?, hcloser, hother]
  | cons mark line ih =>
      -- a line is read up to its newline, whatever comes after
      have hstop : ∀ {last : Lexeme} (tail : List Lexeme), last.kind = .newline →
          (line ++ last :: tail).takeWhile (·.kind != .newline) =
            line.takeWhile (·.kind != .newline) := by
        intro last tail hlast
        clear ih
        induction line with
        | nil => simp [hlast]
        | cons lexeme line ih => simp only [List.cons_append, List.takeWhile_cons, ih]
      have hline : ofLine? source mark (line ++ closer :: rest) =
          ofLine? source mark (line ++ [other]) := by
        simp only [ofLine?, hstop rest hcloser, hstop [] hother]
      simp only [List.cons_append, ofLexemes, hline, ih, List.append_assoc]

theorem ofLexemes_congr {source other : Source} {lexemes : List Lexeme}
    (hslice : ∀ mark ∈ lexemes, mark.kind = .lineMark .directive →
      source.slice mark.span = other.slice mark.span) :
    ofLexemes source lexemes = ofLexemes other lexemes := by
  induction lexemes with
  | nil => rfl
  | cons mark rest ih =>
      obtain ⟨hmark, hrest⟩ := List.forall_mem_cons.mp hslice
      have hline : ofLine? source mark rest = ofLine? other mark rest := by
        unfold ofLine?
        split
        next hkind => rw [hmark hkind]
        next => rfl
      rw [ofLexemes, ofLexemes, hline, ih hrest]

theorem ofLexemes_shift (line rest : List String) (ending : String) (lexemes : List Lexeme) :
    ofLexemes (.ofClusters (line ++ ending :: rest))
        (lexemes.map (Lexeme.shift (line.length + 1))) =
      (ofLexemes (.ofClusters rest) lexemes).map (shift (line.length + 1)) := by
  induction lexemes with
  | nil => rfl
  | cons mark others ih =>
      have htake : (others.map (Lexeme.shift (line.length + 1))).takeWhile
            (·.kind != .newline) =
          (others.takeWhile (·.kind != .newline)).map (Lexeme.shift (line.length + 1)) := by
        rw [List.takeWhile_map]
        rfl
      have hline : ofLine? (.ofClusters (line ++ ending :: rest))
            (mark.shift (line.length + 1)) (others.map (Lexeme.shift (line.length + 1))) =
          (ofLine? (.ofClusters rest) mark others).map (shift (line.length + 1)) := by
        by_cases hkind : mark.kind = .lineMark .directive
        · have hshifted : (mark.shift (line.length + 1)).kind = .lineMark .directive := hkind
          rw [ofLine?, ofLine?, if_pos hkind, if_pos hshifted, htake, Option.map_map]
          simp only [Lexeme.shift, Source.slice_shift, List.map_map]
          rfl
        · have hshifted : (mark.shift (line.length + 1)).kind ≠ .lineMark .directive := hkind
          rw [ofLine?, ofLine?, if_neg hkind, if_neg hshifted]
          rfl
      rw [List.map_cons, ofLexemes, ofLexemes, hline, ih, List.map_append]
      cases ofLine? (.ofClusters rest) mark others <;> rfl

end Directive

namespace Source

/-- Directives are read line by line. -/
theorem directives_line (line rest : List String) {ending : String}
    (hending : isNewline ending = true) :
    (ofClusters (line ++ ending :: rest)).directives =
      (ofClusters line).directives ++
        (ofClusters rest).directives.map (Directive.shift (line.length + 1)) := by
  have hslice : ∀ mark ∈ (ofClusters line).lexemes, mark.kind = .lineMark .directive →
      (ofClusters (line ++ ending :: rest)).slice mark.span =
        (ofClusters line).slice mark.span := by
    intro mark hmem hkind
    have htext : mark.kind ≠ .text := by simp [hkind]
    obtain ⟨token, htoken, rfl⟩ := List.mem_map.mp (Lexeme.mem_of_mem_coalesce htext hmem)
    rw [tokens_eq] at htoken
    rcases List.mem_append.mp htoken with htoken | htoken
    · have hstop := stop_openTokens token htoken
      rw [length_ofClusters] at hstop
      exact slice_line line rest ending hstop
    · rw [List.mem_singleton.mp htoken] at hkind
      cases hkind
  have hother : Lexeme.kind ⟨.newline, ⟨line.length, line.length + 1⟩, "\n"⟩ = .newline := rfl
  have hlexemes := lexemes_eq (ofClusters line)
  rw [length_ofClusters] at hlexemes
  rw [directives, lexemes_line line rest hending,
    Directive.ofLexemes_append_newline _ (by rfl) hother, ← hlexemes,
    Directive.ofLexemes_congr hslice, Directive.ofLexemes_shift]
  rfl

/-- A text up to the start of a line: nothing, or something that ends with a newline. -/
def EndsLine (front : List String) : Prop :=
  front = [] ∨ ∃ line ending, isNewline ending = true ∧ front = line ++ [ending]

/-- What stands before a line has its own lexemes, whatever the line is. -/
theorem lexemes_front {front : List String} (hfront : EndsLine front) :
    ∃ before, ∀ rest, (ofClusters (front ++ rest)).lexemes =
      before ++ (ofClusters rest).lexemes.map (Lexeme.shift front.length) := by
  rcases hfront with rfl | ⟨line, ending, hending, rfl⟩
  · refine ⟨[], fun rest => ?_⟩
    have hshift : Lexeme.shift 0 = id := by
      funext lexeme
      rfl
    simp [hshift]
  · refine ⟨(ofClusters line).openLexemes ++ [⟨.newline, ⟨line.length, line.length + 1⟩, ending⟩],
      fun rest => ?_⟩
    simp [lexemes_line line rest hending]

/-- What stands before a line has its own directives, whatever the line is. -/
theorem directives_front {front : List String} (hfront : EndsLine front) :
    ∃ earlier, ∀ rest, (ofClusters (front ++ rest)).directives =
      earlier ++ (ofClusters rest).directives.map (Directive.shift front.length) := by
  rcases hfront with rfl | ⟨line, ending, hending, rfl⟩
  · refine ⟨[], fun rest => ?_⟩
    have hshift : Directive.shift 0 = id := by
      funext directive
      rfl
    simp [hshift]
  · exact ⟨(ofClusters line).directives, fun rest => by
      simp [directives_line line rest hending]⟩

/-- Directives are read before the newline that ends the last line. -/
theorem directives_eq (source : Source) :
    source.directives =
      Directive.ofLexemes source (source.openLexemes ++ [⟨.newline, {}, "\n"⟩]) := by
  rw [directives, lexemes_eq]
  exact (Directive.ofLexemes_append_newline source rfl rfl source.openLexemes []).trans
    (List.append_nil _)

/-- A carriage return at the end of a line leaves its directive as it is. -/
theorem directives_carriageReturn (line : List String) :
    (ofClusters (line ++ ["\r"])).directives = (ofClusters line).directives := by
  rw [directives_eq, directives_eq, openLexemes_carriageReturn]
  refine Directive.ofLexemes_congr fun mark hmem hkind => ?_
  rcases List.mem_append.mp hmem with hmem | hmem
  · have htext : mark.kind ≠ .text := by simp [hkind]
    obtain ⟨token, htoken, rfl⟩ := List.mem_map.mp (Lexeme.mem_of_mem_coalesce htext hmem)
    have hstop := stop_openTokens token htoken
    rw [length_ofClusters] at hstop
    exact slice_line line [] "\r" hstop
  · rw [List.mem_singleton.mp hmem] at hkind
    cases hkind

end Source

end PageMarkup
