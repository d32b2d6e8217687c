import PageMarkup.Proofs.Line.Tiling
import PageMarkup.Proofs.Page.Presented

/-! # Two spellings of a directive

The argument of a directive stands after white space or after an equals sign. The mark of the
directive goes up to the first cluster that starts with white space, so the first word of the
argument is a part of the mark in one spelling and text after it in the other. The name and the
argument are cut by characters from the mark and the texts put together, and come out the same.
-/

namespace PageMarkup

/-! ## Reading a line by characters -/

namespace Directive

/-- How the name of a directive is written: what follows `note` is the name of a note. -/
inductive Called : (written name subname : String) → Prop where
  | note (suffix : String) : Called (noteName ++ suffix) noteName suffix
  | other {written : String} (hother : ∀ suffix, written ≠ noteName ++ suffix) :
      Called written written ""

/-- Whether a character is a part of the name of a directive. -/
def isNameChar (c : Char) : Bool := !(c == '=' || Text.isBlank c)

/-- What parts the name of a directive from its argument. -/
def separators : List String := [" ", "="]

theorem exists_of_mem_separators {separator : String} (hseparator : separator ∈ separators) :
    ∃ c, separator.toList = [c] ∧ isNameChar c = false ∧ c ≠ '\r' ∧ c ≠ '\n' := by
  rcases List.mem_pair.mp hseparator with rfl | rfl
  · exact ⟨' ', rfl, by decide, by decide, by decide⟩
  · exact ⟨'=', rfl, by decide, by decide, by decide⟩

variable {name separator argument rest : String}

/-- A name goes up to the first character that is no part of one. -/
theorem splitBefore_name (hname : ∀ c ∈ name.toList, isNameChar c = true)
    (hrest : ∀ c ∈ rest.toList.head?, isNameChar c = false) :
    Text.splitBefore (fun c => c == '=' || Text.isBlank c) (name ++ rest) = (name, rest) :=
  Text.splitBefore_append (fun c hc => Eq.mp (Bool.not_eq_true' _) (hname c hc))
    fun c hc => Eq.mp (Bool.not_eq_false' _) (hrest c hc)

/-- The name is read off a marker alike, whatever stands after it. -/
theorem exists_parseOpening? (hname : ∀ c ∈ name.toList, isNameChar c = true) :
    ∃ called subname, Called name called subname ∧
      ∀ rest : String, (∀ c ∈ rest.toList.head?, isNameChar c = false) →
        parseOpening? ("!" ++ (name ++ rest)) = some ⟨called, subname, rest⟩ := by
  have hmarker : ∀ rest : String,
      ("!" ++ (name ++ rest)).toList = '!' :: (name ++ rest).toList := by simp
  cases hnote : noteName.toList.isPrefixOf? name.toList with
  | some suffix =>
      have hwritten : noteName ++ String.ofList suffix = name := by
        rw [← String.toList_inj, String.toList_append, String.toList_ofList]
        exact List.isPrefixOf?_eq_some_iff_append_eq.mp hnote
      refine ⟨noteName, String.ofList suffix, hwritten ▸ .note _, fun rest hrest => ?_⟩
      simp only [parseOpening?, hmarker, String.ofList_toList, splitBefore_name hname hrest, hnote]
  | none =>
      have hother : ∀ suffix, name ≠ noteName ++ suffix := by
        intro suffix hwritten
        have hsome : noteName.toList.isPrefixOf? name.toList = some suffix.toList := by
          apply List.isPrefixOf?_eq_some_iff_append_eq.mpr
          rw [hwritten, String.toList_append]
        rw [hnote] at hsome
        cases hsome
      refine ⟨name, "", .other hother, fun rest hrest => ?_⟩
      simp only [parseOpening?, hmarker, String.ofList_toList, splitBefore_name hname hrest, hnote]

/-- The argument is trimmed, whatever parts it from the name. -/
theorem cleanArgument_separator (hseparator : separator ∈ separators)
    (hargument : '=' ∉ argument.toList) :
    cleanArgument (separator ++ argument) = Text.trim argument := by
  rcases List.mem_pair.mp hseparator with rfl | rfl
  · -- The space goes with the white space at the start of the argument.
    have hblank : Text.trimStart (" " ++ argument) = Text.trimStart argument := by
      have hspace : Text.isBlank ' ' = true := by decide
      simp [Text.trimStart, hspace]
    have hkept : Text.dropLeading '=' (Text.trimStart argument) = Text.trimStart argument := by
      unfold Text.dropLeading
      split
      next => rfl
      next c others hlist =>
        apply if_neg
        rintro rfl
        apply hargument
        apply List.dropWhile_subset Text.isBlank
        rw [Text.trimStart, String.toList_ofList] at hlist
        rw [hlist]
        exact List.mem_cons_self
    rw [cleanArgument, hblank, hkept, Text.trim, Text.trimStart_idem, Text.trim]
  · have hequals : Text.trimStart ("=" ++ argument) = "=" ++ argument := by
      have hword : Text.isBlank '=' = false := by decide
      rw [← String.toList_inj]
      simp [Text.trimStart, hword]
    have hdropped : Text.dropLeading '=' ("=" ++ argument) = argument := by
      simp [Text.dropLeading]
    rw [cleanArgument, hequals, hdropped]

end Directive

/-! ## Texts after the mark of a directive -/

/-- Glyphs that are text where no line starts. -/
inductive Glyph.IsInner : Glyph → Prop where
  | blank : IsInner .blank
  | other : IsInner .other
  | bang : IsInner .bang
  | greater : IsInner .greater

namespace Token

variable {source : Source} {done : List Token} {text : String} {mark : Token}

theorem step_of_isInner (hstart : atLineStart done = false) {index : Nat}
    (hescapes : escapes done index = false) {glyph : Glyph} (hglyph : glyph.IsInner)
    (rest : List Glyph) :
    step done index glyph rest = (push .text ⟨index, index + 1⟩ done, 1) := by
  cases hglyph <;> simp [step, markAt, hstart, hescapes]

/-- Texts after the mark of a directive are put on each other and not on the mark. -/
theorem push_append_mark (hmark : mark.kind = .lineMark .directive) (span : Span) :
    push .text span (done ++ [mark]) = push .text span done ++ [mark] := by
  cases done with
  | nil => simp [push, hmark]
  | cons token before =>
      simp only [List.cons_append, push]
      split <;> rfl

/-- What comes after the mark of a directive and can begin no other mark is text. -/
theorem Says.scan_after_mark (hmark : mark.kind = .lineMark .directive) {line : List String}
    (hline : ∀ cluster ∈ line, (Glyph.ofCluster cluster).IsInner) {before : List String}
    (hsource : source = .ofClusters (before ++ line)) (hsaid : Says source done text) :
    ∃ more, Token.scan (done ++ [mark]) before.length 0 (line.map Glyph.ofCluster) =
        more ++ [mark] ∧
      Says source more (text ++ String.join line) := by
  induction line generalizing before done text with
  | nil => exact ⟨done, rfl, by simpa using hsaid⟩
  | cons cluster rest ih =>
      obtain ⟨hcluster, hrest⟩ := List.forall_mem_cons.mp hline
      have hget : source.cluster? before.length = some cluster := by
        simp [hsource, Source.cluster?_ofClusters]
      have hnext : source = .ofClusters ((before ++ [cluster]) ++ rest) := by
        rw [hsource, List.append_assoc, List.singleton_append]
      -- The latest token is a text or the mark, so no line starts here and nothing is escaped.
      have hstart : atLineStart (done ++ [mark]) = false := by
        cases done with
        | nil => simp [atLineStart, hmark]
        | cons token others => simp [atLineStart, hsaid.kinds token List.mem_cons_self]
      have hescapes : escapes (done ++ [mark]) before.length = false := by
        cases done with
        | nil => simp [escapes, hmark]
        | cons token others => simp [escapes, hsaid.kinds token List.mem_cons_self]
      obtain ⟨more, hscan, hmore⟩ := ih hrest hnext (hsaid.push hget)
      refine ⟨more, ?_, by rwa [String.join_cons, ← String.append_assoc]⟩
      rw [List.length_append, List.length_singleton] at hscan
      rw [← hscan, List.map_cons, Token.scan, step_of_isInner hstart hescapes hcluster,
        push_append_mark hmark]

end Token

namespace Source

variable {line : List String}

/-- What comes after the mark of a directive and can begin no other mark is one text. -/
theorem exists_spell_after_mark
    (hline : ∀ cluster ∈ line.drop (markLength line), (Glyph.ofCluster cluster).IsInner) :
    ∃ others, (ofClusters ("!" :: line)).openLexemes =
        ⟨.lineMark .directive, ⟨0, markLength line + 1⟩,
          String.join ("!" :: line.take (markLength line))⟩ :: others ∧
      Lexeme.Spell (String.join (line.drop (markLength line))) others := by
  have hwhole : ofClusters ("!" :: line) =
      .ofClusters (("!" :: line.take (markLength line)) ++ line.drop (markLength line)) := by
    rw [List.cons_append, List.take_append_drop]
  have htaken : (line.take (markLength line)).length = markLength line :=
    List.length_take_of_le (markLength_le line)
  have hmark : (Token.mk (.lineMark .directive) ⟨0, markLength line + 1⟩).kind =
      .lineMark .directive := rfl
  obtain ⟨more, hscan, hsaid⟩ := Token.Says.nil.scan_after_mark hmark hline hwhole
  -- The scanner passes over the glyphs of the mark.
  have hskip : Token.scan [⟨.lineMark .directive, ⟨0, markLength line + 1⟩⟩] 1 (markLength line)
      (line.map Glyph.ofCluster) = more ++ [⟨.lineMark .directive, ⟨0, markLength line + 1⟩⟩] := by
    have hmoved := Token.scan_skip [⟨.lineMark .directive, ⟨0, markLength line + 1⟩⟩] 1
      ((line.take (markLength line)).map Glyph.ofCluster)
      ((line.drop (markLength line)).map Glyph.ofCluster)
    rw [← List.map_append, List.take_append_drop, List.length_map, htaken] at hmoved
    rw [List.length_cons, htaken, List.nil_append] at hscan
    rw [hmoved, Nat.add_comm 1, hscan]
  have htokens : (ofClusters ("!" :: line)).openTokens =
      ⟨.lineMark .directive, ⟨0, markLength line + 1⟩⟩ :: more.reverse := by
    rw [openTokens_bang, hskip, List.reverse_append]
    rfl
  refine ⟨_, openLexemes_of_openTokens htokens, ?_⟩
  simpa using Lexeme.spell_of_says hsaid

/-- A line with nothing but text after its mark is the directive that is read off it. -/
theorem directives_bang (hunbroken : Unbroken line)
    (hline : ∀ cluster ∈ line.drop (markLength line), (Glyph.ofCluster cluster).IsInner)
    {opening : DirectiveOpening}
    (hopening : Directive.parseOpening? (String.join ("!" :: line)) = some opening) :
    (ofClusters ("!" :: line)).directives =
      [⟨opening.name, opening.subname, Directive.cleanArgument opening.rest, 0⟩] := by
  obtain ⟨others, hlexemes, hspell⟩ := exists_spell_after_mark hline
  have hjoin : String.join ("!" :: line) =
      String.join ("!" :: line.take (markLength line)) ++
        String.join (line.drop (markLength line)) := by
    rw [← String.join_append, List.cons_append, List.take_append_drop]
  rw [hjoin] at hopening
  obtain ⟨found, hfound, hname, hsubname, hrest⟩ := Directive.parseOpening?_append
    (by simp [String.join_cons]) (isBlank_after_mark hunbroken) hopening
  have hlength : markLength line + 1 ≤ ("!" :: line).length := by simpa using markLength_le line
  have hmarker : Directive.parseOpening?
      ((ofClusters ("!" :: line)).slice ⟨0, markLength line + 1⟩) = some found := by
    rw [slice_take hlength, List.take_succ_cons, hfound]
  have hends : (others ++ [Lexeme.mk .newline {} "\n"]).takeWhile (·.kind != .newline) =
      others := by
    rw [List.takeWhile_append_of_pos fun lexeme hmem => by simp [hspell.kinds lexeme hmem]]
    simp
  rw [directives_eq, hlexemes, Directive.ofLexemes_line [] ?_ ?_ rfl]
  · simp only [Directive.ofLine?, if_pos, hmarker, hends, hspell.texts, hname, hsubname, hrest,
      Option.map_some, Option.toList_some, Directive.ofLexemes, List.append_nil]
  · intro lexeme hmem
    simp [hspell.kinds lexeme hmem]
  · intro lexeme hmem
    simp [hspell.kinds lexeme hmem]

/-! ## What stands after the name -/

/-- The clusters that begin after the first `count` characters of a line. -/
def clustersAfter : Nat → List String → List String
  | _, [] => []
  | 0, line => line
  | count + 1, cluster :: rest => clustersAfter (count + 1 - cluster.length) rest

/-- The clusters that mean something in the argument of a directive. -/
def argumentMarks : List String := ["#", "*", "[", "]", "\x7b", "\x7d", "\\"]

theorem mem_clustersAfter {before after : List String} {count : Nat}
    (hcount : count ≤ (String.join before).length) {cluster : String} (hmem : cluster ∈ after) :
    cluster ∈ clustersAfter count (before ++ after) := by
  induction before generalizing count with
  | nil =>
      obtain rfl : count = 0 := by simpa using hcount
      cases after with
      | nil => cases hmem
      | cons first others => exact hmem
  | cons first before ih =>
      cases count with
      | zero => exact List.mem_append_right (first :: before) hmem
      | succ count =>
          apply ih
          rw [String.join_cons, String.length_append] at hcount
          omega

theorem Plain.unbroken (hline : Plain line) : Unbroken line := by
  intro cluster hmem
  rw [← Bool.not_eq_true, isNewline, List.contains_iff_mem]
  exact (hline cluster hmem).2

section Line

open Directive (isNameChar separators)

variable {name separator argument : String}

/-- What comes after the white space that ends the mark of a directive is from the argument. -/
theorem argument_after_mark (hname : ∀ c ∈ name.toList, isNameChar c = true)
    (hseparator : separator ∈ separators) (hplain : Plain line)
    (hline : String.join line = name ++ (separator ++ argument)) {blank : String}
    {others : List String} (hdrop : line.drop (markLength line) = blank :: others) :
    (∀ cluster ∈ others, cluster ∈ clustersAfter (name.length + 1) line) ∧
      (String.join others).toList <:+ argument.toList := by
  have hwhole : line = line.take (markLength line) ++ blank :: others := by
    rw [← hdrop, List.take_append_drop]
  have hmem : blank ∈ line := hwhole ▸ List.mem_append_right _ List.mem_cons_self
  obtain ⟨c, tail, hlist, hc⟩ :=
    head_of_isBlank (hplain.unbroken blank hmem) (isBlank_of_drop_mark hdrop)
  obtain ⟨c', hsingle, -⟩ := Directive.exists_of_mem_separators hseparator
  have hchars : name.toList ++ (separator.toList ++ argument.toList) =
      (String.join (line.take (markLength line))).toList ++
        c :: (tail ++ (String.join others).toList) := by
    have hjoin : String.join line = String.join (line.take (markLength line)) ++
        (blank ++ String.join others) := by
      rw [← String.join_cons, ← String.join_append, ← hwhole]
    rw [← String.toList_append, ← String.toList_append, ← hline, hjoin]
    simp [hlist]
  -- The white space is no part of the name.
  obtain ⟨gap, htaken, hrest⟩ : ∃ gap,
      (String.join (line.take (markLength line))).toList = name.toList ++ gap ∧
        separator.toList ++ argument.toList =
          gap ++ c :: (tail ++ (String.join others).toList) := by
    rcases List.append_eq_append_iff.mp hchars with ⟨gap, htaken, hrest⟩ | ⟨gap, htaken, hrest⟩
    · exact ⟨gap, htaken, hrest⟩
    · cases gap with
      | nil => exact ⟨[], by simpa using htaken.symm, hrest.symm⟩
      | cons first gap =>
          obtain ⟨rfl, -⟩ := List.cons.inj hrest
          have hword := hname c (htaken ▸ by simp)
          simp [isNameChar, hc] at hword
  constructor
  · intro cluster hmem
    have hsplit : line = (line.take (markLength line) ++ [blank]) ++ others := by
      rw [List.append_assoc, List.singleton_append, ← hwhole]
    have hcount : name.length + 1 ≤
        (String.join (line.take (markLength line) ++ [blank])).length := by
      rw [← String.length_toList, ← String.length_toList, String.join_append,
        String.toList_append, htaken, String.join_cons, String.toList_append, hlist]
      simp
      omega
    rw [hsplit]
    exact mem_clustersAfter hcount hmem
  · have hlengths := congrArg List.length hrest
    have hsuffix : (String.join others).toList <:+ separator.toList ++ argument.toList := by
      rw [hrest, ← List.cons_append, ← List.append_assoc]
      exact List.suffix_append _ _
    apply List.suffix_of_suffix_length_le hsuffix (List.suffix_append _ _)
    rw [hsingle] at hlengths
    simp only [List.length_append, List.length_cons, List.length_nil] at hlengths
    omega

/-- Nothing after the mark of a directive can begin another mark. -/
theorem isInner_after_mark (hname : ∀ c ∈ name.toList, isNameChar c = true)
    (hseparator : separator ∈ separators) (hargument : '=' ∉ argument.toList)
    (hplain : Plain line)
    (hline : String.join line = name ++ (separator ++ argument))
    (hmarks : ∀ cluster ∈ clustersAfter (name.length + 1) line, cluster ∉ argumentMarks) :
    ∀ cluster ∈ line.drop (markLength line), (Glyph.ofCluster cluster).IsInner := by
  intro cluster hmem
  obtain ⟨hreturn, hnewline⟩ := hplain cluster (List.mem_of_mem_drop hmem)
  by_cases hmarker : cluster ∈ markers
  · cases hdrop : line.drop (markLength line) with
    | nil =>
        rw [hdrop] at hmem
        cases hmem
    | cons blank others =>
        obtain ⟨hafter, hsuffix⟩ := argument_after_mark hname hseparator hplain hline hdrop
        rw [hdrop] at hmem
        rcases List.mem_cons.mp hmem with rfl | hmem
        · -- The white space that ends the mark is no marker.
          have hsolid : ∀ marker ∈ markers, (Glyph.ofCluster marker).isBlank = false := by decide
          have hblank := isBlank_of_drop_mark hdrop
          rw [hsolid cluster hmarker] at hblank
          cases hblank
        · have hequals : cluster ≠ "=" := by
            rintro rfl
            apply hargument
            apply hsuffix.subset
            rw [String.toList_join]
            exact List.mem_flatMap.mpr ⟨"=", hmem, by decide⟩
          have hinner : ∀ marker ∈ markers, marker ∉ argumentMarks → marker ≠ "=" →
              marker = "!" ∨ marker = ">" := by decide
          rcases hinner cluster hmarker (hmarks cluster (hafter cluster hmem)) hequals with
            rfl | rfl
          · exact .bang
          · exact .greater
  · rcases Glyph.ofCluster_of_text hmarker hreturn hnewline with hglyph | hglyph
    · exact hglyph ▸ .blank
    · exact hglyph ▸ .other

/-- A line is the directive that its name and its argument say, in either spelling. -/
theorem exists_directives_spelled (hname : ∀ c ∈ name.toList, isNameChar c = true)
    (hargument : ∀ c ∈ argument.toList, c ≠ '\n' ∧ c ≠ '\r' ∧ c ≠ '=') :
    ∃ called subname, Directive.Called name called subname ∧
      ∀ separator ∈ separators, ∀ line, String.join line = name ++ (separator ++ argument) →
        (∀ cluster ∈ clustersAfter (name.length + 1) line, cluster ∉ argumentMarks) →
        (ofClusters ("!" :: line)).directives = [⟨called, subname, Text.trim argument, 0⟩] := by
  obtain ⟨called, subname, hcalled, hparse⟩ := Directive.exists_parseOpening? hname
  refine ⟨called, subname, hcalled, fun separator hseparator line hline hmarks => ?_⟩
  obtain ⟨c, hsingle, hstop, hreturn, hnewline⟩ :=
    Directive.exists_of_mem_separators hseparator
  have hequals : '=' ∉ argument.toList := fun hmem => (hargument '=' hmem).2.2 rfl
  have hchars : ∀ c ∈ (String.join line).toList, c ≠ '\r' ∧ c ≠ '\n' := by
    intro c hmem
    rw [hline, String.toList_append, String.toList_append, hsingle] at hmem
    rcases List.mem_append.mp hmem with hmem | hmem
    · have hword := hname c hmem
      constructor <;> (rintro rfl; exact absurd hword (by decide))
    · rcases List.mem_cons.mp hmem with rfl | hmem
      · exact ⟨hreturn, hnewline⟩
      · exact ⟨(hargument c hmem).2.1, (hargument c hmem).1⟩
  have hplain : Plain line := by
    intro cluster hmem
    have hin : ∀ c ∈ cluster.toList, c ∈ (String.join line).toList := by
      intro c hc
      rw [String.toList_join]
      exact List.mem_flatMap.mpr ⟨cluster, hmem, hc⟩
    exact ⟨fun hc => (hchars _ (hin _ hc)).1 rfl, fun hc => (hchars _ (hin _ hc)).2 rfl⟩
  have hhead : ∀ c ∈ (separator ++ argument).toList.head?, isNameChar c = false := by
    rw [String.toList_append, hsingle]
    simpa using hstop
  have hopening := hparse (separator ++ argument) hhead
  rw [← hline, ← String.join_cons] at hopening
  have hinner := isInner_after_mark hname hseparator hequals hplain hline hmarks
  rw [directives_bang hplain.unbroken hinner hopening,
    Directive.cleanArgument_separator hseparator hequals]

example : ∀ separator ∈ separators,
    (ofClusters ["!", "n", "o", "t", "e", "x", separator, " ", "a", ">", "!", "b "]).directives =
      [⟨"note", "x", "a>!b", 0⟩] := by
  decide +kernel

end Line

/-! ## The line in its source -/

/-- The exclamation mark of a directive is a cluster of its source. -/
theorem offset_lt_length {source : Source} {directive : Directive}
    (hmem : directive ∈ source.directives) : directive.offset < source.length := by
  have hoffset : directive.offset ∈ source.directives.map (·.offset) := List.mem_map_of_mem hmem
  rw [map_offset_directives] at hoffset
  obtain ⟨token, htoken, hstart⟩ := List.mem_map.mp hoffset
  obtain ⟨htoken, hkind⟩ := List.mem_filter.mp htoken
  have hforward := source.tokens_tile.forward token htoken
  rw [tokens_eq] at htoken
  rcases List.mem_append.mp htoken with htoken | htoken
  · rw [← hstart]
    exact hforward.trans_le (stop_openTokens token htoken)
  · rw [List.mem_singleton.mp htoken] at hkind
    cases hkind

/-- The directives of a source are those before a line, those of the line and those after it. -/
theorem filter_directives {front line rest : List String} (hfront : EndsLine front)
    (hrest : ∀ ending ∈ rest.head?, isNewline ending = true) :
    (ofClusters (front ++ (line ++ rest))).directives.filter (fun directive =>
        Span.Contains ⟨front.length, front.length + line.length⟩ directive.offset) =
      (ofClusters line).directives.map (Directive.shift front.length) := by
  obtain ⟨earlier, hearlier⟩ := directives_front hfront
  have hbefore : ∀ directive ∈ earlier, directive.offset < front.length := by
    intro directive hmem
    rw [← length_ofClusters front]
    apply offset_lt_length
    rw [← List.append_nil front, hearlier []]
    exact List.mem_append_left _ hmem
  have hline : ∀ directive ∈ (ofClusters line).directives, directive.offset < line.length := by
    intro directive hmem
    rw [← length_ofClusters line]
    exact offset_lt_length hmem
  obtain ⟨later, hlater, hafter⟩ : ∃ later,
      (ofClusters (line ++ rest)).directives = (ofClusters line).directives ++ later ∧
        ∀ directive ∈ later, line.length < directive.offset := by
    cases rest with
    | nil => exact ⟨[], by simp, nofun⟩
    | cons ending more =>
        refine ⟨_, directives_line line more (hrest ending rfl), fun directive hmem => ?_⟩
        obtain ⟨found, -, rfl⟩ := List.mem_map.mp hmem
        simp only [Directive.shift]
        omega
  -- Only the directives of the line itself have offsets in its span.
  rw [hearlier, hlater, List.map_append, List.filter_append, List.filter_append,
    List.filter_eq_nil_iff.mpr, List.filter_eq_self.mpr, List.filter_eq_nil_iff.mpr,
    List.nil_append, List.append_nil]
  · intro directive hmem hcontains
    obtain ⟨found, hfound, rfl⟩ := List.mem_map.mp hmem
    have hlt : found.offset + front.length < front.length + line.length :=
      (decide_eq_true_iff.mp hcontains).2
    have hpast := hafter found hfound
    omega
  · intro directive hmem
    obtain ⟨found, hfound, rfl⟩ := List.mem_map.mp hmem
    have hlt := hline found hfound
    apply decide_eq_true
    exact ⟨Nat.le_add_left .., by simp only [Directive.shift]; omega⟩
  · intro directive hmem hcontains
    have hle : front.length ≤ directive.offset := (decide_eq_true_iff.mp hcontains).1
    exact absurd (hbefore directive hmem) hle.not_gt

end Source

/-- The directives of a table whose exclamation marks a span covers. -/
def DirectiveTable.within (table : DirectiveTable) (span : Span) : List Directive :=
  table.directives.filter fun directive => span.Contains directive.offset

open Draft

/-- Both spellings of a directive mean the same. On any line of a page whose structure is accepted,
an exclamation mark, a name and an argument without marks make one directive, at the exclamation
mark and with the argument trimmed, whether a space or an equals sign stands between them. -/
theorem Source.lift_directive_in_both_spellings {front : List String} (hfront : EndsLine front)
    {name argument : String} (hname : ∀ c ∈ name.toList, Directive.isNameChar c = true)
    (hargument : ∀ c ∈ argument.toList, c ≠ '\n' ∧ c ≠ '\r' ∧ c ≠ '=') :
    ∃ directive : Directive, Directive.Called name directive.name directive.subname ∧
      directive.argument = Text.trim argument ∧ directive.offset = front.length ∧
      ∀ separator ∈ Directive.separators, ∀ (line rest : List String) (registries : Registries)
          (body : Forest),
        String.join line = name ++ (separator ++ argument) →
        (∀ cluster ∈ clustersAfter (name.length + 1) line, cluster ∉ argumentMarks) →
        (∀ ending ∈ rest.head?, isNewline ending = true) →
        Forest.ofLexemes (ofClusters (front ++ ("!" :: line ++ rest))).lexemes = .ok body →
        body.check = .ok () →
        ∃ lifted, (runPasses (ofClusters (front ++ ("!" :: line ++ rest))) registries
            [.validate, .prune, .directives] { body }).2 = .ok lifted ∧
          lifted.directives.within ⟨front.length, front.length + ("!" :: line).length⟩ =
            [directive] := by
  obtain ⟨called, subname, hcalled, hspelled⟩ :=
    Source.exists_directives_spelled hname hargument
  refine ⟨⟨called, subname, Text.trim argument, front.length⟩, hcalled, rfl, rfl, ?_⟩
  intro separator hseparator line rest registries body hline hmarks hrest hbody hcheck
  obtain ⟨lifted, hlifted⟩ : ∃ lifted,
      (runPasses (ofClusters (front ++ ("!" :: line ++ rest))) registries
        [.validate, .prune, .directives] { body }).2 = .ok lifted := by
    simp only [runPasses, Pass.run, hcheck]
    exact ⟨_, rfl⟩
  have hdirectives : lifted.directives =
      ⟨(ofClusters (front ++ ("!" :: line ++ rest))).directives⟩ :=
    congrArg Draft.directives (lifted_directives hbody hlifted).1
  refine ⟨lifted, hlifted, ?_⟩
  rw [DirectiveTable.within, hdirectives, filter_directives hfront hrest,
    hspelled separator hseparator line hline hmarks]
  simp [Directive.shift]

/-- A page that defines a note, with a mark in its argument that could only start a line. -/
def Directive.spellingExample (separator : String) : Source :=
  .ofClusters (["!", "t", "i", "t", "l", "e", "=", "T", "\r\n"] ++
    ("!" :: ["n", "o", "t", "e", "x", separator, " ", "a", " ", ">", "!", "b "] ++ ["\n", "c"]))

theorem Source.lift_directive_in_both_spellings_note :
    ∃ directive : Directive, Directive.Called "notex" directive.name directive.subname ∧
      directive.argument = Text.trim " a >!b " ∧ directive.offset = 9 ∧
      ∀ separator ∈ Directive.separators, ∃ body lifted,
        Forest.ofLexemes (Directive.spellingExample separator).lexemes = .ok body ∧
        (runPasses (Directive.spellingExample separator) Registries.empty
          [.validate, .prune, .directives] { body }).2 = .ok lifted ∧
        lifted.directives.within ⟨9, 22⟩ = [directive] := by
  have hfront : EndsLine ["!", "t", "i", "t", "l", "e", "=", "T", "\r\n"] :=
    .inr ⟨["!", "t", "i", "t", "l", "e", "=", "T"], "\r\n", by decide, rfl⟩
  have hname : ∀ c ∈ "notex".toList, Directive.isNameChar c = true :=
    List.all_eq_true.mp (by decide)
  have hplain : ∀ c ∈ " a >!b ".toList, c ≠ '\n' ∧ c ≠ '\r' ∧ c ≠ '=' := by simp
  obtain ⟨directive, hcalled, hargument, hoffset, hlifted⟩ :=
    Source.lift_directive_in_both_spellings hfront hname hplain
  refine ⟨directive, hcalled, hargument, hoffset, fun separator hseparator => ?_⟩
  have hline : String.join ["n", "o", "t", "e", "x", separator, " ", "a", " ", ">", "!", "b "] =
      "notex" ++ (separator ++ " a >!b ") := by
    rcases List.mem_pair.mp hseparator with rfl | rfl <;> decide
  have hmarks : ∀ cluster ∈ clustersAfter ("notex".length + 1)
      ["n", "o", "t", "e", "x", separator, " ", "a", " ", ">", "!", "b "],
      cluster ∉ argumentMarks := by
    rcases List.mem_pair.mp hseparator with rfl | rfl <;> decide
  have hcompiled :
      ((Directive.spellingExample separator).compile Registries.empty).2.isOk = true := by
    rcases List.mem_pair.mp hseparator with rfl | rfl <;> decide +kernel
  cases hcompile : ((Directive.spellingExample separator).compile Registries.empty).2 with
  | error fault =>
      rw [hcompile] at hcompiled
      cases hcompiled
  | ok document =>
      obtain ⟨body, hbody, hcheck, -⟩ := compile_presents hcompile
      obtain ⟨lifted, hrun, hwithin⟩ := hlifted separator hseparator _ ["\n", "c"]
        Registries.empty body hline hmarks (by decide) hbody hcheck
      exact ⟨body, lifted, hbody, hrun, hwithin⟩

end PageMarkup
