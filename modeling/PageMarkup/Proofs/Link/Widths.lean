import PageMarkup.Proofs.Link.Arguments

/-! # The width of an embed

An argument is a width if it is a numeral up to a limit, and the last such argument counts. It is
brought into the range of a percentage, with one warning if it was not there. A numeral above the
limit is no width; it is read as a caption, as is all else that is no word for a side.
-/

namespace PageMarkup

namespace Embed

/-! ## Which arguments count -/

/-- The arguments in the content of an embed, without the white space around them; blank ones are
left out. -/
def argumentsOf (content : String) : List String :=
  arguments (Text.splitBefore (fun c => c == '|' || Text.isBlank c) (Text.trim content)).2

section Last

variable {content : String}

theorem parse_eq_ofArguments (content : String) :
    parse content =
      ofArguments (parse content).name ((argumentsOf content).map .ofTrimmed) := by
  have hparse : parse content =
      ofArguments (Text.splitBefore (fun c => c == '|' || Text.isBlank c) (Text.trim content)).1
        ((argumentsOf content).map .ofTrimmed) := by
    rw [← foldl_say_name, ← foldl_withArgument (by simp [argumentsOf, arguments])]
    rfl
  have hname := congrArg Embed.name hparse
  rw [hname]
  exact hparse

/-- The last answer comes from a member after which no other one has an answer. -/
theorem getLast?_filterMap_eq_some_iff {α β : Type} {f : α → Option β} {list : List α} {b : β} :
    (list.filterMap f).getLast? = some b ↔
      ∃ before a after, list = before ++ a :: after ∧ f a = some b ∧
        ∀ other ∈ after, f other = none := by
  rw [List.getLast?_eq_head?_reverse, ← List.filterMap_reverse, List.head?_filterMap,
    List.findSome?_eq_some_iff]
  constructor
  · rintro ⟨after, a, before, hlist, ha, hafter⟩
    refine ⟨before.reverse, a, after.reverse, ?_, ha, fun other hmem => ?_⟩
    · rw [← List.reverse_reverse list, hlist]
      simp
    · exact hafter other (List.mem_reverse.mp hmem)
  · rintro ⟨before, a, after, rfl, ha, hafter⟩
    refine ⟨after.reverse, a, before.reverse, by simp, ha, fun other hmem => ?_⟩
    exact hafter other (List.mem_reverse.mp hmem)

theorem width?_ofTrimmed_eq_some_iff {argument : String} {value : Nat} :
    (Argument.ofTrimmed argument).width? = some value ↔
      IsNumeral argument value ∧ value ≤ widthLimit := by
  constructor
  · intro hwidth
    have hreads := Argument.reads_ofTrimmed argument
    cases hargument : Argument.ofTrimmed argument with
    | width percent =>
        rw [hargument] at hwidth hreads
        cases hreads with
        | width hnumeral hlimit =>
            obtain rfl := Option.some.inj hwidth
            exact ⟨hnumeral, hlimit⟩
    | _ => rw [hargument] at hwidth; cases hwidth
  · rintro ⟨hnumeral, hlimit⟩
    rw [(Argument.Reads.width hnumeral hlimit).ofTrimmed_eq]
    rfl

theorem caption?_ofTrimmed_eq_some_iff {argument text : String} (hpresent : argument ≠ "") :
    (Argument.ofTrimmed argument).caption? = some text ↔ argument = text ∧ IsCaption argument := by
  constructor
  · intro hcaption
    have hreads := Argument.reads_ofTrimmed argument
    cases hargument : Argument.ofTrimmed argument with
    | caption found =>
        rw [hargument] at hcaption hreads
        cases hreads with
        | caption _ hreads => exact ⟨Option.some.inj hcaption, hreads⟩
    | _ => rw [hargument] at hcaption; cases hcaption
  · rintro ⟨rfl, hcaption⟩
    rw [(Argument.Reads.caption hpresent hcaption).ofTrimmed_eq]
    rfl

/-- The width is the last number among the arguments that is in the limit. -/
theorem width_parse_eq_some_iff {value : Nat} :
    (parse content).width = some value ↔
      ∃ before argument after, argumentsOf content = before ++ argument :: after ∧
        (IsNumeral argument value ∧ value ≤ widthLimit) ∧
        ∀ other ∈ after, ∀ value ≤ widthLimit, ¬IsNumeral other value := by
  rw [parse_eq_ofArguments]
  dsimp only [ofArguments]
  rw [List.filterMap_map, getLast?_filterMap_eq_some_iff]
  refine exists₃_congr fun before argument after => and_congr_right fun _ => and_congr ?_ ?_
  · exact width?_ofTrimmed_eq_some_iff
  · refine forall₂_congr fun other _ => ?_
    rw [Function.comp, Option.eq_none_iff_forall_ne_some]
    refine forall_congr' fun value => ?_
    rw [Ne, width?_ofTrimmed_eq_some_iff, not_and']

/-- The caption is the last argument that is neither such a number nor a word for a side. -/
theorem caption_parse_eq_some_iff {text : String} :
    (parse content).caption = some text ↔
      ∃ before after, argumentsOf content = before ++ text :: after ∧ IsCaption text ∧
        ∀ other ∈ after, ¬IsCaption other := by
  have hpresent : ∀ argument ∈ argumentsOf content, argument ≠ "" := by
    simp [argumentsOf, arguments]
  have hnone : ∀ other ∈ argumentsOf content,
      (Argument.ofTrimmed other).caption? = none ↔ ¬IsCaption other := by
    intro other hmem
    rw [Option.eq_none_iff_forall_ne_some]
    constructor
    · exact fun hnone hcaption => hnone other
        ((caption?_ofTrimmed_eq_some_iff (hpresent other hmem)).mpr ⟨rfl, hcaption⟩)
    · exact fun hnot text hcaption =>
        hnot ((caption?_ofTrimmed_eq_some_iff (hpresent other hmem)).mp hcaption).2
  rw [parse_eq_ofArguments]
  dsimp only [ofArguments]
  rw [List.filterMap_map, getLast?_filterMap_eq_some_iff]
  constructor
  · rintro ⟨before, argument, after, hlist, hanswer, hafter⟩
    rw [hlist, List.forall_mem_append, List.forall_mem_cons] at hpresent hnone
    obtain ⟨rfl, hcaption⟩ := (caption?_ofTrimmed_eq_some_iff hpresent.2.1).mp hanswer
    exact ⟨before, after, hlist, hcaption, fun other hmem =>
      (hnone.2.2 other hmem).mp (hafter other hmem)⟩
  · rintro ⟨before, after, hlist, hcaption, hafter⟩
    rw [hlist, List.forall_mem_append, List.forall_mem_cons] at hpresent hnone
    exact ⟨before, text, after, hlist,
      (caption?_ofTrimmed_eq_some_iff hpresent.2.1).mpr ⟨rfl, hcaption⟩, fun other hmem =>
        (hnone.2.2 other hmem).mpr (hafter other hmem)⟩

end Last

/-! ## Percentages -/

/-- A percentage for a width, and a warning if the width was none itself. -/
def broughtIntoRange (name : String) (width offset : Nat) : Nat × List Notice :=
  (min (max width 1) 100,
    if 1 ≤ width ∧ width ≤ 100 then []
    else [⟨.widthOutOfRange width name (min (max width 1) 100), some offset⟩])

theorem usedWidth_of_some {embed : Embed} {width : Nat} (hwidth : embed.width = some width)
    (offset : Nat) : embed.usedWidth offset = broughtIntoRange embed.name width offset := by
  unfold usedWidth broughtIntoRange
  rw [hwidth]
  dsimp only
  by_cases hrange : 1 ≤ width ∧ width ≤ 100
  · have hsame : min (max width 1) 100 = width := by omega
    rw [if_pos hrange, if_pos hsame, hsame]
  · have hchanged : min (max width 1) 100 ≠ width := by omega
    rw [if_neg hrange, if_neg hchanged]

theorem usedWidth_of_none {embed : Embed} (hwidth : embed.width = none) (offset : Nat) :
    embed.usedWidth offset = (30, []) := by
  rw [usedWidth, hwidth]
  rfl

/-- The width that is used is a percentage. -/
theorem usedWidth_mem_range (embed : Embed) (offset : Nat) :
    1 ≤ (embed.usedWidth offset).1 ∧ (embed.usedWidth offset).1 ≤ 100 := by
  cases hwidth : embed.width with
  | none =>
      rw [usedWidth_of_none hwidth]
      decide
  | some width =>
      rw [usedWidth_of_some hwidth]
      exact ⟨le_min (le_max_right _ _) (by decide), min_le_right _ _⟩

/-- Decimal digits and nothing else. -/
def IsDigits (text : String) : Prop := text ≠ "" ∧ ∀ c ∈ text.toList, c.isDigit = true

theorem IsDigits.isNumeral {text : String} (hdigits : IsDigits text) :
    IsNumeral text (Nat.ofDigitChars 10 text.toList 0) :=
  ⟨text.toList, fun hnil => hdigits.1 (String.toList_eq_nil_iff.mp hnil), hdigits.2, .inl rfl, rfl⟩

/-- What an embed makes of its arguments as to its width and its caption. -/
structure Sized (embed : Embed) (arguments : List String) (offset : Nat) : Prop where
  percentage : 1 ≤ (embed.usedWidth offset).1 ∧ (embed.usedWidth offset).1 ≤ 100
  /-- The last numeral up to the limit is the width. -/
  numbered : ∀ before argument after value, arguments = before ++ argument :: after →
    IsNumeral argument value → value ≤ widthLimit →
    (∀ other ∈ after, ∀ value ≤ widthLimit, ¬IsNumeral other value) →
    embed.usedWidth offset = broughtIntoRange embed.name value offset
  unnumbered : (∀ argument ∈ arguments, ∀ value ≤ widthLimit, ¬IsNumeral argument value) →
    embed.usedWidth offset = (30, [])
  /-- The last argument that is neither such a numeral nor a word for a side is the caption. -/
  captioned : ∀ text, embed.caption = some text ↔
    ∃ before after, arguments = before ++ text :: after ∧ IsCaption text ∧
      ∀ other ∈ after, ¬IsCaption other
  /-- If all numerals are digits alone and up to the limit, the last one is the width and none is
  the caption. -/
  digits : (∀ argument ∈ arguments, ∀ value, IsNumeral argument value →
      IsDigits argument ∧ value ≤ widthLimit) →
    (∀ before argument after, arguments = before ++ argument :: after → IsDigits argument →
      (∀ other ∈ after, ¬IsDigits other) →
      embed.usedWidth offset =
        broughtIntoRange embed.name (Nat.ofDigitChars 10 argument.toList 0) offset) ∧
    ∀ text, embed.caption = some text → ¬IsDigits text

theorem sized_parse (content : String) (offset : Nat) :
    (parse content).Sized (argumentsOf content) offset := by
  have hnumbered : ∀ before argument after value,
      argumentsOf content = before ++ argument :: after →
      IsNumeral argument value → value ≤ widthLimit →
      (∀ other ∈ after, ∀ value ≤ widthLimit, ¬IsNumeral other value) →
      (parse content).usedWidth offset =
        broughtIntoRange (parse content).name value offset :=
    fun before argument after value hlist hnumeral hlimit hafter =>
      usedWidth_of_some (width_parse_eq_some_iff.mpr
        ⟨before, argument, after, hlist, ⟨hnumeral, hlimit⟩, hafter⟩) offset
  refine
    { percentage := usedWidth_mem_range _ offset
      numbered := hnumbered
      unnumbered := fun hnone => usedWidth_of_none ?_ offset
      captioned := fun _ => caption_parse_eq_some_iff
      digits := fun hbare => ⟨fun before argument after hlist hdigits hafter => ?_,
        fun text hcaption hdigits => ?_⟩ }
  · rw [Option.eq_none_iff_forall_ne_some]
    intro value hwidth
    obtain ⟨before, argument, after, hlist, ⟨hnumeral, hlimit⟩, -⟩ :=
      width_parse_eq_some_iff.mp hwidth
    exact hnone argument (by simp [hlist]) value hlimit hnumeral
  · -- the numerals after the argument would be bare digits, and there are none
    rw [hlist, List.forall_mem_append, List.forall_mem_cons] at hbare
    obtain ⟨-, hlimit⟩ := hbare.2.1 _ hdigits.isNumeral
    exact hnumbered before argument after _ hlist hdigits.isNumeral hlimit
      fun other hmem value _ hnumeral => hafter other hmem (hbare.2.2 other hmem value hnumeral).1
  · obtain ⟨before, after, hlist, hcaption, -⟩ := caption_parse_eq_some_iff.mp hcaption
    obtain ⟨-, hlimit⟩ := hbare text (by simp [hlist]) _ hdigits.isNumeral
    exact hcaption.numeral _ hlimit hdigits.isNumeral

end Embed

end PageMarkup
