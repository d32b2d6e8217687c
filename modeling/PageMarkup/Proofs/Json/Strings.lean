import Mathlib.Data.Option.Basic
import Mathlib.Tactic.SplitIfs
import PageMarkup.Json.Basic
import PageMarkup.Json.Token

/-! # Strings in quotes

A character is written as itself, by a letter or by its number, and each of the three is read
back as that character. So a text in quotes is one token that holds the text, whatever comes
after it.
-/

namespace PageMarkup

namespace Json

theorem hexValue?_digitChar : ∀ n < 16, hexValue? (Nat.digitChar n) = some n := by decide

theorem hexValues?_digitChar {code : Nat} (hcode : code < 32) :
    hexValues? '0' '0' (Nat.digitChar (code / 16)) (Nat.digitChar (code % 16)) = some code := by
  have hzero : hexValue? '0' = some 0 := rfl
  rw [hexValues?, hzero, hexValue?_digitChar _ (by omega), hexValue?_digitChar _ (by omega)]
  have hsum : ((0 * 16 + 0) * 16 + code / 16) * 16 + code % 16 = code := by omega
  exact congrArg some hsum

namespace StringUnit

/-- The unit is the character, or its number where it is a control character. -/
def StandsFor (c : Char) (unit : StringUnit) : Prop :=
  unit = .char c ∨ unit = .unit c.toNat ∧ c.toNat < 32

end StringUnit

/-- No half of a character stands for a control character, so the next unit is left alone. -/
theorem unitsText?_cons {c : Char} {unit : StringUnit} (hunit : unit.StandsFor c)
    (units : List StringUnit) :
    unitsText? (unit :: units) = (unitsText? units).map (c :: ·) := by
  rcases hunit with rfl | ⟨rfl, hc⟩
  · rw [unitsText?]
  · have hleading : isLeading c.toNat = false := by simp [isLeading]; omega
    have htrailing : isTrailing c.toNat = false := by simp [isTrailing]; omega
    rcases units with _ | ⟨_ | code, units⟩ <;>
      simp [unitsText?, hleading, htrailing, Char.ofNat_toNat]

/-- The three ways in which a character is written. -/
theorem escapeChar_cases (c : Char) :
    (∃ letter, escapeChar c = ['\\', letter] ∧ shortEscape? letter = some c) ∨
      (escapeChar c = controlEscape c ∧ c.toNat < 32) ∨
      (escapeChar c = [c] ∧ c ≠ '"' ∧ c ≠ '\\' ∧ 32 ≤ c.toNat) := by
  have hnumbered : ∀ n, c.toNat = n → Char.ofNat n = c := by
    rintro _ rfl
    exact Char.ofNat_toNat c
  rw [escapeChar]
  by_cases hquote : c = '"'
  · exact .inl ⟨'"', if_pos hquote, by rw [hquote, shortEscape?]⟩
  rw [if_neg hquote]
  by_cases hslash : c = '\\'
  · exact .inl ⟨'\\', if_pos hslash, by rw [hslash, shortEscape?]⟩
  rw [if_neg hslash]
  by_cases hline : c = '\n'
  · exact .inl ⟨'n', if_pos hline, by rw [hline, shortEscape?]⟩
  rw [if_neg hline]
  by_cases hreturn : c = '\r'
  · exact .inl ⟨'r', if_pos hreturn, by rw [hreturn, shortEscape?]⟩
  rw [if_neg hreturn]
  by_cases htab : c = '\t'
  · exact .inl ⟨'t', if_pos htab, by rw [htab, shortEscape?]⟩
  rw [if_neg htab]
  by_cases hback : c.toNat = 8
  · exact .inl ⟨'b', if_pos hback, congrArg some (hnumbered 8 hback)⟩
  rw [if_neg hback]
  by_cases hfeed : c.toNat = 12
  · exact .inl ⟨'f', if_pos hfeed, congrArg some (hnumbered 12 hfeed)⟩
  rw [if_neg hfeed]
  by_cases hcontrol : c.toNat < 32
  · exact .inr (.inl ⟨if_pos hcontrol, hcontrol⟩)
  · exact .inr (.inr ⟨if_neg hcontrol, hquote, hslash, Nat.le_of_not_lt hcontrol⟩)

section Escapes

variable {c letter : Char} (rest : List Char)

theorem stringUnits?_letter (hletter : shortEscape? letter = some c) :
    stringUnits? ('\\' :: letter :: rest) =
      (stringUnits? rest).map fun (units, rest) => (.char c :: units, rest) := by
  have hu : letter ≠ 'u' := by rintro rfl; simp [shortEscape?] at hletter
  rw [stringUnits?, hletter]
  · cases stringUnits? rest <;> rfl
  · rintro _ _ _ _ _ heq
    exact absurd heq hu

theorem stringUnits?_control (hc : c.toNat < 32) :
    stringUnits? (controlEscape c ++ rest) =
      (stringUnits? rest).map fun (units, rest) => (.unit c.toNat :: units, rest) := by
  simp only [controlEscape, List.cons_append, List.nil_append, stringUnits?,
    hexValues?_digitChar hc]
  cases stringUnits? rest <;> rfl

theorem stringUnits?_plain (hquote : c ≠ '"') (hslash : c ≠ '\\') (hc : 32 ≤ c.toNat) :
    stringUnits? (c :: rest) =
      (stringUnits? rest).map fun (units, rest) => (.char c :: units, rest) := by
  have hguard : (guard (32 ≤ c.toNat ∧ c ≠ '\\') : Option Unit) = some () :=
    if_pos ⟨hc, hslash⟩
  rw [stringUnits?]
  · rw [hguard]
    cases stringUnits? rest <;> rfl
  · exact hquote
  · exact fun _ _ _ _ _ h _ => hslash h
  · exact fun _ _ h _ => hslash h

theorem stringUnits?_escapeChar (c : Char) :
    ∃ unit : StringUnit, unit.StandsFor c ∧ stringUnits? (escapeChar c ++ rest) =
      (stringUnits? rest).map fun (units, rest) => (unit :: units, rest) := by
  obtain ⟨letter, hwritten, hletter⟩ | ⟨hwritten, hc⟩ | ⟨hwritten, hquote, hslash, hc⟩ :=
    escapeChar_cases c
  · rw [hwritten]
    exact ⟨.char c, .inl rfl, stringUnits?_letter rest hletter⟩
  · rw [hwritten]
    exact ⟨.unit c.toNat, .inr ⟨rfl, hc⟩, stringUnits?_control rest hc⟩
  · rw [hwritten]
    exact ⟨.char c, .inl rfl, stringUnits?_plain rest hquote hslash hc⟩

end Escapes

/-- What is written of a text is read up to its closing quote and stands for the text. -/
theorem stringUnits?_flatMap_escapeChar (cs rest : List Char) :
    ∃ units, stringUnits? (cs.flatMap escapeChar ++ '"' :: rest) = some (units, rest) ∧
      unitsText? units = some cs := by
  induction cs with
  | nil => exact ⟨[], stringUnits?.eq_2 rest, rfl⟩
  | cons c cs ih =>
      obtain ⟨units, hread, htext⟩ := ih
      obtain ⟨unit, hunit, hescape⟩ :=
        stringUnits?_escapeChar (cs.flatMap escapeChar ++ '"' :: rest) c
      refine ⟨unit :: units, ?_, ?_⟩
      · rw [List.flatMap_cons, List.append_assoc, hescape, hread]
        rfl
      · rw [unitsText?_cons hunit, htext]
        rfl

theorem token?_renderString (text : String) (rest : List Char) :
    token? (renderString text ++ rest) = some (.string (some text), rest) := by
  obtain ⟨units, hread, htext⟩ := stringUnits?_flatMap_escapeChar text.toList rest
  have hshape : renderString text ++ rest =
      '"' :: (text.toList.flatMap escapeChar ++ '"' :: rest) := by simp [renderString]
  have hstring : ∀ characters, token? ('"' :: characters) =
      (stringUnits? characters).map fun (units, rest) =>
        (.string ((unitsText? units).map String.ofList), rest) := fun _ => rfl
  simp only [hshape, hstring, hread, Option.map_some, htext, String.ofList_toList]

end Json

end PageMarkup
