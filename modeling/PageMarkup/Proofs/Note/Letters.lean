import Mathlib.Data.List.Shortlex
import Mathlib.Data.Set.Card
import PageMarkup.Proofs.Note.Ids

/-! # The order of back link letters

The labels of back links are all the words over the alphabet, each of them once, by length
and then alphabetically. A label is one letter behind an earlier label, or behind nothing.
Twenty-six labels have the same label before their last letter, so from one label to the next
either the last letter grows, or what is before it does and the last letter starts again.
-/

namespace PageMarkup

/-- A word is a text of small letters, at least one of them. -/
def IsWord (word : String) : Prop := word ≠ "" ∧ ∀ c ∈ word.toList, 'a' ≤ c ∧ c ≤ 'z'

instance (word : String) : Decidable (IsWord word) :=
  decidable_of_iff (word ≠ "" ∧ (word.toList.all fun c => 'a' ≤ c && c ≤ 'z') = true)
    (by simp [IsWord])

/-- Texts by length and then alphabetically. -/
def Precedes (first second : String) : Prop :=
  List.Shortlex (· < ·) first.toList second.toList

/-- The words that come before a text. -/
def earlierWords (word : String) : Set String := {other | IsWord other ∧ Precedes other word}

/-! ## One letter more -/

section Appending

variable {α : Type} {r : α → α → Prop} {first second : List α}

theorem lex_append (hless : List.Lex r first second) (hlength : first.length = second.length)
    (front back : List α) : List.Lex r (first ++ front) (second ++ back) := by
  induction hless with
  | nil => cases hlength
  | cons _ ih => exact .cons (ih (Nat.succ.inj hlength))
  | rel hless => exact .rel hless

/-- Whatever letter is added at the end of two texts, the order stays that of what is before. -/
theorem shortlex_concat (hless : List.Shortlex r first second) (a b : α) :
    List.Shortlex r (first ++ [a]) (second ++ [b]) := by
  rcases List.shortlex_def.mp hless with hlt | ⟨heq, hlex⟩
  · exact .of_length_lt (by simpa using hlt)
  · exact .of_lex (by simpa using heq) (lex_append hlex heq [a] [b])

end Appending

/-! ## Letters -/

theorem isLetter_iff {c : Char} : 'a' ≤ c ∧ c ≤ 'z' ↔ ∃ position < 26, c = letterAt position := by
  have hcode : 'a' ≤ c ∧ c ≤ 'z' ↔ 97 ≤ c.toNat ∧ c.toNat ≤ 122 := Iff.rfl
  rw [hcode]
  constructor
  · rintro ⟨hfirst, hlast⟩
    refine ⟨c.toNat - 97, by omega, Char.toNat_inj.mp ?_⟩
    rw [toNat_letterAt]
    omega
  · rintro ⟨position, hposition, rfl⟩
    rw [toNat_letterAt]
    omega

theorem letterAt_lt {position other : Nat} (hlt : position % 26 < other % 26) :
    letterAt position < letterAt other := by
  have hcode : letterAt position < letterAt other ↔
    (letterAt position).toNat < (letterAt other).toNat := Iff.rfl
  rw [hcode, toNat_letterAt, toNat_letterAt]
  omega

/-! ## Labels -/

theorem isLetter_of_mem_backwardLetters (index : Nat) :
    ∀ c ∈ backwardLetters index, 'a' ≤ c ∧ c ≤ 'z' := by
  have hletter : ∀ position, 'a' ≤ letterAt position ∧ letterAt position ≤ 'z' := fun position =>
    isLetter_iff.mpr ⟨position % 26, Nat.mod_lt _ (by omega), by simp [letterAt]⟩
  induction index using Nat.strong_induction_on with
  | _ index ih =>
      rcases Nat.lt_or_ge index 26 with hindex | hindex
      · rw [backwardLetters_of_lt hindex]
        exact List.forall_mem_singleton.mpr (hletter index)
      · rw [backwardLetters_of_le hindex]
        exact List.forall_mem_cons.mpr ⟨hletter index, ih _ (by omega)⟩

/-- A later label is longer, or as long and later in the alphabet. -/
theorem shortlex_backwardLetters {first second : Nat} (hlt : first < second) :
    List.Shortlex (· < ·) (backwardLetters first).reverse (backwardLetters second).reverse := by
  induction second using Nat.strong_induction_on generalizing first with
  | _ second ih =>
      rcases Nat.lt_or_ge first 26 with hfirst | hfirst
      · rw [backwardLetters_of_lt hfirst]
        rcases Nat.lt_or_ge second 26 with hsecond | hsecond
        · rw [backwardLetters_of_lt hsecond]
          exact (List.shortlex_singleton_iff _ _).mpr (letterAt_lt (by omega))
        · have hpos := List.length_pos_iff.mpr (backwardLetters_ne_nil (second / 26 - 1))
          rw [backwardLetters_of_le hsecond]
          exact .of_length_lt (by simpa using hpos)
      · rw [backwardLetters_of_le hfirst, backwardLetters_of_le (Nat.le_trans hfirst hlt.le),
          List.reverse_cons, List.reverse_cons]
        rcases Nat.lt_or_eq_of_le (Nat.div_le_div_right (c := 26) hlt.le) with hless | heq
        · exact shortlex_concat (ih (second / 26 - 1) (by omega) (by omega)) _ _
        · rw [heq]
          exact .append_left ((List.shortlex_singleton_iff _ _).mpr (letterAt_lt (by omega))) _

/-- Every word is a label: what is before its last letter is one, or nothing is. -/
theorem exists_backwardLetters {letters : List Char} (hne : letters ≠ [])
    (hletters : ∀ c ∈ letters, 'a' ≤ c ∧ c ≤ 'z') : ∃ index, backwardLetters index = letters := by
  induction letters with
  | nil => exact absurd rfl hne
  | cons c rest ih =>
      obtain ⟨hc, hrest⟩ := List.forall_mem_cons.mp hletters
      obtain ⟨position, hposition, rfl⟩ := isLetter_iff.mp hc
      cases rest with
      | nil => exact ⟨position, backwardLetters_of_lt hposition⟩
      | cons d others =>
          obtain ⟨index, hindex⟩ := ih (List.cons_ne_nil d others) hrest
          refine ⟨26 * (index + 1) + position, ?_⟩
          have hletter : letterAt (26 * (index + 1) + position) = letterAt position := by
            rw [letterAt, letterAt, Nat.mul_add_mod]
          have hbefore : (26 * (index + 1) + position) / 26 - 1 = index := by omega
          rw [backwardLetters_of_le (by omega), hletter, hbefore, hindex]

/-! ## Words -/

theorem isWord_backlinkLetters (index : Nat) : IsWord (backlinkLetters index) := by
  constructor
  · simpa [backlinkLetters] using backwardLetters_ne_nil index
  · simpa [backlinkLetters] using isLetter_of_mem_backwardLetters index

theorem precedes_backlinkLetters {first second : Nat} (hlt : first < second) :
    Precedes (backlinkLetters first) (backlinkLetters second) := by
  rw [Precedes, backlinkLetters, backlinkLetters, String.toList_ofList, String.toList_ofList]
  exact shortlex_backwardLetters hlt

theorem IsWord.exists_index {word : String} (hword : IsWord word) :
    ∃ index, backlinkLetters index = word := by
  have hne : word.toList.reverse ≠ [] := by simpa using hword.1
  obtain ⟨index, hindex⟩ := exists_backwardLetters hne (by simpa using hword.2)
  exact ⟨index, by rw [backlinkLetters, hindex, List.reverse_reverse, String.ofList_toList]⟩

theorem Precedes.asymm {first second : String} (hless : Precedes first second) :
    ¬ Precedes second first := asymm_of (List.Shortlex (· < ·)) hless

theorem precedes_backlinkLetters_iff {first second : Nat} :
    Precedes (backlinkLetters first) (backlinkLetters second) ↔ first < second := by
  refine ⟨fun hless => ?_, precedes_backlinkLetters⟩
  rcases Nat.lt_trichotomy first second with hlt | rfl | hlt
  · exact hlt
  · exact absurd hless hless.asymm
  · exact absurd hless (precedes_backlinkLetters hlt).asymm

/-- Before the label at an index there are just the labels at the indices before. -/
theorem earlierWords_backlinkLetters (index : Nat) :
    earlierWords (backlinkLetters index) = backlinkLetters '' Set.Iio index := by
  ext other
  constructor
  · rintro ⟨hword, hless⟩
    obtain ⟨place, rfl⟩ := hword.exists_index
    exact ⟨place, precedes_backlinkLetters_iff.mp hless, rfl⟩
  · rintro ⟨place, hlt, rfl⟩
    exact ⟨isWord_backlinkLetters place, precedes_backlinkLetters hlt⟩

theorem backlinkLetters_inj {first second : Nat}
    (heq : backlinkLetters first = backlinkLetters second) : first = second :=
  backwardLetters_inj (List.reverse_injective (String.ofList_injective heq))

/-- The label at an index is the word that has as many words before it. -/
theorem ncard_earlierWords_backlinkLetters (index : Nat) :
    (earlierWords (backlinkLetters index)).ncard = index := by
  rw [earlierWords_backlinkLetters,
    Set.ncard_image_of_injective _ fun _ _ heq => backlinkLetters_inj heq, ← Finset.coe_range,
    Set.ncard_coe_finset, Finset.card_range]

/-- The labels list the words in order. Each label is a word over the alphabet, a later label is
longer or as long and later in the alphabet, and a word is the label at one index only, which is
the number of words before it. So the words with fewer than any number of words before them are
the labels at the indices below that number. -/
theorem backlinkLetters_enumerate :
    (∀ index, IsWord (backlinkLetters index)) ∧
    (∀ first second, first < second →
      Precedes (backlinkLetters first) (backlinkLetters second)) ∧
    ∀ word, IsWord word → (earlierWords word).Finite ∧
      ∀ index, backlinkLetters index = word ↔ index = (earlierWords word).ncard := by
  refine ⟨isWord_backlinkLetters, fun first second => precedes_backlinkLetters, ?_⟩
  intro word hword
  obtain ⟨place, rfl⟩ := hword.exists_index
  rw [ncard_earlierWords_backlinkLetters, earlierWords_backlinkLetters]
  refine ⟨?_, fun index => ⟨fun heq => backlinkLetters_inj heq, fun heq => congrArg _ heq⟩⟩
  rw [← Finset.coe_range]
  exact (Finset.range place).finite_toSet.image _

/-- After all the letters come the words of two letters. -/
theorem backlinkLetters_enumerate_aa : IsWord "aa" ∧ (earlierWords "aa").ncard = 26 := by
  have hword : IsWord "aa" := by decide
  refine ⟨hword, ?_⟩
  exact (((backlinkLetters_enumerate.2.2 "aa" hword).2 26).mp (by decide +kernel)).symm

example : [0, 25, 26, 701, 702].map backlinkLetters = ["a", "z", "aa", "zz", "aaa"] := by
  decide +kernel

end PageMarkup
