import PageMarkup.Text.Letter.Lower

/-! # Letters without case

An ASCII capital and its small letter differ in nothing that matters for the lower case of a
text, so texts that differ in ASCII case only have the same lower case.
-/

namespace PageMarkup.Text

theorem toLower_eq_or_capital (c : Char) :
    c.toLower = c ∨ ∃ n < 26, c = Char.ofNat (0x41 + n) := by
  by_cases hcapital : c.val ≥ 'A'.val ∧ c.val ≤ 'Z'.val
  · have hfirst : 0x41 ≤ c.toNat := UInt32.le_iff_toNat_le.mp hcapital.1
    have hlast : c.toNat ≤ 0x5A := UInt32.le_iff_toNat_le.mp hcapital.2
    refine .inr ⟨c.toNat - 0x41, by omega, ?_⟩
    rw [Nat.add_sub_cancel' hfirst, Char.ofNat_toNat]
  · exact .inl (dif_neg hcapital)

/-- What is the same for each ASCII capital and its small letter is so for all characters. -/
theorem toLower_invariant {β : Type} {f : Char → β}
    (hf : ∀ n < 26, f (Char.ofNat (0x41 + n)).toLower = f (Char.ofNat (0x41 + n))) (c : Char) :
    f c.toLower = f c := by
  rcases toLower_eq_or_capital c with h | ⟨n, hn, rfl⟩
  · rw [h]
  · exact hf n hn

theorem isCased_toLower (c : Char) : isCased c.toLower = isCased c :=
  toLower_invariant (by decide +kernel) c

theorem isCaseIgnorable_toLower (c : Char) : isCaseIgnorable c.toLower = isCaseIgnorable c :=
  toLower_invariant (by decide +kernel) c

theorem lowerChar_toLower (c : Char) : lowerChar c.toLower = lowerChar c :=
  toLower_invariant (by decide +kernel) c

theorem beq_capitalSigma_toLower (c : Char) :
    (c.toLower.toNat == 0x3A3) = (c.toNat == 0x3A3) :=
  toLower_invariant (f := fun c => c.toNat == 0x3A3) (by decide +kernel) c

theorem reachesCased_map_toLower (cs : List Char) :
    reachesCased (cs.map Char.toLower) = reachesCased cs := by
  have hignored : isCaseIgnorable ∘ Char.toLower = isCaseIgnorable :=
    funext isCaseIgnorable_toLower
  rw [reachesCased, reachesCased, List.dropWhile_map, hignored]
  cases cs.dropWhile isCaseIgnorable with
  | nil => rfl
  | cons c rest => exact isCased_toLower c

theorem lowerFrom_map_toLower (before cs : List Char) :
    lowerFrom (before.map Char.toLower) (cs.map Char.toLower) = lowerFrom before cs := by
  induction cs generalizing before with
  | nil => rfl
  | cons c rest ih =>
      have hsigma : c.toLower.toNat = 0x3A3 ↔ c.toNat = 0x3A3 := by
        simpa using Bool.eq_iff_iff.mp (beq_capitalSigma_toLower c)
      rw [List.map_cons, lowerFrom, lowerFrom, ← List.map_cons, ih]
      simp only [hsigma, reachesCased_map_toLower, lowerChar_toLower]

/-- ASCII case is of no consequence for the lower case of a text. -/
theorem lower_lowerAscii (s : String) : lower (lowerAscii s) = lower s := by
  rw [lower, lowerAscii, String.toList_ofList]
  exact congrArg String.ofList (lowerFrom_map_toLower [] s.toList)

theorem lower_eq_of_eqIgnoringAsciiCase {s t : String} (heq : eqIgnoringAsciiCase s t = true) :
    lower s = lower t := by
  rw [← lower_lowerAscii s, ← lower_lowerAscii t, eq_of_beq heq]

theorem isDigit_toLower (c : Char) : c.toLower.isDigit = c.isDigit :=
  toLower_invariant (by decide +kernel) c

/-- Texts that differ in ASCII case only have the same digits. -/
theorem exists_isDigit_of_eqIgnoringAsciiCase {s t : String} (heq : eqIgnoringAsciiCase s t = true)
    (hdigit : ∃ c ∈ s.toList, c.isDigit = true) : ∃ c ∈ t.toList, c.isDigit = true := by
  obtain ⟨c, hc, hdigit⟩ := hdigit
  have hlower : s.toList.map Char.toLower = t.toList.map Char.toLower :=
    String.ofList_injective (eq_of_beq heq)
  obtain ⟨d, hd, hsame⟩ := List.mem_map.mp (hlower ▸ List.mem_map_of_mem hc)
  exact ⟨d, hd, by rw [← isDigit_toLower, hsame, isDigit_toLower, hdigit]⟩

end PageMarkup.Text
