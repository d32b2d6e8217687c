import Mathlib.Data.List.Nodup
import PageMarkup.Note.Basic

/-! # When slugs meet

Slugs drawn from one text never meet: the second gets the suffix `-1`, the third `-2`, and
so on. Slugs of different texts meet in one way only. One of them is plain, and it looks
like another one with a suffix. Whether that happens depends on the plain slugs alone.
-/

namespace PageMarkup

/-- Two lists that are equal are cut at their last `a` in the same place. -/
theorem Text.append_cons_inj_of_last {a : Char} {first second front back : List Char}
    (hfront : a ∉ front) (hback : a ∉ back)
    (heq : first ++ a :: front = second ++ a :: back) : first = second ∧ front = back := by
  rcases List.append_eq_append_iff.mp heq with ⟨middle, rfl, htail⟩ | ⟨middle, rfl, htail⟩
  · cases middle with
    | nil => simpa using htail
    | cons head middle =>
        obtain ⟨rfl, hrest⟩ := List.cons_eq_cons.mp htail
        exact absurd (hrest ▸ List.mem_append_right middle List.mem_cons_self) hfront
  · cases middle with
    | nil => simpa [eq_comm] using htail
    | cons head middle =>
        obtain ⟨rfl, hrest⟩ := List.cons_eq_cons.mp htail
        exact absurd (hrest ▸ List.mem_append_right middle List.mem_cons_self) hback

namespace Slugger

theorem hyphen_notMem_toString (seen : Nat) : '-' ∉ (toString seen).toList := by
  intro hmem
  rw [Nat.toString_eq_repr, Nat.repr_eq_ofList_toDigits, String.toList_ofList] at hmem
  have hdigit := Nat.isDigit_of_mem_toDigits (by omega) (by omega) hmem
  cases hdigit

theorem toList_suffixed (base : String) {seen : Nat} (hseen : 0 < seen) :
    (suffixed base seen).toList = base.toList ++ '-' :: (toString seen).toList := by
  rw [suffixed, if_neg (by omega)]
  simp

theorem suffixed_zero (base : String) : suffixed base 0 = base := if_pos rfl

/-- A suffix tells both what it is a suffix of and its number. -/
theorem suffixed_inj {base other : String} {seen count : Nat} (hseen : 0 < seen)
    (hcount : 0 < count) (heq : suffixed base seen = suffixed other count) :
    base = other ∧ seen = count := by
  have hlists := congrArg String.toList heq
  rw [toList_suffixed base hseen, toList_suffixed other hcount] at hlists
  obtain ⟨hbase, hnumber⟩ := Text.append_cons_inj_of_last (hyphen_notMem_toString seen)
    (hyphen_notMem_toString count) hlists
  have hdigits := congrArg (Nat.ofDigitChars 10 · 0) hnumber
  simp only [Nat.toString_eq_ofList_toDigits, String.toList_ofList,
    Nat.ofDigitChars_ten_toDigits] at hdigits
  exact ⟨String.toList_inj.mp hbase, hdigits⟩

/-- Different draws of the same slug: one of them is plain, the other one has a number. -/
theorem seen_of_suffixed_eq {base other : String} {seen count : Nat}
    (hne : (base, seen) ≠ (other, count)) (heq : suffixed base seen = suffixed other count) :
    seen = 0 ∧ 0 < count ∨ count = 0 ∧ 0 < seen := by
  rcases Nat.eq_zero_or_pos seen with rfl | hseen
  · rcases Nat.eq_zero_or_pos count with rfl | hcount
    · rw [suffixed_zero, suffixed_zero] at heq
      exact absurd (congrArg (·, 0) heq) hne
    · exact .inl ⟨rfl, hcount⟩
  · rcases Nat.eq_zero_or_pos count with rfl | hcount
    · exact .inr ⟨rfl, hseen⟩
    · obtain ⟨rfl, rfl⟩ := suffixed_inj hseen hcount heq
      exact absurd rfl hne

/-! ## Draws -/

/-- The plain slugs drawn one after the other, each with the number of times that it was
drawn or reserved before. -/
def draws (taken : List String) : List String → List (String × Nat)
  | [] => []
  | base :: rest => (base, taken.count base) :: draws (base :: taken) rest

theorem anchors_eq_draws (slugger : Slugger) (texts : List String) :
    Note.anchors slugger texts =
      (draws slugger.taken (texts.map baseSlug)).map fun draw => suffixed draw.1 draw.2 := by
  induction texts generalizing slugger with
  | nil => rfl
  | cons text rest ih => simp [Note.anchors, next, draws, ih]

theorem mem_draws {taken bases : List String} {base : String} {seen : Nat} :
    (base, seen) ∈ draws taken bases ↔
      taken.count base ≤ seen ∧ seen < taken.count base + bases.count base := by
  induction bases generalizing taken with
  | nil => simp [draws]
  | cons first rest ih =>
      rw [draws, List.mem_cons, Prod.mk.injEq, ih]
      by_cases hbase : base = first
      · subst hbase
        simp only [true_and, List.count_cons_self]
        omega
      · simp [hbase, List.count_cons_of_ne (Ne.symm hbase)]

theorem nodup_draws (taken bases : List String) : (draws taken bases).Nodup := by
  induction bases generalizing taken with
  | nil => exact List.nodup_nil
  | cons first rest ih =>
      refine List.nodup_cons.mpr ⟨fun hmem => ?_, ih _⟩
      have hfresh := (mem_draws.mp hmem).1
      rw [List.count_cons_self] at hfresh
      omega

/-! ## Clashes -/

/-- One of the plain slugs looks like another one that is drawn again. -/
def Clash (plain : List String) : Prop :=
  ∃ base seen, 0 < seen ∧ seen < plain.count base ∧ suffixed base seen ∈ plain

theorem clash_perm {plain other : List String} (hperm : plain.Perm other) :
    Clash plain ↔ Clash other := by
  refine exists_congr fun base => exists_congr fun seen => ?_
  rw [hperm.count_eq, hperm.mem_iff]

section Drawn

variable {reserved bases : List String} {base other : String} {seen count : Nat}

/-- Slugs that are all different come from plain slugs that do not clash. -/
theorem not_clash_of_nodup (hreserved : reserved.Nodup)
    (hnodup : (reserved ++ (draws reserved bases).map fun draw => suffixed draw.1 draw.2).Nodup) :
    ¬Clash (reserved ++ bases) := by
  rintro ⟨base, seen, hpos, hseen, hmem⟩
  obtain ⟨-, hdrawn, hdisjoint⟩ := List.nodup_append'.mp hnodup
  have hdraw : (base, seen) ∈ draws reserved bases := by
    have honce := List.nodup_iff_count_le_one.mp hreserved base
    rw [List.count_append] at hseen
    rw [mem_draws]
    omega
  have hslug : suffixed base seen ∈ (draws reserved bases).map fun draw =>
      suffixed draw.1 draw.2 := List.mem_map_of_mem hdraw
  by_cases hheld : suffixed base seen ∈ reserved
  · exact hdisjoint hheld hslug
  · -- The plain slug is drawn as it is, and so it is drawn twice.
    have hplain : (suffixed base seen, 0) ∈ draws reserved bases := by
      have hbases := (List.mem_append.mp hmem).resolve_left hheld
      rw [mem_draws, List.count_eq_zero_of_not_mem hheld, Nat.zero_add]
      exact ⟨Nat.le_refl 0, List.count_pos_iff.mpr hbases⟩
    have hsame := List.inj_on_of_nodup_map hdrawn hdraw hplain (suffixed_zero _).symm
    rw [Prod.mk.injEq] at hsame
    omega

theorem mem_of_mem_draws (hdraw : (base, seen) ∈ draws reserved bases) :
    base ∈ reserved ++ bases ∧ seen < (reserved ++ bases).count base := by
  have hcount := (mem_draws.mp hdraw).2
  rw [← List.count_append] at hcount
  exact ⟨List.count_pos_iff.mp (by omega), hcount⟩

variable (hclash : ¬Clash (reserved ++ bases))

include hclash

/-- Where nothing clashes, a plain slug is never one with a suffix. -/
theorem ne_suffixed_of_mem_draws (hother : other ∈ reserved ++ bases)
    (hdraw : (base, seen) ∈ draws reserved bases) (hseen : 0 < seen) :
    other ≠ suffixed base seen := by
  rintro rfl
  exact hclash ⟨base, seen, hseen, (mem_of_mem_draws hdraw).2, hother⟩

theorem eq_of_suffixed_eq (hdraw : (base, seen) ∈ draws reserved bases)
    (hother : (other, count) ∈ draws reserved bases)
    (heq : suffixed base seen = suffixed other count) : (base, seen) = (other, count) := by
  by_contra hne
  rcases seen_of_suffixed_eq hne heq with ⟨rfl, hcount⟩ | ⟨rfl, hseen⟩
  · rw [suffixed_zero] at heq
    exact ne_suffixed_of_mem_draws hclash (mem_of_mem_draws hdraw).1 hother hcount heq
  · rw [suffixed_zero] at heq
    exact ne_suffixed_of_mem_draws hclash (mem_of_mem_draws hother).1 hdraw hseen heq.symm

theorem suffixed_notMem_reserved (hdraw : (base, seen) ∈ draws reserved bases) :
    suffixed base seen ∉ reserved := by
  intro hheld
  rcases Nat.eq_zero_or_pos seen with rfl | hseen
  · rw [suffixed_zero] at hheld
    have hcount := (mem_draws.mp hdraw).1
    have := List.count_pos_iff.mpr hheld
    omega
  · exact ne_suffixed_of_mem_draws hclash (List.mem_append_left _ hheld) hdraw hseen rfl

/-- Plain slugs that do not clash give slugs that are all different. -/
theorem nodup_of_not_clash (hreserved : reserved.Nodup) :
    (reserved ++ (draws reserved bases).map fun draw => suffixed draw.1 draw.2).Nodup := by
  refine List.nodup_append'.mpr ⟨hreserved, (nodup_draws _ _).map_on ?_, ?_⟩
  · intro draw hdraw other hother heq
    exact eq_of_suffixed_eq hclash hdraw hother heq
  · intro slug hheld hslug
    obtain ⟨draw, hdraw, rfl⟩ := List.mem_map.mp hslug
    exact suffixed_notMem_reserved hclash hdraw hheld

end Drawn

/-- The slugs drawn from texts, and those reserved before, are all different unless plain
slugs clash. -/
theorem nodup_anchors_iff {reserved : List String} (hreserved : reserved.Nodup)
    (texts : List String) :
    (reserved ++ Note.anchors ⟨reserved⟩ texts).Nodup ↔
      ¬Clash (reserved ++ texts.map baseSlug) := by
  rw [anchors_eq_draws]
  exact ⟨not_clash_of_nodup hreserved, fun hclash => nodup_of_not_clash hclash hreserved⟩

/-- A reserved slug that ends in no number is never drawn. -/
theorem notMem_anchors {slugger : Slugger} {front back : List Char} {slug : String}
    (hslug : slug.toList = front ++ '-' :: back) (hback : '-' ∉ back)
    (hletter : ∃ c ∈ back, c.isDigit = false) (hheld : slug ∈ slugger.taken)
    (texts : List String) : slug ∉ Note.anchors slugger texts := by
  rw [anchors_eq_draws]
  intro hmem
  obtain ⟨⟨base, seen⟩, hdraw, heq⟩ := List.mem_map.mp hmem
  dsimp only at heq
  rcases Nat.eq_zero_or_pos seen with rfl | hseen
  · rw [suffixed_zero] at heq
    subst heq
    have hcount := (mem_draws.mp hdraw).1
    have := List.count_pos_iff.mpr hheld
    omega
  · rw [← heq, toList_suffixed base hseen] at hslug
    obtain ⟨-, rfl⟩ := Text.append_cons_inj_of_last (hyphen_notMem_toString seen) hback hslug
    obtain ⟨c, hc, hnot⟩ := hletter
    rw [Nat.toString_eq_repr, Nat.repr_eq_ofList_toDigits, String.toList_ofList] at hc
    rw [Nat.isDigit_of_mem_toDigits (by omega) (by omega) hc] at hnot
    cases hnot

/-! ## Meetings -/

/-- A slug with a number from one on after a hyphen. -/
def Numbered (base slug : String) : Prop :=
  ∃ number, 0 < number ∧ slug = base ++ "-" ++ toString number

/-- Of two draws of the same slug, given as the text and the slug, the first is plain and
the second is not: the plain slug of the first text is that of the second with a number. -/
structure Meets (first second : String × String) : Prop where
  plain : first.2 = baseSlug first.1
  numbered : Numbered (baseSlug second.1) (baseSlug first.1)
  notPlain : second.2 ≠ baseSlug second.1

/-- What two draws have to do with each other. -/
structure Apart (first second : String × String) : Prop where
  sameBase : baseSlug first.1 = baseSlug second.1 → first.2 ≠ second.2
  meets : first.2 = second.2 → Meets first second ∨ Meets second first

theorem suffixed_of_pos (base : String) {seen : Nat} (hseen : 0 < seen) :
    suffixed base seen = base ++ "-" ++ toString seen := if_neg (by omega)

theorem numbered_suffixed (base : String) {seen : Nat} (hseen : 0 < seen) :
    Numbered base (suffixed base seen) := ⟨seen, hseen, suffixed_of_pos base hseen⟩

theorem suffixed_ne (base : String) {seen : Nat} (hseen : 0 < seen) :
    suffixed base seen ≠ base := by
  intro heq
  have hlength := congrArg (fun slug => slug.toList.length) heq
  simp [toList_suffixed base hseen] at hlength

theorem taken_foldl_reserve (reserved : List String) (slugger : Slugger) :
    (reserved.foldl reserve slugger).taken = reserved.reverse ++ slugger.taken := by
  induction reserved generalizing slugger with
  | nil => rfl
  | cons slug rest ih => simp [ih, reserve]

/-! ## Calls -/

/-- The texts whose slugs are drawn one after the other, each with the number of times that
its plain slug was drawn or reserved before. -/
def calls (taken : List String) : List String → List (String × Nat)
  | [] => []
  | text :: rest => (text, taken.count (baseSlug text)) :: calls (baseSlug text :: taken) rest

theorem length_calls (taken texts : List String) : (calls taken texts).length = texts.length := by
  induction texts generalizing taken with
  | nil => rfl
  | cons text rest ih => rw [calls, List.length_cons, List.length_cons, ih]

theorem draws_map_baseSlug (taken texts : List String) :
    draws taken (texts.map baseSlug) =
      (calls taken texts).map fun call => (baseSlug call.1, call.2) := by
  induction texts generalizing taken with
  | nil => rfl
  | cons text rest ih => rw [List.map_cons, draws, calls, List.map_cons, ih]

theorem zip_anchors (slugger : Slugger) (texts : List String) :
    texts.zip (Note.anchors slugger texts) = (calls slugger.taken texts).map fun call =>
      (call.1, suffixed (baseSlug call.1) call.2) := by
  induction texts generalizing slugger with
  | nil => rfl
  | cons text rest ih =>
      rw [Note.anchors, calls, List.map_cons, ← ih]
      rfl

/-! ## Two draws -/

theorem suffixed_left_inj {base : String} {seen count : Nat}
    (heq : suffixed base seen = suffixed base count) : seen = count := by
  rcases Nat.eq_zero_or_pos seen with rfl | hseen
  · rcases Nat.eq_zero_or_pos count with rfl | hcount
    · rfl
    · rw [suffixed_zero] at heq
      exact absurd heq.symm (suffixed_ne base hcount)
  · rcases Nat.eq_zero_or_pos count with rfl | hcount
    · rw [suffixed_zero] at heq
      exact absurd heq (suffixed_ne base hseen)
    · exact (suffixed_inj hseen hcount heq).2

theorem meets_of_suffixed_eq {text other : String} {count : Nat} (hcount : 0 < count)
    (heq : baseSlug text = suffixed (baseSlug other) count) :
    Meets (text, baseSlug text) (other, suffixed (baseSlug other) count) := by
  have hnumbered : Numbered (baseSlug other) (baseSlug text) := by
    rw [heq]
    exact numbered_suffixed _ hcount
  constructor
  case plain => dsimp only
  case numbered => exact hnumbered
  case notPlain => exact suffixed_ne _ hcount

theorem apart_of_draws {text other : String} {seen count : Nat}
    (hne : (baseSlug text, seen) ≠ (baseSlug other, count)) :
    Apart (text, suffixed (baseSlug text) seen) (other, suffixed (baseSlug other) count) where
  sameBase := by
    intro hbase heq
    dsimp only at hbase heq
    rw [hbase] at heq hne
    exact hne (congrArg _ (suffixed_left_inj heq))
  meets := by
    intro heq
    dsimp only at heq
    rcases seen_of_suffixed_eq hne heq with ⟨rfl, hcount⟩ | ⟨rfl, hseen⟩
    · rw [suffixed_zero] at heq ⊢
      exact .inl (meets_of_suffixed_eq hcount heq)
    · rw [suffixed_zero] at heq ⊢
      exact .inr (meets_of_suffixed_eq hseen heq.symm)

theorem pairwise_calls (taken texts : List String) :
    (calls taken texts).Pairwise fun first second =>
      (baseSlug first.1, first.2) ≠ (baseSlug second.1, second.2) :=
  List.pairwise_map.mp (draws_map_baseSlug taken texts ▸ nodup_draws taken _)

/-! ## Slugs once some are reserved -/

/-- Drawing gives every text its plain slug or that with a number. A slug that is reserved
is only drawn with a number. Two draws with one plain slug differ, and any two that give
the same slug meet: one of them is plain. -/
theorem anchors_meet (reserved texts : List String) :
    (Note.anchors (reserved.foldl reserve {}) texts).length = texts.length ∧
      (∀ call ∈ texts.zip (Note.anchors (reserved.foldl reserve {}) texts),
        (call.2 = baseSlug call.1 ∨ Numbered (baseSlug call.1) call.2) ∧
          (call.2 ∈ reserved →
            Numbered (baseSlug call.1) call.2 ∧ call.2 ≠ baseSlug call.1)) ∧
      (texts.zip (Note.anchors (reserved.foldl reserve {}) texts)).Pairwise Apart := by
  have htaken : (reserved.foldl reserve {}).taken = reserved.reverse := by
    simp [taken_foldl_reserve]
  rw [zip_anchors, htaken]
  refine ⟨?_, ?_, ?_⟩
  · rw [anchors_eq_draws, draws_map_baseSlug, List.length_map, List.length_map, length_calls]
  · intro call hmem
    obtain ⟨⟨text, seen⟩, hcall, rfl⟩ := List.mem_map.mp hmem
    dsimp only
    rcases Nat.eq_zero_or_pos seen with rfl | hseen
    · rw [suffixed_zero]
      refine ⟨.inl rfl, fun hheld => ?_⟩
      -- a plain slug is drawn only if nothing has reserved it
      have hdraw : (baseSlug text, 0) ∈ draws reserved.reverse (texts.map baseSlug) := by
        rw [draws_map_baseSlug]
        exact List.mem_map.mpr ⟨_, hcall, rfl⟩
      have hfree := (mem_draws.mp hdraw).1
      have hcount := List.count_pos_iff.mpr (List.mem_reverse.mpr hheld)
      omega
    · have hnumbered := numbered_suffixed (baseSlug text) hseen
      exact ⟨.inr hnumbered, fun _ => ⟨hnumbered, suffixed_ne _ hseen⟩⟩
  · exact List.pairwise_map.mpr ((pairwise_calls _ _).imp apart_of_draws)

/-- The second heading gets the number that the third one ends in, and the last one goes
past a reserved slug. -/
theorem anchors_meet_clash :
    Note.anchors (["b-1"].foldl reserve {}) ["a", "a", "a-1", "b", "b"] =
        ["a", "a-1", "a-1", "b", "b-1"] ∧
      Meets ("a-1", "a-1") ("a", "a-1") ∧ Numbered (baseSlug "b") "b-1" := by
  have hslugs : Note.anchors (["b-1"].foldl reserve {}) ["a", "a", "a-1", "b", "b"] =
      ["a", "a-1", "a-1", "b", "b-1"] := by decide +kernel
  obtain ⟨-, hcalls, hpairs⟩ := anchors_meet ["b-1"] ["a", "a", "a-1", "b", "b"]
  rw [hslugs] at hcalls hpairs
  refine ⟨hslugs, ?_, ?_⟩
  · have hapart : Apart ("a", "a-1") ("a-1", "a-1") := by
      simp only [List.zip_cons_cons, List.pairwise_cons] at hpairs
      exact hpairs.2.1 _ (by simp)
    refine (hapart.meets rfl).resolve_left fun hmeets => ?_
    exact absurd hmeets.plain (by decide +kernel)
  · exact ((hcalls ("b", "b-1") (by simp)).2 (by simp)).1

end Slugger

end PageMarkup
