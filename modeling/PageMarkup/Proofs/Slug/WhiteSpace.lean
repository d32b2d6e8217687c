import PageMarkup.Note.Basic
import PageMarkup.Proofs.Text.Prepended

/-! # White space in slugs

A slug keeps clusters whole, and it looks at their first characters only. White space that
starts its cluster is left out or written as a hyphen, and lower case has white space just
where the text has. So white space gets into a slug in one way: behind a letter that is
prepended to what follows it.
-/

namespace PageMarkup

namespace Text

/-! ## Lower case -/

theorem lowerCodePoint_cases (runs : List (Nat × Nat × Nat × Nat)) (n : Nat) :
    lowerCodePoint runs n = n ∨ ∃ run ∈ runs, run.1 ≤ n ∧ n ≤ run.2.1 ∧
      lowerCodePoint runs n = run.2.2.2 + (n - run.1) := by
  induction runs with
  | nil => exact .inl rfl
  | cons run rest ih =>
      obtain ⟨first, last, step, small⟩ := run
      rw [lowerCodePoint]
      split
      next hrun =>
        simp only [Bool.and_eq_true, decide_eq_true_eq] at hrun
        exact .inr ⟨_, List.mem_cons_self, hrun.1.1, hrun.1.2, rfl⟩
      next =>
        rcases ih with hsame | ⟨other, hmem, hother⟩
        · exact .inl hsame
        · exact .inr ⟨other, List.mem_cons_of_mem _ hmem, hother⟩

/-- No capital has white space for its small form. -/
theorem lowerRuns_apart : ∀ run ∈ lowerRuns, ∀ range ∈ blankCodePoints,
    run.2.2.2 + (run.2.1 - run.1) < range.1 ∨ range.2 < run.2.2.2 := by
  decide +kernel

/-- What is no code point becomes the null character. -/
theorem toNat_ofNat_of_pos {n : Nat} (hpos : 0 < (Char.ofNat n).toNat) :
    (Char.ofNat n).toNat = n := by
  by_cases hvalid : n.isValidChar
  · have hchar : Char.ofNat n = Char.ofNatAux n hvalid := dif_pos hvalid
    rw [hchar]
    rfl
  · have hnull : Char.ofNat n = '\x00' := dif_neg hvalid
    rw [hnull] at hpos
    cases hpos

theorem isBlank_of_isBlank_lowerCodePoint {c : Char}
    (hblank : isBlank (Char.ofNat (lowerCodePoint lowerRuns c.toNat)) = true) :
    isBlank c = true := by
  rcases lowerCodePoint_cases lowerRuns c.toNat with hsame | ⟨run, hrun, hlow, hhigh, hsmall⟩
  · rwa [hsame, Char.ofNat_toNat] at hblank
  · obtain ⟨range, hrange, hfirst, hlast⟩ := CodePoints.exists_of_contains hblank
    have hpositive : ∀ range ∈ blankCodePoints, 0 < range.1 := by decide
    have hpos := (hpositive range hrange).trans_le hfirst
    rw [toNat_ofNat_of_pos hpos, hsmall] at hfirst hlast
    rcases lowerRuns_apart run hrun range hrange with hlt | hlt <;> omega

/-- Lower case makes no white space. -/
theorem isBlank_of_mem_lowerChar {c small : Char} (hmem : small ∈ lowerChar c)
    (hblank : isBlank small = true) : isBlank c = true := by
  unfold lowerChar at hmem
  split_ifs at hmem with hascii hdotted
  · have hall : ∀ n < 0x80, isBlank (Char.ofNat n).toLower = true →
        isBlank (Char.ofNat n) = true := by decide +kernel
    rw [List.mem_singleton.mp hmem] at hblank
    have hlower := hall c.toNat hascii
    rw [Char.ofNat_toNat] at hlower
    exact hlower hblank
  · have hnone : ∀ d ∈ ['i', Char.ofNat 0x307], isBlank d = false :=
      List.forall_mem_cons.mpr ⟨by decide, List.forall_mem_singleton.mpr (by decide)⟩
    rw [hnone small hmem] at hblank
    cases hblank
  · rw [List.mem_singleton.mp hmem] at hblank
    exact isBlank_of_isBlank_lowerCodePoint hblank

theorem lowerChar_of_isBlank {c : Char} (hblank : isBlank c = true) : lowerChar c = [c] :=
  forall_isBlank (p := fun c => lowerChar c = [c]) (by decide +kernel) hblank

/-- White space behind a run of prepended characters that starts with a letter. -/
def HidesBlank (cluster : List Char) : Prop :=
  ∃ letter others blank marks, cluster = letter :: others ++ blank :: marks ∧
    isAlphanumeric letter = true ∧ (∀ c ∈ letter :: others, IsPrepended c) ∧ isBlank blank = true

end Text

open Text

/-! ## Slugs of clusters -/

/-- Whether the clusters that start with the character are kept as they are. -/
def startsKept (c : Char) : Prop := c = '-' ∨ c = '_' ∨ isAlphanumeric c = true

theorem not_startsKept_of_isBlank {c : Char} (hblank : isBlank c = true) : ¬startsKept c := by
  have hother := forall_isBlank (p := fun c => c ≠ '-' ∧ c ≠ '_' ∧ isAlphanumeric c = false)
    (by decide +kernel) hblank
  rintro (heq | heq | halpha)
  · exact hother.1 heq
  · exact hother.2.1 heq
  · rw [hother.2.2] at halpha
    cases halpha

theorem slugCluster_of_startsKept {c : Char} (hkept : startsKept c) (rest : List Char) :
    slugCluster (c :: rest) = (c :: rest).flatMap lowerChar := by
  have hspace : c ≠ ' ' := by
    rintro rfl
    exact not_startsKept_of_isBlank (by decide) hkept
  rw [slugCluster, if_neg hspace, if_pos (show c = '-' ∨ c = '_' ∨ _ from hkept)]

theorem isAlphanumeric_of_isPrepended {c : Char} (hkept : startsKept c) (hc : IsPrepended c) :
    isAlphanumeric c = true := by
  rcases hkept with rfl | rfl | halpha
  · exact absurd hc (by unfold IsPrepended; decide)
  · exact absurd hc (by unfold IsPrepended; decide)
  · exact halpha

/-- A cluster leaves white space in a slug just if it hides some behind a letter. -/
theorem blank_mem_slugCluster_iff {cluster : List Char} (hchain : cluster.IsChain Joins) :
    (∃ c ∈ slugCluster cluster, isBlank c = true) ↔ HidesBlank cluster := by
  constructor
  · rintro ⟨c, hmem, hblank⟩
    cases cluster with
    | nil => cases hmem
    | cons first rest =>
        by_cases hkept : startsKept first
        · rw [slugCluster_of_startsKept hkept] at hmem
          obtain ⟨blank, hmem, hlower⟩ := List.mem_flatMap.mp hmem
          have hblank := isBlank_of_mem_lowerChar hlower hblank
          -- the first character is kept, so it is no white space
          have hhead : ∀ c ∈ (first :: rest).head?, isBlank c = false := by
            rintro c ⟨⟩
            exact Bool.eq_false_iff.mpr fun hfirst => not_startsKept_of_isBlank hfirst hkept
          obtain ⟨front, blank, marks, hcluster, hfront, hprepended, hblank⟩ :=
            (exists_isBlank_iff hchain hhead).mp ⟨blank, hmem, hblank⟩
          cases front with
          | nil => exact absurd rfl hfront
          | cons letter others =>
              obtain ⟨rfl, rfl⟩ := List.cons.inj hcluster
              exact ⟨first, others, blank, marks, rfl,
                isAlphanumeric_of_isPrepended hkept (hprepended first List.mem_cons_self),
                hprepended, hblank⟩
        · -- a cluster that is not kept leaves a hyphen or nothing
          rw [slugCluster] at hmem
          split_ifs at hmem with hspace hstarts
          · rw [List.mem_singleton.mp hmem] at hblank
            exact absurd hblank (by decide)
          · exact absurd hstarts hkept
          · cases hmem
  · rintro ⟨letter, others, blank, marks, rfl, hletter, -, hblank⟩
    rw [List.cons_append, slugCluster_of_startsKept (.inr (.inr hletter))]
    refine ⟨blank, List.mem_flatMap.mpr ⟨blank, by simp, ?_⟩, hblank⟩
    rw [lowerChar_of_isBlank hblank]
    exact List.mem_singleton_self blank

/-! ## Slugs of texts -/

/-- The text has a cluster that hides white space behind a letter. -/
def Text.HasHiddenBlank (text : String) : Prop :=
  ∃ cluster ∈ clusterLists text.toList, HidesBlank cluster

theorem blank_mem_slugify_iff (text : String) :
    (∃ c ∈ (slugify text).toList, isBlank c = true) ↔ HasHiddenBlank text := by
  rw [slugify, String.toList_ofList]
  constructor
  · rintro ⟨c, hmem, hblank⟩
    obtain ⟨cluster, hcluster, hmem⟩ := List.mem_flatMap.mp hmem
    have hchain := isChain_of_mem_clusterLists hcluster
    exact ⟨cluster, hcluster, (blank_mem_slugCluster_iff hchain).mp ⟨c, hmem, hblank⟩⟩
  · rintro ⟨cluster, hcluster, hhides⟩
    have hchain := isChain_of_mem_clusterLists hcluster
    obtain ⟨c, hmem, hblank⟩ := (blank_mem_slugCluster_iff hchain).mpr hhides
    exact ⟨c, List.mem_flatMap.mpr ⟨cluster, hcluster, hmem⟩, hblank⟩

theorem baseSlug_ne_empty (text : String) : baseSlug text ≠ "" := by
  unfold baseSlug
  dsimp only
  split
  next => decide
  next hsome => simpa using hsome

theorem blank_mem_baseSlug_iff (text : String) :
    (∃ c ∈ (baseSlug text).toList, isBlank c = true) ↔ HasHiddenBlank text := by
  rw [← blank_mem_slugify_iff]
  unfold baseSlug
  dsimp only
  split
  next hempty =>
    rw [String.isEmpty_iff.mp hempty, ← List.any_eq_true, ← List.any_eq_true]
    decide
  next => rfl

namespace Slugger

theorem isBlank_of_mem_toString {number : Nat} {c : Char} (hmem : c ∈ (toString number).toList) :
    isBlank c = false := by
  rw [Nat.toString_eq_repr, Nat.repr_eq_ofList_toDigits, String.toList_ofList] at hmem
  have hdigit := Nat.isDigit_of_mem_toDigits (by omega) (by omega) hmem
  rw [← Bool.not_eq_true]
  intro hblank
  have hnone := forall_isBlank (p := fun c => c.isDigit = false) (by decide) hblank
  rw [hnone] at hdigit
  cases hdigit

/-- A number brings no white space into a slug. -/
theorem blank_mem_suffixed_iff (base : String) (seen : Nat) :
    (∃ c ∈ (suffixed base seen).toList, isBlank c = true) ↔
      ∃ c ∈ base.toList, isBlank c = true := by
  unfold suffixed
  split
  next => rfl
  next =>
    constructor
    · rintro ⟨c, hmem, hblank⟩
      simp only [String.toList_append, List.mem_append] at hmem
      rcases hmem with (hmem | hhyphen) | hnumber
      · exact ⟨c, hmem, hblank⟩
      · obtain rfl : c = '-' := by simpa using hhyphen
        exact absurd hblank (by decide)
      · rw [isBlank_of_mem_toString hnumber] at hblank
        cases hblank
    · rintro ⟨c, hmem, hblank⟩
      refine ⟨c, ?_, hblank⟩
      simp only [String.toList_append, List.mem_append]
      exact .inl (.inl hmem)

theorem suffixed_ne_empty {base : String} (hbase : base ≠ "") (seen : Nat) :
    suffixed base seen ≠ "" := by
  unfold suffixed
  split
  next => exact hbase
  next => simp

/-- Slugs drawn one after the other are never empty, and white space is in those of texts
with hidden white space and in no others. -/
theorem anchors_blank (slugger : Slugger) (texts : List String) :
    List.Forall₂ (fun text slug => slug ≠ "" ∧
        ((∃ c ∈ slug.toList, isBlank c = true) ↔ HasHiddenBlank text))
      texts (Note.anchors slugger texts) := by
  induction texts generalizing slugger with
  | nil => exact .nil
  | cons text rest ih =>
      refine .cons ⟨suffixed_ne_empty (baseSlug_ne_empty text) _, ?_⟩ (ih _)
      exact (blank_mem_suffixed_iff _ _).trans (blank_mem_baseSlug_iff text)

/-- The letter U+0D4E is prepended: the space after it stays in the slug. -/
theorem anchors_prepended_letter :
    Note.anchors {} ["\u0d4e x"] = ["\u0d4e x"] ∧
      ¬∀ slug ∈ Note.anchors {} ["\u0d4e x"], slug ≠ "" ∧
        ∀ c ∈ slug.toList, isBlank c = false := by
  have hslugs : Note.anchors {} ["\u0d4e x"] = ["\u0d4e x"] := by decide +kernel
  refine ⟨hslugs, fun hall => ?_⟩
  rw [hslugs] at hall
  have hspace := (hall _ (List.mem_singleton_self _)).2 ' ' (by decide)
  cases hspace

end Slugger

end PageMarkup
