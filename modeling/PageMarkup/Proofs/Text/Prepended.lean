import Mathlib.Data.List.Chain
import PageMarkup.Proofs.Line.Clusters
import PageMarkup.Text.Blank

/-! # White space inside clusters

A cluster is cut before every white space, whatever stands before it, with two exceptions: a
line feed goes on the carriage return before it, and prepended characters attach to whatever
follows them. So white space that does not start its cluster follows a carriage return, or
a run of prepended characters that starts the cluster.
-/

namespace PageMarkup.Text

/-! ## Sets of code points -/

namespace CodePoints

theorem exists_of_contains {points : CodePoints} {n : Nat} (hn : points.contains n = true) :
    ∃ range ∈ points, range.1 ≤ n ∧ n ≤ range.2 := by
  induction points with
  | nil => cases hn
  | cons range rest ih =>
      simp only [contains, Bool.and_eq_true, Bool.or_eq_true, decide_eq_true_eq] at hn
      obtain ⟨hfirst, hlast | hrest⟩ := hn
      · exact ⟨range, List.mem_cons_self, hfirst, hlast⟩
      · obtain ⟨other, hmem, hother⟩ := ih hrest
        exact ⟨other, List.mem_cons_of_mem _ hmem, hother⟩

/-- No range of the one meets a range of the other. -/
def Apart (first second : CodePoints) : Prop :=
  ∀ range ∈ first, ∀ other ∈ second, range.2 < other.1 ∨ other.2 < range.1

instance (first second : CodePoints) : Decidable (Apart first second) :=
  inferInstanceAs (Decidable (∀ range ∈ first, ∀ other ∈ second, _))

theorem Apart.contains_eq_false {first second : CodePoints} (hapart : Apart first second)
    {n : Nat} (hfirst : first.contains n = true) : second.contains n = false := by
  rw [← Bool.not_eq_true]
  intro hsecond
  obtain ⟨range, hrange, hlow, hhigh⟩ := exists_of_contains hfirst
  obtain ⟨other, hother, hlow', hhigh'⟩ := exists_of_contains hsecond
  rcases hapart range hrange other hother with hlt | hlt <;> omega

end CodePoints

/-- What holds of the few characters that are white space. -/
theorem forall_isBlank {p : Char → Prop}
    (hp : ∀ range ∈ blankCodePoints, ∀ n ∈ List.range' range.1 (range.2 + 1 - range.1),
      p (Char.ofNat n)) {c : Char} (hc : isBlank c = true) : p c := by
  obtain ⟨range, hrange, hlow, hhigh⟩ := CodePoints.exists_of_contains hc
  have hmem : c.toNat ∈ List.range' range.1 (range.2 + 1 - range.1) := by
    rw [List.mem_range'_1]
    omega
  exact Char.ofNat_toNat c ▸ hp range hrange c.toNat hmem

/-! ## Neighbours in a cluster -/

/-- A cluster may go on from the first character to the second. -/
def Joins (first second : Char) : Prop :=
  ∃ context : Context, context.last = BreakClass.ofChar first ∧ context.joins second = true

theorem isChain_clustersFrom {context : Context} {current : List Char}
    (hlast : ∀ c ∈ current.head?, context.last = BreakClass.ofChar c)
    (hcurrent : current.reverse.IsChain Joins) {cs cluster : List Char}
    (hmem : cluster ∈ clustersFrom context current cs) : cluster.IsChain Joins := by
  induction cs generalizing context current with
  | nil =>
      rw [clustersFrom, List.mem_singleton] at hmem
      exact hmem ▸ hcurrent
  | cons c rest ih =>
      have hnext : ∀ others : List Char, ∀ d ∈ (c :: others).head?,
          (context.next c).last = BreakClass.ofChar d := by
        rintro others d ⟨⟩
        rfl
      rw [clustersFrom] at hmem
      split at hmem
      next hjoins =>
        refine ih (hnext current) ?_ hmem
        rw [List.reverse_cons]
        refine hcurrent.append (.singleton c) ?_
        intro before hbefore after hafter
        obtain rfl : c = after := by simpa using hafter
        rw [List.getLast?_reverse] at hbefore
        exact ⟨context, hlast before hbefore, hjoins⟩
      next =>
        rcases List.mem_cons.mp hmem with rfl | hmem
        · exact hcurrent
        · exact ih (hnext []) (.singleton c) hmem

/-- Each character of a cluster is one that the cluster may go on to. -/
theorem isChain_of_mem_clusterLists {cs cluster : List Char} (hmem : cluster ∈ clusterLists cs) :
    cluster.IsChain Joins := by
  cases cs with
  | nil => cases hmem
  | cons c rest =>
      have hone : [c].reverse.IsChain Joins := .singleton c
      refine isChain_clustersFrom ?_ hone hmem
      rintro d ⟨⟩
      rfl

/-! ## Prepended characters -/

/-- The character attaches to what follows it. -/
def IsPrepended (c : Char) : Prop := BreakClass.ofChar c = .prepend

theorem IsPrepended.contains {c : Char} (hc : IsPrepended c) :
    prependCodePoints.contains c.toNat = true := by
  by_contra hnot
  rw [Bool.not_eq_true] at hnot
  refine absurd hc ?_
  unfold IsPrepended BreakClass.ofChar
  extract_lets n
  rw [show prependCodePoints.contains n = false from hnot, if_neg Bool.false_ne_true]
  -- every other branch names another class
  repeat' apply ite_ne
  all_goals exact BreakClass.noConfusion

theorem joins?_eq_none {first second : BreakClass} (hfirst : first ≠ .prepend)
    (hsecond : second = .prepend ∨ second = .other) (hjoins : first.joins? second ≠ some false) :
    first.joins? second = none := by
  rcases hsecond with rfl | rfl <;> cases first <;> first | rfl | contradiction

/-- What starts a cluster in every other place goes on a prepended character only. -/
theorem isPrepended_of_joins {first second : Char} (hjoins : Joins first second)
    (hsecond : BreakClass.ofChar second = .prepend ∨ BreakClass.ofChar second = .other)
    (hrole : ConjunctRole.ofChar second ≠ .consonant) (hpictograph : isPictograph second = false) :
    IsPrepended first := by
  obtain ⟨context, hlast, hjoins⟩ := hjoins
  by_contra hfirst
  have hregional : BreakClass.ofChar second ≠ .regionalIndicator := by
    rcases hsecond with hclass | hclass <;> rw [hclass] <;> decide
  unfold Context.joins at hjoins
  dsimp only at hjoins
  rw [hlast] at hjoins
  split at hjoins
  next together hsome =>
    rw [joins?_eq_none hfirst hsecond (by rw [hsome, hjoins]; decide)] at hsome
    cases hsome
  next => simp [hrole, hpictograph, hregional] at hjoins

theorem isPrepended_of_joins_prepended {first second : Char} (hjoins : Joins first second)
    (hsecond : IsPrepended second) : IsPrepended first := by
  have hconsonants : CodePoints.Apart prependCodePoints conjunctConsonantCodePoints := by
    decide +kernel
  have hpictographs : CodePoints.Apart prependCodePoints pictographCodePoints := by
    decide +kernel
  have hnone := hconsonants.contains_eq_false hsecond.contains
  refine isPrepended_of_joins hjoins (.inl hsecond) ?_
    (hpictographs.contains_eq_false hsecond.contains)
  simp only [ConjunctRole.ofChar, hnone]
  split_ifs <;> simp_all

/-- Prepended characters stand at the start of their cluster. -/
theorem isPrepended_before {front back : List Char} {c : Char}
    (hchain : (front ++ c :: back).IsChain Joins) (hc : IsPrepended c) :
    ∀ d ∈ front, IsPrepended d := by
  induction front with
  | nil => exact List.forall_mem_nil _
  | cons first rest ih =>
      have hrest := ih hchain.tail
      refine List.forall_mem_cons.mpr ⟨?_, hrest⟩
      cases rest with
      | nil => exact isPrepended_of_joins_prepended hchain.rel hc
      | cons next rest =>
          exact isPrepended_of_joins_prepended hchain.rel (hrest next List.mem_cons_self)

/-! ## White space -/

theorem not_joins_carriageReturn (c : Char) : ¬Joins c '\r' := by
  rintro ⟨context, -, hjoins⟩
  rw [Context.joins_carriageReturn] at hjoins
  cases hjoins

theorem not_joins_control {first second : Char} (hsecond : BreakClass.ofChar second = .control) :
    ¬Joins first second := by
  rintro ⟨context, -, hjoins⟩
  have hapart : context.last.joins? .control = some false := by cases context.last <;> rfl
  simp [Context.joins, hsecond, hapart] at hjoins

theorem eq_carriageReturn_of_joins_lineFeed {c : Char} (hjoins : Joins c '\n') : c = '\r' := by
  obtain ⟨context, hlast, hjoins⟩ := hjoins
  rw [Context.joins_lineFeed, beq_iff_eq, hlast] at hjoins
  by_contra hc
  exact Context.last_next_ne hc context hjoins

/-- White space goes on a prepended character, and a line feed on a carriage return. -/
theorem isPrepended_of_joins_blank {first blank : Char} (hjoins : Joins first blank)
    (hblank : isBlank blank = true) : IsPrepended first ∨ first = '\r' := by
  have hclass := forall_isBlank (p := fun c => c = '\r' ∨ c = '\n' ∨
    BreakClass.ofChar c = .control ∨ BreakClass.ofChar c = .other ∧
      ConjunctRole.ofChar c ≠ .consonant ∧ isPictograph c = false) (by decide +kernel) hblank
  rcases hclass with rfl | rfl | hcontrol | ⟨hother, hrole, hpictograph⟩
  · exact absurd hjoins (not_joins_carriageReturn first)
  · exact .inr (eq_carriageReturn_of_joins_lineFeed hjoins)
  · exact absurd hjoins (not_joins_control hcontrol)
  · exact .inl (isPrepended_of_joins hjoins (.inr hother) hrole hpictograph)

/-- White space that a cluster does not start with follows a run of prepended characters,
unless the cluster starts with a carriage return. -/
theorem prepended_of_isBlank {first : Char} {rest : List Char}
    (hchain : (first :: rest).IsChain Joins) (hfirst : first ≠ '\r') {blank : Char}
    (hmem : blank ∈ rest) (hblank : isBlank blank = true) :
    ∃ before marks, rest = before ++ blank :: marks ∧
      ∀ c ∈ first :: before, IsPrepended c := by
  obtain ⟨before, marks, rfl⟩ := List.append_of_mem hmem
  refine ⟨before, marks, rfl, ?_⟩
  rw [← List.cons_append] at hchain
  rcases List.eq_nil_or_concat' (first :: before) with hnil | ⟨front, last, hlast⟩
  · cases hnil
  · rw [hlast, List.append_assoc, List.singleton_append] at hchain
    have hjoins := (List.isChain_append_cons_cons.mp hchain).2.1
    rcases isPrepended_of_joins_blank hjoins hblank with hprepended | rfl
    · rw [hlast]
      refine List.forall_mem_append.mpr ⟨isPrepended_before hchain hprepended, ?_⟩
      exact List.forall_mem_singleton.mpr hprepended
    · -- nothing goes on to a carriage return, so the cluster starts with it
      rcases List.eq_nil_or_concat' front with rfl | ⟨earlier, other, rfl⟩
      · exact absurd (List.cons_eq_cons.mp hlast).1 hfirst
      · rw [List.append_assoc, List.singleton_append] at hchain
        exact absurd (List.isChain_append_cons_cons.mp hchain).2.1 (not_joins_carriageReturn other)

/-- A line feed starts its cluster or follows the carriage return that does. -/
theorem isBlank_head_of_lineFeed {cluster : List Char} (hchain : cluster.IsChain Joins)
    (hmem : '\n' ∈ cluster) : ∃ c ∈ cluster.head?, isBlank c = true := by
  obtain ⟨front, back, rfl⟩ := List.append_of_mem hmem
  rcases List.eq_nil_or_concat' front with rfl | ⟨earlier, last, rfl⟩
  · exact ⟨'\n', rfl, by decide⟩
  · rw [List.append_assoc, List.singleton_append] at hchain
    obtain rfl := eq_carriageReturn_of_joins_lineFeed (List.isChain_append_cons_cons.mp hchain).2.1
    -- nothing goes on to the carriage return
    rcases List.eq_nil_or_concat' earlier with rfl | ⟨before, other, rfl⟩
    · exact ⟨'\r', rfl, by decide⟩
    · rw [List.append_assoc, List.singleton_append] at hchain
      exact absurd (List.isChain_append_cons_cons.mp hchain).2.1 (not_joins_carriageReturn other)

/-- White space attached to the prepended characters that start the cluster. -/
def AttachesBlank (cluster : List Char) : Prop :=
  ∃ front blank marks, cluster = front ++ blank :: marks ∧ front ≠ [] ∧
    (∀ c ∈ front, IsPrepended c) ∧ isBlank blank = true

/-- A cluster that does not start with white space has it just if it attaches some. -/
theorem exists_isBlank_iff {cluster : List Char} (hchain : cluster.IsChain Joins)
    (hhead : ∀ c ∈ cluster.head?, isBlank c = false) :
    (∃ c ∈ cluster, isBlank c = true) ↔ AttachesBlank cluster := by
  constructor
  · rintro ⟨blank, hmem, hblank⟩
    cases cluster with
    | nil => cases hmem
    | cons first rest =>
        have hfirst := hhead first rfl
        have hreturn : first ≠ '\r' := by
          rintro rfl
          exact absurd hfirst (by decide)
        have hrest : blank ∈ rest := by
          refine (List.mem_cons.mp hmem).resolve_left ?_
          rintro rfl
          rw [hfirst] at hblank
          cases hblank
        obtain ⟨before, marks, rfl, hprepended⟩ := prepended_of_isBlank hchain hreturn hrest hblank
        exact ⟨first :: before, blank, marks, rfl, List.cons_ne_nil _ _, hprepended, hblank⟩
  · rintro ⟨front, blank, marks, rfl, -, -, hblank⟩
    exact ⟨blank, List.mem_append_right _ List.mem_cons_self, hblank⟩

end PageMarkup.Text
