import Mathlib.Data.Prod.Lex
import PageMarkup.Proofs.Line.Locations

/-! # Lines and columns of all offsets

The table of line starts ascends from zero, so each offset, also one past the end, has a last
line start that is not after it. A search of the table by halving finds that start or the
place right behind it, and counting from it takes nothing from less. Two offsets on a line
differ in their columns, and offsets on different lines have a newline between them, so that
lines and columns grow with the offsets.
-/

namespace PageMarkup

namespace Source

/-! ## Ascending tables -/

section Tables

variable {starts before after : List Nat} {offset start : Nat}

/-- What a search of an ascending table may answer: the index of an entry, or the index at which
a missing entry would have to be put in. -/
def Searched (starts : List Nat) (offset : Nat) : Except Nat Nat → Prop
  | .ok index => starts[index]? = some offset
  | .error index => index ≤ starts.length ∧ ∀ position start, starts[position]? = some start →
      if position < index then start < offset else offset < start

/-- An ascending table that starts at zero is cut after the last entry that is not past an
offset. -/
theorem exists_last_start (hascending : starts.Pairwise (· < ·)) (hzero : starts.head? = some 0)
    (offset : Nat) : ∃ before start after, starts = before ++ start :: after ∧ start ≤ offset ∧
      (∀ earlier ∈ before, earlier < start) ∧ ∀ later ∈ after, offset < later := by
  induction starts using List.reverseRecOn with
  | nil => cases hzero
  | append_singleton front last ih =>
      obtain ⟨hfront, -, hlast⟩ := List.pairwise_append.mp hascending
      rcases Nat.lt_or_ge offset last with hlt | hle
      · -- The last entry is past the offset, so it is not the first one.
        obtain ⟨first, rest, rfl⟩ : ∃ first rest, front = first :: rest := by
          cases front with
          | nil =>
              obtain rfl : last = 0 := Option.some.inj hzero
              exact absurd hlt (Nat.not_lt_zero offset)
          | cons first rest => exact ⟨first, rest, rfl⟩
        obtain ⟨before, start, after, hsplit, hstart, hbefore, hafter⟩ := ih hfront hzero
        refine ⟨before, start, after ++ [last], by rw [hsplit]; simp, hstart, hbefore, ?_⟩
        exact List.forall_mem_append.mpr ⟨hafter, List.forall_mem_singleton.mpr hlt⟩
      · exact ⟨front, last, [], rfl, hle,
          fun earlier hearlier => hlast earlier hearlier last (List.mem_singleton_self last), nofun⟩

variable (hstart : start ≤ offset) (hbefore : ∀ earlier ∈ before, earlier < start)
  (hafter : ∀ later ∈ after, offset < later)

include hstart hbefore hafter

/-- The line and the column of an offset count from the last entry that is not past it. -/
theorem lineColumnOn_append :
    lineColumnOn (before ++ start :: after) offset = (before.length + 1, offset - start + 1) := by
  have hpassed : (before ++ start :: after).filter (· ≤ offset) = before ++ [start] := by
    have hkept : before.filter (· ≤ offset) = before :=
      List.filter_eq_self.mpr fun earlier hmem =>
        decide_eq_true (Nat.le_trans (hbefore earlier hmem).le hstart)
    have hdropped : after.filter (· ≤ offset) = [] :=
      List.filter_eq_nil_iff.mpr fun later hmem => by simpa using hafter later hmem
    rw [List.filter_append, List.filter_cons_of_pos (by simpa using hstart), hkept, hdropped]
  rw [lineColumnOn]
  simp only [hpassed, List.length_append, List.length_singleton, List.getLastD_concat]

omit hstart in
theorem entry_cases {index entry : Nat} (hentry : (before ++ start :: after)[index]? = some entry) :
    index < before.length ∧ entry < start ∨ index = before.length ∧ entry = start ∨
      before.length < index ∧ offset < entry := by
  rcases Nat.lt_trichotomy index before.length with hlt | rfl | hgt
  · rw [List.getElem?_append_left hlt] at hentry
    exact .inl ⟨hlt, hbefore entry (List.mem_of_getElem? hentry)⟩
  · rw [List.getElem?_append_right (Nat.le_refl _), Nat.sub_self, List.getElem?_cons_zero] at hentry
    exact .inr (.inl ⟨rfl, (Option.some.inj hentry).symm⟩)
  · obtain ⟨further, hfurther⟩ : ∃ further, index - before.length = further + 1 :=
      ⟨index - before.length - 1, by omega⟩
    rw [List.getElem?_append_right hgt.le, hfurther, List.getElem?_cons_succ] at hentry
    exact .inr (.inr ⟨hgt, hafter entry (List.mem_of_getElem? hentry)⟩)

/-- A search for an offset answers with the index of the last entry that is not past it, or with
the one after that, and so never with zero for a missing entry. -/
theorem searched_append (answer : Except Nat Nat) :
    Searched (before ++ start :: after) offset answer ↔
      answer = if start = offset then .ok before.length else .error (before.length + 1) := by
  have hhere : (before ++ start :: after)[before.length]? = some start := by simp
  cases answer with
  | ok index =>
      rw [Searched]
      constructor
      · intro hindex
        rcases entry_cases hbefore hafter hindex with ⟨-, hlt⟩ | ⟨rfl, heq⟩ | ⟨-, hlt⟩
        · exact absurd hstart (Nat.not_le.mpr hlt)
        · rw [if_pos heq.symm]
        · exact absurd hlt (Nat.lt_irrefl offset)
      · intro hanswer
        split at hanswer
        next heq =>
          obtain rfl := Except.ok.inj hanswer
          rw [hhere, heq]
        next => cases hanswer
  | error index =>
      rw [Searched]
      constructor
      · rintro ⟨hindex, hsides⟩
        have hlast := hsides _ _ hhere
        rw [ite_prop_iff_and] at hlast
        have hlt : before.length < index :=
          Nat.lt_of_not_le fun hle => Nat.not_lt.mpr hstart (hlast.2 (Nat.not_lt.mpr hle))
        rw [if_neg (hlast.1 hlt).ne]
        rcases Nat.lt_or_eq_of_le (Nat.succ_le_of_lt hlt) with hgap | heq
        · -- The entry after the last start is past the offset.
          obtain ⟨next, hnext⟩ : ∃ next, (before ++ start :: after)[before.length + 1]? = some next :=
            ⟨_, List.getElem?_eq_getElem (Nat.lt_of_lt_of_le hgap hindex)⟩
          have hside := hsides _ _ hnext
          rw [if_pos hgap] at hside
          rcases entry_cases hbefore hafter hnext with ⟨hless, -⟩ | ⟨hsame, -⟩ | ⟨-, hpast⟩ <;> omega
        · rw [← heq]
      · intro hanswer
        split at hanswer
        next => cases hanswer
        next hne =>
          obtain rfl := Except.error.inj hanswer
          refine ⟨by simp, fun position entry hentry => ?_⟩
          have hless := Nat.lt_of_le_of_ne hstart hne
          rcases entry_cases hbefore hafter hentry with ⟨hlt, hentry⟩ | ⟨rfl, rfl⟩ | ⟨hlt, hpast⟩
          · rw [if_pos (by omega)]
            omega
          · rwa [if_pos (Nat.lt_succ_self _)]
          · rwa [if_neg (by omega)]

end Tables

/-! ## The table of a source -/

variable {source : Source} {offset start : Nat}

/-- A line starts behind each newline. -/
theorem mem_lineStartsFrom {next : Nat} {clusters : List String} :
    start ∈ lineStartsFrom next clusters ↔
      ∃ index cluster, clusters[index]? = some cluster ∧ isNewline cluster ∧
        start = next + index + 1 := by
  induction clusters generalizing next with
  | nil => simp [lineStartsFrom]
  | cons cluster rest ih =>
      rw [lineStartsFrom, ← Nat.or_exists_add_one]
      simp only [List.getElem?_cons_zero, List.getElem?_cons_succ, Option.some.injEq,
        exists_eq_left', Nat.add_zero, ← Nat.add_assoc, Nat.add_right_comm next _ 1]
      split
      next hnewline => rw [List.mem_cons, ih, hnewline]; simp
      next hnewline => rw [ih]; simp [hnewline]

theorem pairwise_lineStartsFrom (next : Nat) (clusters : List String) :
    (lineStartsFrom next clusters).Pairwise (· < ·) := by
  induction clusters generalizing next with
  | nil => exact .nil
  | cons cluster rest ih =>
      rw [lineStartsFrom]
      split
      next => exact .cons (fun start hmem => lt_of_mem_lineStartsFrom hmem) (ih _)
      next => exact ih _

theorem pairwise_lineStarts (source : Source) : source.lineStarts.Pairwise (· < ·) :=
  .cons (fun _ hmem => lt_of_mem_lineStartsFrom hmem) (pairwise_lineStartsFrom 0 _)

/-- The line of an offset starts at the beginning or right behind a newline, and no newline is
between the start and the offset. -/
structure OnLine (source : Source) (offset start : Nat) : Prop where
  le : start ≤ offset
  begins : start = 0 ∨ ∃ cluster, source.terminated[start - 1]? = some cluster ∧ isNewline cluster
  unbroken : ∀ index cluster, start ≤ index → index < offset →
    source.terminated[index]? = some cluster → ¬ isNewline cluster

/-- The last entry of the table that is not past an offset is where the line of the offset
starts. -/
theorem onLine_of_split {before after : List Nat}
    (hsplit : source.lineStarts = before ++ start :: after) (hstart : start ≤ offset)
    (hbefore : ∀ earlier ∈ before, earlier < start) (hafter : ∀ later ∈ after, offset < later) :
    source.OnLine offset start where
  le := hstart
  begins := by
    have hmem : start ∈ source.lineStarts := by simp [hsplit]
    rcases List.mem_cons.mp hmem with rfl | hmem
    · exact .inl rfl
    · obtain ⟨index, cluster, hcluster, hnewline, rfl⟩ := mem_lineStartsFrom.mp hmem
      refine .inr ⟨cluster, ?_, hnewline⟩
      rwa [Nat.zero_add, Nat.add_sub_cancel, ← Array.getElem?_toList]
  unbroken index cluster hle hlt hcluster hnewline := by
    -- A line would start behind that newline, between the last start and the offset.
    have hmem : index + 1 ∈ source.lineStarts := by
      refine List.mem_cons_of_mem _ (mem_lineStartsFrom.mpr ⟨index, cluster, ?_, hnewline, by omega⟩)
      rwa [Array.getElem?_toList]
    rw [hsplit, List.mem_append, List.mem_cons] at hmem
    rcases hmem with hmem | heq | hmem
    · have := hbefore _ hmem
      omega
    · omega
    · have := hafter _ hmem
      omega

theorem line_eq (source : Source) (offset : Nat) :
    (source.lineColumn offset).1 =
      1 + (source.terminated.toList.take offset).countP isNewline := by
  rw [lineColumn, lineColumnOn, lineStarts, List.filter_cons_of_pos (by simp),
    filter_lineStartsFrom (Nat.zero_le _), List.length_cons, length_lineStartsFrom, Nat.sub_zero,
    Nat.add_comm]

/-- No column is past both the offset and the length of the text with the added newline. -/
theorem OnLine.column_le (hline : source.OnLine offset start) :
    offset - start + 1 ≤ max offset (source.length + 1) := by
  rcases Nat.eq_zero_or_pos start with rfl | hpos
  · rcases Nat.lt_or_ge source.length offset with hlt | hle
    · -- The added newline is before the offset, so that the line is not the first one.
      have hadded : source.terminated[source.length]? = some "\n" := by
        simp [terminated, length]
      exact absurd (by decide) (hline.unbroken _ _ (Nat.zero_le _) hlt hadded)
    · omega
  · omega

/-- Each offset has a line in the table, which any search of the table finds. -/
theorem exists_line (source : Source) (offset : Nat) : ∃ index start,
    source.lineStarts[index]? = some start ∧ source.OnLine offset start ∧
      (∀ answer, Searched source.lineStarts offset answer ↔
        answer = if start = offset then .ok index else .error (index + 1)) ∧
      source.lineColumn offset = (index + 1, offset - start + 1) := by
  obtain ⟨before, start, after, hsplit, hstart, hbefore, hafter⟩ :=
    exists_last_start (pairwise_lineStarts source) rfl offset
  refine ⟨before.length, start, by simp [hsplit],
    onLine_of_split hsplit hstart hbefore hafter, ?_, ?_⟩
  · rw [hsplit]
    exact searched_append hstart hbefore hafter
  · rw [lineColumn, hsplit]
    exact lineColumnOn_append hstart hbefore hafter

/-- Offsets on one line are told apart by their columns, and others by their lines. -/
theorem lineColumn_lt {first second : Nat} (hlt : first < second) :
    Prod.Lex (· < ·) (· < ·) (source.lineColumn first) (source.lineColumn second) := by
  have hline : (source.lineColumn first).1 ≤ (source.lineColumn second).1 := by
    rw [line_eq, line_eq]
    exact Nat.add_le_add_left (List.take_prefix_take_left hlt.le).sublist.countP_le 1
  obtain ⟨index, start, hentry, hon, -, hfirst⟩ := source.exists_line first
  obtain ⟨other, start', hentry', -, -, hsecond⟩ := source.exists_line second
  rw [hfirst, hsecond] at hline ⊢
  rcases Nat.lt_or_eq_of_le hline with hless | heq
  · exact .left _ _ hless
  · obtain rfl : index = other := Nat.succ.inj heq
    obtain rfl : start = start' := Option.some.inj (hentry.symm.trans hentry')
    have hle := hon.le
    exact .right _ (by omega)

/-- Lines and columns are exact. Each offset, also past the end, is on the line that starts at an
entry of the table which is not past the offset, so that nothing is taken from less when the
column is counted from there; a search of the table answers with that entry or, if the offset is
not in the table, with the place behind it, which is not the first. The line is one more than the
number of newlines below the offset, and lines and columns grow with the offset, so that they
tell offsets apart. -/
theorem lineColumn_exact (source : Source) :
    (∀ offset, ∃ index start, source.lineStarts[index]? = some start ∧
      source.OnLine offset start ∧
      (∀ answer, Searched source.lineStarts offset answer ↔
        answer = if start = offset then .ok index else .error (index + 1)) ∧
      source.lineColumn offset =
        (1 + (source.terminated.toList.take offset).countP isNewline, offset - start + 1) ∧
      index + 1 = 1 + (source.terminated.toList.take offset).countP isNewline ∧
      offset - start + 1 ≤ max offset (source.length + 1)) ∧
    (∀ first second, first < second →
      Prod.Lex (· < ·) (· < ·) (source.lineColumn first) (source.lineColumn second)) ∧
    Function.Injective source.lineColumn := by
  refine ⟨fun offset => ?_, fun first second => lineColumn_lt, fun first second heq => ?_⟩
  · obtain ⟨index, start, hentry, hon, hsearched, heq⟩ := source.exists_line offset
    have hline := source.line_eq offset
    rw [heq] at hline
    exact ⟨index, start, hentry, hon, hsearched, by rw [heq, ← hline], hline, hon.column_le⟩
  · rcases Nat.lt_trichotomy first second with hlt | rfl | hlt
    · exact absurd (heq ▸ lineColumn_lt hlt) (irrefl _)
    · rfl
    · exact absurd (heq ▸ lineColumn_lt hlt) (irrefl _)

/-- A line end of two characters is one cluster, and the added newline ends the last line. -/
example : (List.range 11).map (Source.ofText "ab\ncd\r\nef").lineColumn =
    [(1, 1), (1, 2), (1, 3), (2, 1), (2, 2), (2, 3), (3, 1), (3, 2), (3, 3), (4, 1), (4, 2)] := by
  decide +kernel

end Source

end PageMarkup
