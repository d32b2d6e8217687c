import Mathlib.Data.List.Induction
import PageMarkup.Source

/-! # Lines and columns

The line of an offset is one more than the number of newlines before it, and its column is one
more than the number of clusters since the last of them. The table of line starts says the
same, and it is enough to look at the starts up to the offset.
-/

namespace PageMarkup

namespace Source

/-- The clusters after the last newline of a list. -/
def sinceNewline (clusters : List String) : List String :=
  (clusters.reverse.takeWhile (!isNewline ·)).reverse

theorem length_lineStartsFrom (next : Nat) (clusters : List String) :
    (lineStartsFrom next clusters).length = clusters.countP isNewline := by
  induction clusters generalizing next with
  | nil => rfl
  | cons cluster rest ih =>
      rw [lineStartsFrom, List.countP_cons]
      split
      next => rw [List.length_cons, ih]
      next => rw [ih, Nat.add_zero]

theorem lt_of_mem_lineStartsFrom {next start : Nat} {clusters : List String}
    (hmem : start ∈ lineStartsFrom next clusters) : next < start := by
  induction clusters generalizing next with
  | nil => cases hmem
  | cons cluster rest ih =>
      rw [lineStartsFrom] at hmem
      split at hmem
      next =>
        rcases List.mem_cons.mp hmem with rfl | hmem
        · exact Nat.lt_succ_self next
        · exact Nat.lt_of_succ_lt (ih hmem)
      next => exact Nat.lt_of_succ_lt (ih hmem)

/-- The lines that start up to an offset are those that end before it. -/
theorem filter_lineStartsFrom {next offset : Nat} (hnext : next ≤ offset)
    (clusters : List String) :
    (lineStartsFrom next clusters).filter (· ≤ offset) =
      lineStartsFrom next (clusters.take (offset - next)) := by
  induction clusters generalizing next with
  | nil => rw [List.take_nil]; rfl
  | cons cluster rest ih =>
      rcases Nat.eq_or_lt_of_le hnext with rfl | hlt
      · rw [Nat.sub_self, List.take_zero]
        refine List.filter_eq_nil_iff.mpr fun start hmem => ?_
        simpa using lt_of_mem_lineStartsFrom hmem
      · have htake : offset - next = (offset - (next + 1)) + 1 := by omega
        rw [htake, List.take_succ_cons, lineStartsFrom, lineStartsFrom, ← ih hlt]
        split
        next => rw [List.filter_cons_of_pos (by simpa using Nat.succ_le_of_lt hlt)]
        next => rfl

theorem lineStartsFrom_append (next : Nat) (first second : List String) :
    lineStartsFrom next (first ++ second) =
      lineStartsFrom next first ++ lineStartsFrom (next + first.length) second := by
  induction first generalizing next with
  | nil => rfl
  | cons cluster rest ih =>
      rw [List.cons_append, lineStartsFrom, lineStartsFrom, ih, List.length_cons,
        Nat.add_right_comm, Nat.add_assoc]
      split <;> rfl

/-- From the start of the last line on there is no newline. -/
theorem last_lineStart (next : Nat) (clusters : List String) :
    (next :: lineStartsFrom next clusters).getLastD 0 + (sinceNewline clusters).length =
      next + clusters.length := by
  induction clusters using List.reverseRecOn with
  | nil => rfl
  | append_singleton before last ih =>
      rw [lineStartsFrom_append, lineStartsFrom, lineStartsFrom, sinceNewline,
        List.reverse_append, List.reverse_singleton, List.singleton_append,
        List.takeWhile_cons, List.length_append, List.length_singleton]
      cases hlast : isNewline last with
      | true =>
          have hstart :
              (next :: (lineStartsFrom next before ++ [next + before.length + 1])).getLastD 0 =
                next + before.length + 1 := by
            rw [← List.cons_append, List.getLastD_concat]
          simpa [← Nat.add_assoc] using hstart
      | false =>
          simp only [sinceNewline, List.length_reverse] at ih ⊢
          simp only [Bool.false_eq_true, if_false, List.append_nil, Bool.not_false, if_true,
            List.length_cons]
          omega

/-- Where an offset of a source is. -/
theorem location_eq (source : Source) (file : Option String) {offset : Nat}
    (hoffset : offset ≤ source.length) :
    source.location file offset =
      { file
        offset
        line := 1 + (source.clusters.toList.take offset).countP isNewline
        column := 1 + (sinceNewline (source.clusters.toList.take offset)).length } := by
  have htake : source.terminated.toList.take offset = source.clusters.toList.take offset := by
    rw [terminated, Array.toList_push, List.take_append_of_le_length hoffset]
  have hpassed : source.lineStarts.filter (· ≤ offset) =
      0 :: lineStartsFrom 0 (source.clusters.toList.take offset) := by
    rw [lineStarts, List.filter_cons_of_pos (by simp), filter_lineStartsFrom (Nat.zero_le _),
      Nat.sub_zero, htake]
  have hlast := last_lineStart 0 (source.clusters.toList.take offset)
  have hlength : (source.clusters.toList.take offset).length = offset :=
    List.length_take_of_le hoffset
  rw [location, locationOn, lineColumnOn]
  simp only [hpassed, List.length_cons, length_lineStartsFrom, Location.mk.injEq, true_and]
  omega

end Source

end PageMarkup
