import Mathlib.Data.List.SplitBy

/-! # Longest runs

A property splits a list into the longest runs of elements that have it and the other elements, one
by one. What holds of a list that starts with one of these, if it holds of the rest, holds of every
list.
-/

namespace PageMarkup

variable {α : Type} {p : α → Bool}

/-- The longest runs of elements with a property, and the other elements one by one. -/
def groupsBy (p : α → Bool) (list : List α) : List (List α) :=
  list.splitBy fun first second => p first && p second

theorem groupsBy_cons_of_not {a : α} (ha : p a = false) (rest : List α) :
    groupsBy p (a :: rest) = [a] :: groupsBy p rest := by
  have hone : [a].splitBy (fun first second => p first && p second) = [[a]] := rfl
  rw [groupsBy, ← List.singleton_append, List.splitBy_append (by simp [ha]), hone]
  rfl

theorem groupsBy_run {first : α} {run rest : List α} (hrun : ∀ a ∈ first :: run, p a = true)
    (hrest : ∀ next ∈ rest.head?, p next = false) :
    groupsBy p (first :: run ++ rest) = (first :: run) :: groupsBy p rest := by
  have hone : (first :: run).splitBy (fun first second => p first && p second) = [first :: run] := by
    refine List.splitBy_of_isChain (List.cons_ne_nil _ _) ?_
    refine List.Pairwise.isChain (List.pairwise_of_forall_mem_list fun a ha b hb => ?_)
    rw [hrun a ha, hrun b hb]
    rfl
  rw [groupsBy, List.splitBy_append, hone]
  · rfl
  · intro last _ next hnext
    rw [hrest next hnext, Bool.and_false]

/-- A list is empty, or starts with an element without the property, or with a run of elements
that have it. -/
theorem groupsBy_induction (p : α → Bool) {motive : List α → Prop} (hnil : motive [])
    (hother : ∀ a rest, p a = false → motive rest → motive (a :: rest))
    (hrun : ∀ first run rest, (∀ a ∈ first :: run, p a = true) →
      (∀ next ∈ rest.head?, p next = false) → motive rest → motive (first :: run ++ rest))
    (list : List α) : motive list := by
  induction hlength : list.length using Nat.strongRecOn generalizing list with
  | ind length ih =>
      cases list with
      | nil => exact hnil
      | cons a rest =>
          cases ha : p a with
          | false => exact hother a rest ha (ih _ (hlength ▸ Nat.lt_succ_self _) rest rfl)
          | true =>
              have hshorter : (rest.dropWhile p).length < length := by
                have hle := (List.dropWhile_suffix (l := rest) p).length_le
                rw [List.length_cons] at hlength
                omega
              have hsplit : a :: rest = a :: rest.takeWhile p ++ rest.dropWhile p := by
                rw [List.cons_append, List.takeWhile_append_dropWhile]
              rw [hsplit]
              refine hrun a _ _ ?_ (fun next hnext => ?_) (ih _ hshorter _ rfl)
              · exact List.forall_mem_cons.mpr ⟨ha, List.all_eq_true.mp List.all_takeWhile⟩
              · have hnot := List.head?_dropWhile_not p rest
                rw [Option.mem_def.mp hnext] at hnot
                simpa using hnot

end PageMarkup
