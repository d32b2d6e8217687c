import Mathlib.Data.List.Basic
import PageMarkup.Slug
import PageMarkup.Source

/-! # Clusters at the ends of lines

A line feed ends every cluster but that of a carriage return right before it, and the
cluster after it begins as if nothing stood before. So a text is cut line by line, and
the cuts are the same whether its lines end with a line feed alone or with a carriage
return before it.
-/

namespace PageMarkup

namespace Text

theorem ite_ne {α : Type} {p : Prop} [Decidable p] {first second other : α}
    (hfirst : first ≠ other) (hsecond : second ≠ other) :
    (if p then first else second) ≠ other := by
  by_cases hp : p <;> simpa only [if_pos, if_neg, hp, not_false_eq_true]

/-- What a line feed or a carriage return leaves behind: nothing but its own class. -/
def Context.bare (last : BreakClass) : Context := ⟨last, .none, .none, false⟩

namespace Context

theorem next_lineFeed (context : Context) : context.next '\n' = bare .lineFeed := by
  have hclass : BreakClass.ofChar '\n' = .lineFeed := by decide
  have hrole : ConjunctRole.ofChar '\n' = .none := by decide
  have hpictograph : isPictograph '\n' = false := by decide
  simp [next, bare, hclass, hrole, hpictograph]

theorem next_carriageReturn (context : Context) : context.next '\r' = bare .carriageReturn := by
  have hclass : BreakClass.ofChar '\r' = .carriageReturn := by decide
  have hrole : ConjunctRole.ofChar '\r' = .none := by decide
  have hpictograph : isPictograph '\r' = false := by decide
  simp [next, bare, hclass, hrole, hpictograph]

/-- Only the class is left behind, and no rule for the next context asks for it. -/
theorem next_bare (last : BreakClass) (c : Char) : (bare last).next c = empty.next c := rfl

theorem joins_after_lineFeed (c : Char) : (bare .lineFeed).joins c = false := by
  have hjoins : BreakClass.joins? .lineFeed (BreakClass.ofChar c) = some false := by
    cases BreakClass.ofChar c <;> rfl
  simp [joins, bare, hjoins]

theorem joins_carriageReturn (context : Context) : context.joins '\r' = false := by
  have hclass : BreakClass.ofChar '\r' = .carriageReturn := by decide
  have hjoins : context.last.joins? .carriageReturn = some false := by
    cases context.last <;> rfl
  simp [joins, hclass, hjoins]

theorem joins_lineFeed (context : Context) :
    context.joins '\n' = (context.last == .carriageReturn) := by
  have hclass : BreakClass.ofChar '\n' = .lineFeed := by decide
  cases hlast : context.last <;> simp [joins, hclass, hlast, BreakClass.joins?]

theorem last_next_ne {c : Char} (hc : c ≠ '\r') (context : Context) :
    (context.next c).last ≠ .carriageReturn := by
  have hcode : c.toNat ≠ 0x0D := fun hcode => hc (Char.toNat_inj.mp hcode)
  change BreakClass.ofChar c ≠ .carriageReturn
  unfold BreakClass.ofChar
  extract_lets n
  rw [if_neg hcode]
  -- every other branch names another class
  repeat' apply ite_ne
  all_goals exact BreakClass.noConfusion

end Context

theorem clustersFrom_bare_lineFeed (current rest : List Char) :
    clustersFrom (.bare .lineFeed) current rest = current.reverse :: clusterLists rest := by
  cases rest with
  | nil => rfl
  | cons c rest => simp [clustersFrom, clusterLists, Context.joins_after_lineFeed, Context.next_bare]

theorem clustersFrom_lineFeed {context : Context} (hlast : context.last ≠ .carriageReturn)
    (current rest : List Char) :
    clustersFrom context current ('\n' :: rest) =
      current.reverse :: ['\n'] :: clusterLists rest := by
  have hjoins : context.joins '\n' = false := by simpa [Context.joins_lineFeed] using hlast
  simp [clustersFrom, hjoins, Context.next_lineFeed, clustersFrom_bare_lineFeed]

theorem clustersFrom_carriageReturn (context : Context) (current rest : List Char) :
    clustersFrom context current ('\r' :: '\n' :: rest) =
      current.reverse :: ['\r', '\n'] :: clusterLists rest := by
  have hjoins : (Context.bare .carriageReturn).joins '\n' = true := by
    simp [Context.joins_lineFeed, Context.bare]
  simp [clustersFrom, Context.joins_carriageReturn, Context.next_carriageReturn, hjoins,
    Context.next_lineFeed, clustersFrom_bare_lineFeed]

/-- A line feed that follows no carriage return is a cluster of its own. -/
theorem clustersFrom_append_lineFeed {context : Context} {before : List Char}
    (hlast : before = [] → context.last ≠ .carriageReturn)
    (hbefore : ∀ c ∈ before.getLast?, c ≠ '\r') (current after : List Char) :
    clustersFrom context current (before ++ '\n' :: after) =
      clustersFrom context current before ++ ['\n'] :: clusterLists after := by
  induction before generalizing context current with
  | nil => simp [clustersFrom_lineFeed (hlast rfl), clustersFrom]
  | cons c rest ih =>
      have hnext : rest = [] → (context.next c).last ≠ .carriageReturn := by
        rintro rfl
        exact Context.last_next_ne (hbefore c (by simp)) context
      have hrest : ∀ d ∈ rest.getLast?, d ≠ '\r' := by
        intro d hd
        apply hbefore
        cases rest with
        | nil => simp at hd
        | cons e rest => simpa [List.getLast?_cons_cons] using hd
      simp only [List.cons_append, clustersFrom]
      split
      · exact ih hnext hrest _
      · rw [ih hnext hrest, List.cons_append]

/-- A carriage return and the line feed after it are one cluster, whatever stands before. -/
theorem clustersFrom_append_crlf (context : Context) (current before after : List Char) :
    clustersFrom context current (before ++ '\r' :: '\n' :: after) =
      clustersFrom context current before ++ ['\r', '\n'] :: clusterLists after := by
  induction before generalizing context current with
  | nil => simp [clustersFrom_carriageReturn, clustersFrom]
  | cons c rest ih =>
      simp only [List.cons_append, clustersFrom]
      split
      · exact ih _ _
      · rw [ih, List.cons_append]

theorem clustersFrom_append_carriageReturn (context : Context) (current before : List Char) :
    clustersFrom context current (before ++ ['\r']) =
      clustersFrom context current before ++ [['\r']] := by
  induction before generalizing context current with
  | nil => simp [clustersFrom, Context.joins_carriageReturn]
  | cons c rest ih =>
      simp only [List.cons_append, clustersFrom]
      split
      · exact ih _ _
      · rw [ih, List.cons_append]

theorem clusterLists_append_lineFeed {before : List Char}
    (hbefore : ∀ c ∈ before.getLast?, c ≠ '\r') (after : List Char) :
    clusterLists (before ++ '\n' :: after) =
      clusterLists before ++ ['\n'] :: clusterLists after := by
  cases before with
  | nil => simp [clusterLists, Context.next_lineFeed, clustersFrom_bare_lineFeed]
  | cons c rest =>
      have hlast : rest = [] → (Context.empty.next c).last ≠ .carriageReturn := by
        rintro rfl
        exact Context.last_next_ne (hbefore c (by simp)) _
      have hrest : ∀ d ∈ rest.getLast?, d ≠ '\r' := by
        intro d hd
        apply hbefore
        cases rest with
        | nil => simp at hd
        | cons e rest => simpa [List.getLast?_cons_cons] using hd
      exact clustersFrom_append_lineFeed hlast hrest _ _

theorem clusterLists_append_crlf (before after : List Char) :
    clusterLists (before ++ '\r' :: '\n' :: after) =
      clusterLists before ++ ['\r', '\n'] :: clusterLists after := by
  cases before with
  | nil =>
      have hjoins : (Context.bare .carriageReturn).joins '\n' = true := by
        simp [Context.joins_lineFeed, Context.bare]
      simp [clusterLists, clustersFrom, Context.next_carriageReturn, hjoins,
        Context.next_lineFeed, clustersFrom_bare_lineFeed]
  | cons c rest => exact clustersFrom_append_crlf _ _ _ _

theorem clusterLists_append_carriageReturn (before : List Char) :
    clusterLists (before ++ ['\r']) = clusterLists before ++ [['\r']] := by
  cases before with
  | nil => simp [clusterLists, clustersFrom]
  | cons c rest => exact clustersFrom_append_carriageReturn _ _ _

/-- What ends a line: a line feed, with or without a carriage return before it. -/
inductive LineEnd : List Char → Prop where
  | lineFeed : LineEnd ['\n']
  | both : LineEnd ['\r', '\n']

/-- A text is cut at each of its line feeds. A carriage return before the line feed goes with it
and leaves the line. -/
theorem clusterLists_line (before : List Char) :
    ∃ line ending, LineEnd ending ∧
      (∀ after, clusterLists (before ++ '\n' :: after) = line ++ ending :: clusterLists after) ∧
      (clusterLists before = line ∨ clusterLists before = line ++ [['\r']]) := by
  by_cases hbefore : before.getLast? = some '\r'
  · obtain ⟨front, rfl⟩ := List.getLast?_eq_some_iff.mp hbefore
    refine ⟨clusterLists front, _, .both, fun after => ?_,
      Or.inr (clusterLists_append_carriageReturn front)⟩
    simpa using clusterLists_append_crlf front after
  · refine ⟨clusterLists before, _, .lineFeed, clusterLists_append_lineFeed ?_, Or.inl rfl⟩
    rintro c hc rfl
    exact hbefore hc

end Text

namespace Source

/-- The clusters of a text, line by line. -/
theorem clusters_line (before : String) :
    ∃ line ending, isNewline ending = true ∧
      (∀ after, Text.clusters (before ++ "\n" ++ after) = line ++ ending :: Text.clusters after) ∧
      (Text.clusters before = line ∨ Text.clusters before = line ++ ["\r"]) := by
  obtain ⟨line, ending, hending, hafter, hbefore⟩ := Text.clusterLists_line before.toList
  refine ⟨line.map String.ofList, String.ofList ending, ?_, fun after => ?_, ?_⟩
  · cases hending <;> simp [isNewline]
  · simp [Text.clusters, hafter]
  · rcases hbefore with hbefore | hbefore <;> simp [Text.clusters, hbefore]

end Source

end PageMarkup
