import PageMarkup.Text.Cluster.Break
import PageMarkup.Text.Cluster.Conjunct

/-!
# Clusters

A cluster is what a reader takes for one character: a base with its marks, a Korean syllable, a
joined sequence of pictographs, a flag, a carriage return with its line feed. Texts are cut into
extended clusters; offsets, spans and slugs all count in clusters.

A text is passed once from left to right. `Context` holds what the rules ask about the characters
already passed, and `Context.joins` says whether the next character goes on the current cluster.
-/

namespace PageMarkup.Text

/-- How far the characters passed last are a pictograph that a joiner may prolong. -/
inductive PictographState where
  | none
  /-- A pictograph and extending characters only. -/
  | seen
  /-- The same and a zero width joiner. -/
  | joined
  deriving DecidableEq, Repr

/-- How far the characters passed last are the beginning of a conjunct. -/
inductive ConjunctState where
  | none
  /-- A consonant and extending signs only. -/
  | started
  /-- A consonant and signs with a linker among them. -/
  | linked
  deriving DecidableEq, Repr

/-- What the cluster rules ask about the characters already passed. -/
structure Context where
  /-- Class of the last character. -/
  last : BreakClass
  /-- State of a sequence of pictographs. -/
  pictograph : PictographState
  /-- State of a conjunct. -/
  conjunct : ConjunctState
  /-- Whether an odd number of regional indicators was passed last, so that another completes a
  flag. -/
  openFlag : Bool
  deriving DecidableEq, Repr

/-- The context before the first character of a text. -/
def Context.empty : Context := ⟨.other, .none, .none, false⟩

/-- The context after one more character. -/
def Context.next (context : Context) (c : Char) : Context :=
  let kind := BreakClass.ofChar c
  { last := kind
    pictograph :=
      if isPictograph c then .seen
      else if context.pictograph = .seen ∧ kind = .extend then .seen
      else if context.pictograph = .seen ∧ kind = .joiner then .joined
      else .none
    conjunct :=
      match ConjunctRole.ofChar c with
      | .consonant => .started
      | .linker => if context.conjunct = .none then .none else .linked
      | .extend => context.conjunct
      | .none => .none
    openFlag := kind = .regionalIndicator ∧ ¬ context.openFlag }

/-- Whether two neighbouring classes stay together whatever stands before them. `none` leaves the
decision to the rules for conjuncts, pictographs and flags. -/
def BreakClass.joins? : BreakClass → BreakClass → Option Bool
  | .carriageReturn, .lineFeed => some true
  | .carriageReturn, _ | .lineFeed, _ | .control, _ => some false
  | _, .carriageReturn | _, .lineFeed | _, .control => some false
  | .leadingJamo, .leadingJamo | .leadingJamo, .vowelJamo => some true
  | .leadingJamo, .openSyllable | .leadingJamo, .closedSyllable => some true
  | .openSyllable, .vowelJamo | .openSyllable, .trailingJamo => some true
  | .vowelJamo, .vowelJamo | .vowelJamo, .trailingJamo => some true
  | .closedSyllable, .trailingJamo | .trailingJamo, .trailingJamo => some true
  | _, .extend | _, .joiner | _, .spacingMark => some true
  | .prepend, _ => some true
  | _, _ => none

/-- Whether the character goes on the cluster of the characters already passed. -/
def Context.joins (context : Context) (c : Char) : Bool :=
  let kind := BreakClass.ofChar c
  match context.last.joins? kind with
  | some together => together
  | none =>
    (context.conjunct = .linked ∧ ConjunctRole.ofChar c = .consonant)
      || (context.pictograph = .joined && isPictograph c)
      || (context.openFlag && kind = .regionalIndicator)

/-- Clusters of the cluster begun by `current`, last character first, and the characters after. -/
def clustersFrom (context : Context) (current : List Char) : List Char → List (List Char)
  | [] => [current.reverse]
  | c :: rest =>
    if context.joins c then clustersFrom (context.next c) (c :: current) rest
    else current.reverse :: clustersFrom (context.next c) [c] rest

/-- Clusters of a list of characters. -/
def clusterLists : List Char → List (List Char)
  | [] => []
  | c :: rest => clustersFrom (Context.empty.next c) [c] rest

/-- Clusters of a text, in order. -/
def clusters (s : String) : List String := (clusterLists s.toList).map String.ofList

theorem clustersFrom_flatten (context : Context) (current cs : List Char) :
    (clustersFrom context current cs).flatten = current.reverse ++ cs := by
  induction cs generalizing context current with
  | nil => simp [clustersFrom]
  | cons c rest ih =>
    rw [clustersFrom]
    split <;> simp [ih]

/-- Cutting into clusters loses nothing. -/
theorem clusterLists_flatten (cs : List Char) : (clusterLists cs).flatten = cs := by
  cases cs with
  | nil => rfl
  | cons c rest => simp [clusterLists, clustersFrom_flatten]

end PageMarkup.Text
