/-!
# Sets of code points

Character properties are kept as ascending lists of closed ranges. A property module holds one such
list and a test on characters.
-/

namespace PageMarkup.Text

/-- A set of code points: closed ranges that ascend and do not touch. -/
abbrev CodePoints := List (Nat × Nat)

/-- Whether a code point lies in one of the ranges. The search ends at the first range that starts
above it. -/
def CodePoints.contains : CodePoints → Nat → Bool
  | [], _ => false
  | (first, last) :: rest, c => first ≤ c && (c ≤ last || CodePoints.contains rest c)

end PageMarkup.Text
