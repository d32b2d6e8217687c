/-!
# Spans

A span is a half-open range of cluster offsets. Synthesized nodes cover the empty span at the
start.
-/

namespace PageMarkup

/-- The clusters from `start` up to, not including, `stop`. -/
structure Span where
  start : Nat := 0
  stop : Nat := 0
  deriving DecidableEq, Repr, Inhabited

namespace Span

/-- Number of clusters covered. -/
def length (span : Span) : Nat := span.stop - span.start

/-- Whether nothing is covered. -/
def isEmpty (span : Span) : Bool := span.start == span.stop

/-- Smallest span that contains both. -/
def cover (a b : Span) : Span := ⟨min a.start b.start, max a.stop b.stop⟩

theorem cover_assoc (a b c : Span) : (a.cover b).cover c = a.cover (b.cover c) := by
  simp [cover, Nat.min_assoc, Nat.max_assoc]

end Span

end PageMarkup
