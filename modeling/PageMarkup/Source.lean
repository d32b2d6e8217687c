import PageMarkup.Text.Cluster
import PageMarkup.Location
import PageMarkup.Span

/-!
# Sources

A source is a text cut into clusters, with one more newline after the last cluster so that a
construct on the final line ends like any other. That newline is a cluster of its own even after a
carriage return.

Lines start at the first cluster and after every cluster that contains a line feed, the added
newline included, so that every offset lies on a line.
-/

namespace PageMarkup

/-- A text as a sequence of clusters. -/
structure Source where
  /-- The clusters of the text, without the added newline. -/
  clusters : Array String
  deriving DecidableEq, Repr, Inhabited

namespace Source

/-- The source of a text. -/
def ofText (text : String) : Source := ⟨(Text.clusters text).toArray⟩

/-- Number of clusters, the added newline not counted. -/
def length (source : Source) : Nat := source.clusters.size

/-- Whether the text is empty. -/
def isEmpty (source : Source) : Bool := source.clusters.isEmpty

/-- The clusters with the newline that ends the last line. -/
def terminated (source : Source) : Array String := source.clusters.push "\n"

/-- The cluster at an offset; the added newline stands after the last one of the text. -/
def cluster? (source : Source) (offset : Nat) : Option String :=
  if offset = source.length then some "\n" else source.clusters[offset]?

/-- The text that a span covers. -/
def slice (source : Source) (span : Span) : String :=
  String.join ((List.range' span.start span.length).filterMap source.cluster?)

/-- Whether a cluster ends a line. -/
def isNewline (cluster : String) : Bool := cluster.toList.contains '\n'

/-- Offsets at which lines start, given the clusters from the offset `next` on. -/
def lineStartsFrom (next : Nat) : List String → List Nat
  | [] => []
  | cluster :: rest =>
    if isNewline cluster then (next + 1) :: lineStartsFrom (next + 1) rest
    else lineStartsFrom (next + 1) rest

/-- Offsets at which lines start, ascending from zero. -/
def lineStarts (source : Source) : List Nat :=
  0 :: lineStartsFrom 0 source.terminated.toList

/-- Line and column of an offset, both counted from one, where lines start at the given offsets.
Offsets past the end count on from the last line start. -/
def lineColumnOn (starts : List Nat) (offset : Nat) : Nat × Nat :=
  let passed := starts.filter (· ≤ offset)
  (passed.length, offset - passed.getLastD 0 + 1)

/-- Line and column of an offset of the source. -/
def lineColumn (source : Source) (offset : Nat) : Nat × Nat :=
  lineColumnOn source.lineStarts offset

/-- The location of an offset in a file whose lines start at the given offsets. -/
def locationOn (starts : List Nat) (file : Option String) (offset : Nat) : Location :=
  let (line, column) := lineColumnOn starts offset
  ⟨file, offset, line, column⟩

/-- The location of an offset in a file that holds the source. -/
def location (source : Source) (file : Option String) (offset : Nat) : Location :=
  locationOn source.lineStarts file offset

end Source

end PageMarkup
