import PageMarkup.Location

/-!
# Faults

A fault ends a compilation without a document. The stages that find one point at an offset; the
caller of a compilation is told a location. `Fault` is therefore a type over the kind of place.
-/

namespace PageMarkup

/-- Why a page has no document. -/
inductive Fault (Place : Type) where
  /-- The text is empty. -/
  | emptyInput
  /-- The marker of the given name opens an aggregate that no token closes. -/
  | unclosedAggregate (name : String) (place : Place)
  /-- A node that belongs to the root stands elsewhere. -/
  | misplacedNode (name : String) (place : Place)
  /-- A node holds a child that could have children itself, which it must not. -/
  | nestedAggregate (name child : String) (place : Place)
  /-- A node that holds a single text holds something else. -/
  | invalidChildren (name : String) (place : Place)
  /-- No directive gives the page a title. -/
  | missingTitle
  deriving DecidableEq, Repr

namespace Fault

variable {Place Other : Type}

/-- The same fault with its place told another way. -/
def map (f : Place → Other) : Fault Place → Fault Other
  | .emptyInput => .emptyInput
  | .unclosedAggregate name place => .unclosedAggregate name (f place)
  | .misplacedNode name place => .misplacedNode name (f place)
  | .nestedAggregate name child place => .nestedAggregate name child (f place)
  | .invalidChildren name place => .invalidChildren name (f place)
  | .missingTitle => .missingTitle

/-- Where the fault is, if it is at one place. -/
def place? : Fault Place → Option Place
  | .emptyInput | .missingTitle => none
  | .unclosedAggregate _ place => some place
  | .misplacedNode _ place => some place
  | .nestedAggregate _ _ place => some place
  | .invalidChildren _ place => some place

theorem place?_map (f : Place → Other) (fault : Fault Place) :
    (fault.map f).place? = fault.place?.map f := by
  cases fault <;> rfl

/-- The wording of a fault. -/
def message : Fault Location → String
  | .emptyInput => "Source text is empty"
  | .unclosedAggregate name place =>
    "One aggregate was left unclosed: '" ++ name ++ "' starting at index "
      ++ toString place.offset ++ ", " ++ place.text
  | .misplacedNode name place =>
    "'" ++ name ++ "' must be a child of the document root, " ++ place.text
  | .nestedAggregate name child place =>
    "'" ++ name ++ "' cannot contain '" ++ child ++ "', " ++ place.text
  | .invalidChildren name place =>
    "'" ++ name ++ "' must contain exactly one text child, " ++ place.text
  | .missingTitle => "Missing required 'title' directive"

end Fault

end PageMarkup
