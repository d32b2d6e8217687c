/-!
# Locations

A location says where in which file something stands: the offset counts clusters from zero, the
line and the column count from one.
-/

namespace PageMarkup

/-- A place in a source text. -/
structure Location where
  file : Option String
  offset : Nat
  line : Nat
  column : Nat
  deriving DecidableEq, Repr, Inhabited

/-- Line and column separated by a colon, after the file if there is one. An empty file name is
still a file. -/
def Location.text (location : Location) : String :=
  let place := toString location.line ++ ":" ++ toString location.column
  match location.file with
  | some file => file ++ ":" ++ place
  | none => place

end PageMarkup
