/-!
# Characters of a YAML text

The layout of a YAML text has meaning, so its characters are looked at together with their places.
All spellings of a line end count as one line feed, except for the two separators that are kept
where a text contains them.
-/

namespace PageMarkup

namespace Yaml

/-- A character and where it stands; lines and columns count from zero. -/
structure Place where
  char : Char
  /-- Number of bytes before the character in UTF-8. -/
  offset : Nat
  line : Nat
  column : Nat
  deriving DecidableEq, Repr

/-- Whether the character ends a line. -/
def isBreak (c : Char) : Bool := c == '\n' || c.toNat == 0x2028 || c.toNat == 0x2029

/-- Whether the character is white space within a line. -/
def isBlank (c : Char) : Bool := c == ' ' || c == '\t'

/-- Characters with every line end but the separators as a line feed. -/
def normalizeBreaks : List Char → List Char
  | '\r' :: '\n' :: rest => '\n' :: normalizeBreaks rest
  | c :: rest => (if c = '\r' ∨ c.toNat = 0x85 then '\n' else c) :: normalizeBreaks rest
  | [] => []

/-- Whether the character may occur in a text at all. -/
def isAllowed (c : Char) : Bool :=
  let n := c.toNat
  n == 0x9 || n == 0xA || n == 0xD || (0x20 ≤ n && n ≤ 0x7E) || n == 0x85
    || (0xA0 ≤ n && n ≤ 0xFFFD) || 0x10000 ≤ n

/-- The characters from a given place on. -/
def placesFrom (offset line column : Nat) : List Char → List Place
  | [] => []
  | c :: rest =>
    ⟨c, offset, line, column⟩ ::
      if isBreak c then placesFrom (offset + c.utf8Size) (line + 1) 0 rest
      else placesFrom (offset + c.utf8Size) line (column + 1) rest

/-- The characters of a text with their places. -/
def places (text : String) : List Place := placesFrom 0 0 0 (normalizeBreaks text.toList)

namespace Place

/-- The character at the head, if there is one. -/
def head? (places : List Place) : Option Char := places.head?.map (·.char)

/-- Whether the head ends a line or there is nothing left. -/
def atBreakOrEnd (places : List Place) : Bool := (head? places).all isBreak

/-- Whether the head is white space or there is nothing left. -/
def atSpaceOrEnd (places : List Place) : Bool :=
  (head? places).all fun c => isBlank c || isBreak c

/-- The places after the blanks at the head. -/
def skipBlanks (places : List Place) : List Place :=
  places.dropWhile fun place => isBlank place.char

/-- Reads the rest of a line that has nothing more to say: blanks, a comment and the line end. -/
def restOfLine? (places : List Place) : Option (List Place) :=
  let rest := skipBlanks places
  let rest :=
    if head? rest = some '#' then rest.dropWhile fun place => !isBreak place.char
    else rest
  if atBreakOrEnd rest then some rest.tail else none

/-- Whether a document marker of the given character stands at the head: three of them at the start
of a line, with white space or nothing after them. -/
def atMarker (mark : Char) : List Place → Bool
  | a :: b :: c :: rest =>
    a.column == 0 && a.char == mark && b.char == mark && c.char == mark && atSpaceOrEnd rest
  | _ => false

/-- Whether either document marker stands at the head. -/
def atAnyMarker (places : List Place) : Bool := atMarker '-' places || atMarker '.' places

/-- Whether the head stands before a column. Nothing stands before any column at the end. -/
def isBefore (places : List Place) (column : Int) : Bool :=
  match places with
  | [] => true
  | place :: _ => place.column < column

end Place

end Yaml

end PageMarkup
