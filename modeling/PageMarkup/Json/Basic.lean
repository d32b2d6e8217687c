/-!
# JSON values

A value keeps what its text says: members of an object stay in order and may repeat a key, and
numbers stay as they are written. A string can escape code units that are no text; a value that
holds one directly is `illFormed` and is of no use except where values are ignored.

Values are written without any white space.
-/

namespace PageMarkup

/-- A JSON value. -/
inductive Json where
  | null
  | bool (value : Bool)
  /-- A number as it is written. -/
  | number (numeral : String)
  | string (text : String)
  /-- A string that is no text, or an object with such a key. -/
  | illFormed
  | array (elements : List Json)
  | object (members : List (String × Json))
  deriving Repr, Inhabited

namespace Json

/-- The number of a count. -/
def ofNat (n : Nat) : Json := .number (toString n)

/-- A string, or null without one. -/
def ofOption {α : Type} (encode : α → Json) : Option α → Json
  | some value => encode value
  | none => .null

/-- An array of encoded values. -/
def ofList {α : Type} (encode : α → Json) (values : List α) : Json := .array (values.map encode)

/-- The escape of a control character that has no short one. -/
def controlEscape (c : Char) : List Char :=
  ['\\', 'u', '0', '0'] ++ [Nat.digitChar (c.toNat / 16), Nat.digitChar (c.toNat % 16)]

/-- A character as it stands in a string. -/
def escapeChar (c : Char) : List Char :=
  if c = '"' then ['\\', '"']
  else if c = '\\' then ['\\', '\\']
  else if c = '\n' then ['\\', 'n']
  else if c = '\r' then ['\\', 'r']
  else if c = '\t' then ['\\', 't']
  else if c.toNat = 8 then ['\\', 'b']
  else if c.toNat = 12 then ['\\', 'f']
  else if c.toNat < 32 then controlEscape c
  else [c]

/-- A string in quotes. -/
def renderString (text : String) : List Char := '"' :: (text.toList.flatMap escapeChar ++ ['"'])

mutual

/-- The text of a value. -/
def renderChars : Json → List Char
  | .null => "null".toList
  | .bool true => "true".toList
  | .bool false => "false".toList
  | .number numeral => numeral.toList
  | .string text => renderString text
  | .illFormed => "null".toList
  | .array elements => '[' :: (renderElements elements ++ [']'])
  | .object members => '\x7b' :: (renderMembers members ++ ['\x7d'])

/-- The elements of an array with commas between them. -/
def renderElements : List Json → List Char
  | [] => []
  | [element] => renderChars element
  | element :: next :: rest => renderChars element ++ ',' :: renderElements (next :: rest)

/-- The members of an object with commas between them. -/
def renderMembers : List (String × Json) → List Char
  | [] => []
  | [(key, value)] => renderString key ++ ':' :: renderChars value
  | (key, value) :: next :: rest =>
    renderString key ++ ':' :: renderChars value ++ ',' :: renderMembers (next :: rest)

end

/-- The text of a value, without white space. -/
def render (value : Json) : String := String.ofList value.renderChars

end Json

end PageMarkup
