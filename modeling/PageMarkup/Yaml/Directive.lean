import PageMarkup.Yaml.Scalar

/-!
# YAML directives

A line that starts with a percent sign says something about the document after it: which version
of YAML it is written in, or what a tag handle stands for. There are no other directives. A document
has at most one version, and a handle stands for one thing in it.
-/

namespace PageMarkup

namespace Yaml

/-- What a line before a document says about it. -/
inductive Directive where
  | version (major minor : Nat)
  /-- The handle stands for something. What it is makes no difference where no tag is read. -/
  | tag (handle : String)
  deriving DecidableEq, Repr

namespace Directive

/-- Whether two directives answer the same question about a document. -/
def conflicts : Directive → Directive → Bool
  | .version .., .version .. => true
  | .tag handle, .tag other => handle == other
  | _, _ => false

/-- Whether the directive asks for nothing unknown. -/
def isSupported : Directive → Bool
  | .version major minor => major == 1 && (minor == 1 || minor == 2)
  | .tag _ => true

/-- Whether the directives may stand before one document. -/
def Accepted (directives : List Directive) : Prop :=
  (∀ directive ∈ directives, directive.isSupported) ∧
    directives.Pairwise fun directive other => !directive.conflicts other

instance (directives : List Directive) : Decidable (Accepted directives) :=
  inferInstanceAs (Decidable (_ ∧ _))

/-- Whether the character may occur in the name of a directive or a tag handle. -/
def isNameChar (c : Char) : Bool := c.isAlphanum || c == '_' || c == '-'

/-- Number of digits that either half of a version may have. -/
def versionDigits : Nat := 9

/-- Reads one half of a version. -/
def versionNumber? (places : List Place) : Option (Nat × List Place) := do
  let digits := places.takeWhile fun place => place.char.isDigit
  guard (¬ digits.isEmpty ∧ digits.length ≤ versionDigits)
  let number := digits.foldl (fun number digit => 10 * number + (digit.char.toNat - '0'.toNat)) 0
  return (number, places.drop digits.length)

/-- Reads a version: two numbers with a point between them. -/
def version? (places : List Place) : Option (Directive × List Place) := do
  let (major, rest) ← versionNumber? places
  guard (Place.head? rest = some '.')
  let (minor, rest) ← versionNumber? rest.tail
  return (.version major minor, rest)

/-- Reads a tag handle: one exclamation mark, or two with or without a name between them. -/
def tagHandle? (places : List Place) : Option (String × List Place) := do
  guard (Place.head? places = some '!')
  let name := places.tail.takeWhile fun place => isNameChar place.char
  let rest := places.tail.drop name.length
  if Place.head? rest = some '!' then
    return (String.ofList ('!' :: (name.map (·.char) ++ ['!'])), rest.tail)
  else
    guard name.isEmpty
    return ("!", rest)

/-- Whether the character may occur in what a tag handle stands for. -/
def isUriChar (c : Char) : Bool := isNameChar c || ";/?:@&=+$.%!~*'(),[]".toList.contains c

/-- Number of bytes of a character after its first byte. -/
def trailingBytes? (first : Nat) : Option Nat :=
  if first < 0x80 then some 0
  else if first < 0xC0 then none
  else if first < 0xE0 then some 1
  else if first < 0xF0 then some 2
  else if first < 0xF8 then some 3
  else none

/-- Passes over what a tag handle stands for. The bytes of a character may be written as
hexadecimal numbers after percent signs, all of them or none; `missing` of them are yet to come. -/
def skipUri? (missing : Nat) : List Place → Option (List Place)
  | [] => if missing = 0 then some [] else none
  | place :: rest =>
    if place.char = '%' then
      match rest with
      | high :: low :: after => do
        let byte ← hexNumber? [high.char, low.char]
        if missing = 0 then skipUri? (← trailingBytes? byte) after
        else
          guard (0x80 ≤ byte ∧ byte < 0xC0)
          skipUri? (missing - 1) after
      | _ => none
    else if missing = 0 then
      if isUriChar place.char then skipUri? 0 rest else some (place :: rest)
    else none

/-- Reads a tag handle and what it stands for, with white space between them and after them. -/
def tag? (places : List Place) : Option (Directive × List Place) := do
  let (handle, rest) ← tagHandle? places
  guard ((Place.head? rest).any isBlank)
  let rest := Place.skipBlanks rest
  guard ((Place.head? rest).any isUriChar)
  let rest ← skipUri? 0 rest
  guard (Place.atSpaceOrEnd rest)
  return (.tag handle, rest)

end Directive

/-- Reads a directive after its percent sign, up to the end of its line. -/
def directive? (places : List Place) : Option (Directive × List Place) := do
  let name := places.takeWhile fun place => Directive.isNameChar place.char
  let rest := places.drop name.length
  guard (Place.atSpaceOrEnd rest)
  let content := Place.skipBlanks rest
  let (directive, rest) ←
    match String.ofList (name.map (·.char)) with
    | "YAML" => Directive.version? content
    | "TAG" => Directive.tag? content
    | _ => none
  return (directive, ← Place.restOfLine? rest)

end Yaml

end PageMarkup
