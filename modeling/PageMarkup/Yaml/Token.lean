import PageMarkup.Yaml.Directive

/-!
# YAML tokens

The scanner turns the layout of a text into tokens: where a block collection starts and ends
follows from indentation, and that a scalar is a key shows only at the colon after it. Such a key
is kept in mind, one for each level of flow collections, and when the colon comes a key token is
put in front of it after the fact.
-/

namespace PageMarkup

namespace Yaml

/-- A token of a YAML text. -/
inductive Token where
  | directive (directive : Directive)
  | documentStart
  | documentEnd
  | blockSequenceStart
  | blockMappingStart
  | blockEnd
  | flowSequenceStart
  | flowSequenceEnd
  | flowMappingStart
  | flowMappingEnd
  | blockEntry
  | flowEntry
  | key
  | value
  | scalar (text : String) (plain : Bool)
  deriving DecidableEq, Repr

/-- Something that turns out to be a key if a colon follows it. -/
structure PossibleKey where
  /-- Whether it can be nothing else where it stands. -/
  required : Bool
  /-- Number of tokens before it. -/
  position : Nat
  place : Place
  deriving Repr

/-- Number of bytes that may stand between the start of a key and the colon after it. -/
def keyLimit : Nat := 1024

/-- State of the scanner. -/
structure Scanner where
  rest : List Place
  /-- The tokens so far. -/
  tokens : Array Token := #[]
  /-- Column of the innermost block collection. -/
  indent : Int := -1
  /-- Columns of the block collections around it, innermost first. -/
  outer : List Int := []
  /-- The possible key on every level of flow collections, innermost first; the last one belongs
  to block context. -/
  keys : List (Option PossibleKey) := [none]
  /-- Whether a key may start here. -/
  keyAllowed : Bool := true
  deriving Repr

namespace Scanner

/-- Whether the scanner is inside a flow collection. -/
def inFlow (scanner : Scanner) : Bool := 1 < scanner.keys.length

/-- The scanner with one more token. -/
def emit (scanner : Scanner) (token : Token) : Scanner :=
  { scanner with tokens := scanner.tokens.push token }

/-- The scanner with a token put after the first `position` tokens. -/
def emitAt (scanner : Scanner) (position : Nat) (token : Token) : Scanner :=
  { scanner with tokens := scanner.tokens.insertIdxIfInBounds position token }

/-- The scanner after the next `count` characters. -/
def skip (scanner : Scanner) (count : Nat) : Scanner :=
  { scanner with rest := scanner.rest.drop count }

/-- Passes over blanks, comments and line ends, and tells whether a key may start after them. Tabs
are passed over only where they cannot be taken for indentation. A byte order mark is passed over
at the start of a line, where it takes up a column. After a line end in block context a key may
start. -/
def passSpace (inFlow keyAllowed inComment : Bool) : List Place → Bool × List Place
  | [] => (keyAllowed, [])
  | place :: rest =>
    if isBreak place.char then passSpace inFlow (keyAllowed || !inFlow) false rest
    else if inComment
        ∨ (place.column = 0 ∧ place.char.toNat = 0xFEFF)
        ∨ place.char = ' '
        ∨ (place.char = '\t' ∧ (inFlow ∨ ¬ keyAllowed)) then
      passSpace inFlow keyAllowed inComment rest
    else if place.char = '#' then passSpace inFlow keyAllowed true rest
    else (keyAllowed, place :: rest)

/-- The scanner before the next token. -/
def skipSpace (scanner : Scanner) : Scanner :=
  let (keyAllowed, rest) := passSpace scanner.inFlow scanner.keyAllowed false scanner.rest
  { scanner with keyAllowed, rest }

/-- Whether a possible key is too far away from a place to be one there. -/
def isStale (key : PossibleKey) (place : Place) : Bool :=
  key.place.line < place.line || key.place.offset + keyLimit < place.offset

/-- Forgets the possible keys that are too far away; a required one must not be lost. -/
def dropStaleKeys (scanner : Scanner) (place : Place) : Option Scanner := do
  let keys ← scanner.keys.mapM fun key =>
    match key with
    | none => some none
    | some key =>
      if isStale key place then if key.required then none else some none
      else some (some key)
  return { scanner with keys }

/-- Ends the block collections that start after a column. -/
def unrollIndent (scanner : Scanner) (column : Int) : Scanner :=
  if scanner.inFlow then scanner
  else
    let columns := scanner.indent :: scanner.outer
    let ended := columns.takeWhile (column < ·)
    let kept := columns.dropWhile (column < ·)
    { scanner with
      tokens := scanner.tokens ++ ended.map fun _ => Token.blockEnd
      indent := kept.headD (-1)
      outer := kept.tail }

/-- Starts a block collection at a column, unless there is one. -/
def rollIndent (scanner : Scanner) (column position : Nat) (token : Token) : Scanner :=
  if scanner.inFlow ∨ (column : Int) ≤ scanner.indent then scanner
  else
    { scanner.emitAt position token with
      indent := column
      outer := scanner.indent :: scanner.outer }

/-- Forgets the possible key of the innermost level; a required one must not be lost. -/
def removeKey (scanner : Scanner) : Option Scanner :=
  match scanner.keys with
  | some key :: keys => if key.required then none else some { scanner with keys := none :: keys }
  | _ => some scanner

/-- Keeps in mind that a key may start at a place. -/
def saveKey (scanner : Scanner) (place : Place) : Option Scanner :=
  if scanner.keyAllowed then do
    let scanner ← scanner.removeKey
    let key : PossibleKey :=
      { required := !scanner.inFlow && scanner.indent == place.column
        position := scanner.tokens.size
        place }
    return { scanner with keys := some key :: scanner.keys.tail }
  else some scanner

/-- Ends everything that is open at the end of the text. -/
def finish (scanner : Scanner) : Option (List Token) := do
  let scanner ← (scanner.unrollIndent (-1)).removeKey
  return scanner.tokens.toList

/-- Reads a directive, of which `rest` is what comes after the percent sign. -/
def directive (scanner : Scanner) (rest : List Place) : Option Scanner := do
  let scanner ← (scanner.unrollIndent (-1)).removeKey
  let (directive, rest) ← directive? rest
  return { scanner with rest, keyAllowed := false }.emit (.directive directive)

/-- Reads a document marker. -/
def marker (scanner : Scanner) (token : Token) : Option Scanner := do
  let scanner ← (scanner.unrollIndent (-1)).removeKey
  return ({ scanner with keyAllowed := false }.skip 3).emit token

/-- Reads the start of a flow collection. -/
def flowStart (scanner : Scanner) (place : Place) (token : Token) : Option Scanner := do
  let scanner ← scanner.saveKey place
  return ({ scanner with keys := none :: scanner.keys, keyAllowed := true }.skip 1).emit token

/-- Reads the end of a flow collection. -/
def flowEnd (scanner : Scanner) (token : Token) : Option Scanner := do
  let scanner ← scanner.removeKey
  let keys := if scanner.inFlow then scanner.keys.tail else scanner.keys
  return ({ scanner with keys, keyAllowed := false }.skip 1).emit token

/-- Reads the comma between entries of a flow collection. -/
def flowEntry (scanner : Scanner) : Option Scanner := do
  let scanner ← scanner.removeKey
  return ({ scanner with keyAllowed := true }.skip 1).emit .flowEntry

/-- Reads the dash before an entry of a block sequence. -/
def blockEntry (scanner : Scanner) (place : Place) : Option Scanner := do
  guard (scanner.inFlow ∨ scanner.keyAllowed)
  let scanner := scanner.rollIndent place.column scanner.tokens.size .blockSequenceStart
  let scanner ← scanner.removeKey
  return ({ scanner with keyAllowed := true }.skip 1).emit .blockEntry

/-- Reads the question mark before a key. -/
def explicitKey (scanner : Scanner) (place : Place) : Option Scanner := do
  guard (scanner.inFlow ∨ scanner.keyAllowed)
  let scanner := scanner.rollIndent place.column scanner.tokens.size .blockMappingStart
  let scanner ← scanner.removeKey
  return ({ scanner with keyAllowed := !scanner.inFlow }.skip 1).emit .key

/-- Reads the colon before a value. What was kept in mind as a possible key is one now. -/
def value (scanner : Scanner) (place : Place) : Option Scanner :=
  match scanner.keys with
  | some key :: keys =>
    let scanner := scanner.emitAt key.position .key
    let scanner := scanner.rollIndent key.place.column key.position .blockMappingStart
    some (({ scanner with keys := none :: keys, keyAllowed := false }.skip 1).emit .value)
  | _ => do
    guard (scanner.inFlow ∨ scanner.keyAllowed)
    let scanner := scanner.rollIndent place.column scanner.tokens.size .blockMappingStart
    return ({ scanner with keyAllowed := !scanner.inFlow }.skip 1).emit .value

/-- The scanner after a scalar. -/
def emitScalar (scanner : Scanner) (plain : Bool) (read : ReadScalar) : Scanner :=
  { scanner with rest := read.rest }.emit (.scalar (String.ofList read.text) plain)

/-- Reads a quoted scalar. -/
def quoted (scanner : Scanner) (place : Place) (single : Bool) : Option Scanner := do
  let scanner ← scanner.saveKey place
  let read ← quotedScalar? single scanner.rest.tail
  return { scanner with keyAllowed := false }.emitScalar false read

/-- Reads a block scalar. -/
def block (scanner : Scanner) (literal : Bool) : Option Scanner := do
  let scanner ← scanner.removeKey
  let read ← blockScalar? literal scanner.indent scanner.rest.tail
  return { scanner with keyAllowed := true }.emitScalar false read

/-- Reads a plain scalar. If it went over a line end, a key may start after it. -/
def plain (scanner : Scanner) (place : Place) : Option Scanner := do
  let scanner ← scanner.saveKey place
  let read ← plainScalar? scanner.inFlow (scanner.indent + 1) scanner.rest
  return { scanner with keyAllowed := read.endedLine }.emitScalar true read

/-- Whether the character cannot start a plain scalar whatever follows it. -/
def isIndicator (c : Char) : Bool := "-?:,[]\x7b\x7d#&*!|>'\"%@\x60".toList.contains c

/-- Whether a plain scalar starts with the character, given what follows it. -/
def startsPlain (inFlow : Bool) (c : Char) (rest : List Place) : Bool :=
  (!isBlank c && !isBreak c && !isIndicator c)
    || (c == '-' && !(Place.head? rest).any isBlank)
    || (!inFlow && (c == '?' || c == ':') && !Place.atSpaceOrEnd rest)

/-- Reads one token, of which `place` is the first character. -/
def token (scanner : Scanner) (place : Place) (rest : List Place) : Option Scanner :=
  let inFlow := scanner.inFlow
  if place.column = 0 ∧ place.char = '%' then scanner.directive rest
  else if Place.atMarker '-' scanner.rest then scanner.marker .documentStart
  else if Place.atMarker '.' scanner.rest then scanner.marker .documentEnd
  else
    match place.char with
    | '[' => scanner.flowStart place .flowSequenceStart
    | '\x7b' => scanner.flowStart place .flowMappingStart
    | ']' => scanner.flowEnd .flowSequenceEnd
    | '\x7d' => scanner.flowEnd .flowMappingEnd
    | ',' => scanner.flowEntry
    | '\'' => scanner.quoted place true
    | '"' => scanner.quoted place false
    | c =>
      if c = '-' ∧ Place.atSpaceOrEnd rest then scanner.blockEntry place
      else if c = '?' ∧ (inFlow ∨ Place.atSpaceOrEnd rest) then scanner.explicitKey place
      else if c = ':' ∧ (inFlow ∨ Place.atSpaceOrEnd rest) then scanner.value place
      else if c = '|' ∧ ¬ inFlow then scanner.block true
      else if c = '>' ∧ ¬ inFlow then scanner.block false
      else if startsPlain inFlow c rest then scanner.plain place
      else none

/-- Reads all tokens. Every token takes at least one character. -/
def run (scanner : Scanner) : Nat → Option (List Token)
  | 0 => none
  | fuel + 1 =>
    let scanner := scanner.skipSpace
    match scanner.rest with
    | [] => scanner.finish
    | place :: rest => do
      let scanner ← scanner.dropStaleKeys place
      let scanner ← (scanner.unrollIndent place.column).token place rest
      scanner.run fuel

end Scanner

/-- The tokens of a text. -/
def tokens? (text : String) : Option (List Token) := do
  guard (text.toList.all isAllowed)
  let rest := places text
  ({ rest } : Scanner).run (rest.length + 1)

end Yaml

end PageMarkup
