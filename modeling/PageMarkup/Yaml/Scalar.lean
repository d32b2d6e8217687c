import PageMarkup.Json.Token
import PageMarkup.Yaml.Place

/-!
# YAML scalars

The scalars of a YAML text. A plain or quoted scalar may go over several lines; a single line end
in it is read as a space, and further ones as line ends. A block scalar keeps its lines, or folds
them in the same way, down to the indentation of its first line.

Every reader is given the text from the start of a scalar on and returns what it means and the text
after it; `none` tells that the text is no YAML.
-/

namespace PageMarkup

namespace Yaml

/-- White space between two words of a scalar. -/
structure Gap where
  /-- Blanks before any line end, latest first. -/
  blanks : List Char := []
  /-- The first line end, if there is one; empty if a backslash took it away. -/
  lineEnd : Option (List Char) := none
  /-- Further line ends, latest first. -/
  moreEnds : List Char := []
  deriving Repr

namespace Gap

/-- What a gap means. -/
def text (gap : Gap) : List Char :=
  match gap.lineEnd with
  | none => gap.blanks.reverse
  | some ['\n'] => if gap.moreEnds.isEmpty then [' '] else gap.moreEnds.reverse
  | some lineEnd => lineEnd ++ gap.moreEnds.reverse

/-- Reads white space on top of a gap. In a plain scalar, `indent` is the column before which no
tab may stand at the start of a line. -/
def read? (indent : Option Int) (gap : Gap) : List Place → Option (Gap × List Place)
  | [] => some (gap, [])
  | place :: rest =>
    if isBlank place.char then
      match gap.lineEnd with
      | none => read? indent { gap with blanks := place.char :: gap.blanks } rest
      | some _ =>
        if place.char = '\t' ∧ indent.any (fun column => (place.column : Int) < column) then none
        else read? indent gap rest
    else if isBreak place.char then
      match gap.lineEnd with
      | none => read? indent { gap with blanks := [], lineEnd := some [place.char] } rest
      | some _ => read? indent { gap with moreEnds := place.char :: gap.moreEnds } rest
    else some (gap, place :: rest)

end Gap

/-- Whether the character ends a plain scalar in a flow collection. -/
def isFlowIndicator (c : Char) : Bool :=
  c == ',' || c == '[' || c == ']' || c == '\x7b' || c == '\x7d'

/-- Reads a word of a plain scalar. It goes up to white space or a colon before white space, in a
flow collection up to an indicator; there a colon before an indicator is refused. -/
def plainWord? (inFlow : Bool) : List Place → Option (List Char × List Place)
  | [] => some ([], [])
  | place :: rest =>
    if isBlank place.char ∨ isBreak place.char then some ([], place :: rest)
    else if inFlow ∧ place.char = ':'
        ∧ (Place.head? rest).any (fun c => isFlowIndicator c || c == '?') then none
    else if (place.char = ':' ∧ Place.atSpaceOrEnd rest)
        ∨ (inFlow ∧ isFlowIndicator place.char) then some ([], place :: rest)
    else (plainWord? inFlow rest).map fun (word, after) => (place.char :: word, after)

/-- A scalar that was read. -/
structure ReadScalar where
  text : List Char
  /-- Whether line ends were passed after its last word. -/
  endedLine : Bool := false
  rest : List Place
  deriving Repr

/-- Reads the words of a plain scalar after the text `before`, with `gap` between the two. Outside
of flow collections the scalar ends at a line that starts before the column `indent`. -/
def plainWords? (inFlow : Bool) (indent : Int) :
    Nat → List Char → Gap → List Place → Option ReadScalar
  | 0, _, _, _ => none
  | fuel + 1, before, gap, places =>
    if Place.atAnyMarker places ∨ Place.head? places = some '#' then
      some ⟨before, gap.lineEnd.isSome, places⟩
    else do
      let (word, rest) ← plainWord? inFlow places
      let (text, gap) := if word.isEmpty then (before, gap) else (before ++ gap.text ++ word, {})
      if rest.isEmpty ∨ ¬ Place.atSpaceOrEnd rest then
        return ⟨text, gap.lineEnd.isSome, rest⟩
      let (gap, rest) ← Gap.read? (some indent) gap rest
      if ¬ inFlow ∧ Place.isBefore rest indent then return ⟨text, gap.lineEnd.isSome, rest⟩
      plainWords? inFlow indent fuel text gap rest

/-- Reads a plain scalar. -/
def plainScalar? (inFlow : Bool) (indent : Int) (places : List Place) : Option ReadScalar :=
  plainWords? inFlow indent (places.length + 1) [] {} places

/-- Value of hexadecimal digits. -/
def hexNumber? (digits : List Char) : Option Nat :=
  digits.foldlM (fun value digit => (Json.hexValue? digit).map (16 * value + ·)) 0

/-- The character of a letter after a backslash. -/
def letterEscape? : Char → Option Char
  | '0' => some (Char.ofNat 0)
  | 'a' => some (Char.ofNat 7)
  | 'b' => some (Char.ofNat 8)
  | 't' => some '\t'
  | '\t' => some '\t'
  | 'n' => some '\n'
  | 'v' => some (Char.ofNat 11)
  | 'f' => some (Char.ofNat 12)
  | 'r' => some '\r'
  | 'e' => some (Char.ofNat 27)
  | ' ' => some ' '
  | '"' => some '"'
  | '/' => some '/'
  | '\\' => some '\\'
  | 'N' => some (Char.ofNat 0x85)
  | '_' => some (Char.ofNat 0xA0)
  | 'L' => some (Char.ofNat 0x2028)
  | 'P' => some (Char.ofNat 0x2029)
  | _ => none

/-- Number of hexadecimal digits after a letter that introduces a code point. -/
def codePointLength? : Char → Option Nat
  | 'x' => some 2
  | 'u' => some 4
  | 'U' => some 8
  | _ => none

/-- The character of a code point, which must be one of text. -/
def codePointChar? (code : Nat) : Option Char :=
  if h : code.isValidChar then some (Char.ofNatAux code h) else none

/-- Reads an escape after its backslash. -/
def escape? (places : List Place) : Option (Char × List Place) :=
  match places with
  | [] => none
  | letter :: rest =>
    match codePointLength? letter.char with
    | some count => do
      guard (count ≤ rest.length)
      let code ← hexNumber? ((rest.take count).map (·.char))
      let c ← codePointChar? code
      return (c, rest.drop count)
    | none => (letterEscape? letter.char).map fun c => (c, rest)

/-- Reads a word of a single-quoted scalar, in which two quotes stand for one. -/
def singleQuotedWord : List Place → List Char × List Place
  | [] => ([], [])
  | [place] =>
    if isBlank place.char ∨ isBreak place.char ∨ place.char = '\'' then ([], [place])
    else ([place.char], [])
  | place :: next :: rest =>
    if isBlank place.char ∨ isBreak place.char then ([], place :: next :: rest)
    else if place.char = '\'' then
      if next.char = '\'' then
        let (word, after) := singleQuotedWord rest
        ('\'' :: word, after)
      else ([], place :: next :: rest)
    else
      let (word, after) := singleQuotedWord (next :: rest)
      (place.char :: word, after)

/-- Reads a word of a double-quoted scalar. The flag tells that it ended with a line end that a
backslash took away. -/
def doubleQuotedWord? : Nat → List Place → Option (List Char × Bool × List Place)
  | 0, _ => none
  | _ + 1, [] => some ([], false, [])
  | fuel + 1, place :: rest =>
    if isBlank place.char ∨ isBreak place.char ∨ place.char = '"' then
      some ([], false, place :: rest)
    else if place.char = '\\' then
      match rest with
      | next :: after =>
        if isBreak next.char then some ([], true, after)
        else do
          let (c, after) ← escape? rest
          let (word, joined, after) ← doubleQuotedWord? fuel after
          return (c :: word, joined, after)
      | [] => none
    else do
      let (word, joined, after) ← doubleQuotedWord? fuel rest
      return (place.char :: word, joined, after)

/-- Reads a quoted scalar after its opening quote and the text `before`. A document marker inside is
refused. -/
def quotedWords? (single : Bool) : Nat → List Char → List Place → Option ReadScalar
  | 0, _, _ => none
  | fuel + 1, before, places => do
    guard (¬ Place.atAnyMarker places ∧ ¬ places.isEmpty)
    let (word, joined, rest) ←
      if single then
        let (word, rest) := singleQuotedWord places
        some (word, false, rest)
      else doubleQuotedWord? (places.length + 1) places
    let text := before ++ word
    if ¬ joined ∧ Place.head? rest = some (if single then '\'' else '"') then
      return { text, rest := rest.tail }
    let start : Gap := if joined then { lineEnd := some [] } else {}
    let (gap, rest) ← Gap.read? none start rest
    quotedWords? single fuel (text ++ gap.text) rest

/-- Reads a quoted scalar after its opening quote. -/
def quotedScalar? (single : Bool) (places : List Place) : Option ReadScalar :=
  quotedWords? single (places.length + 1) [] places

/-- What happens to the line ends at the end of a block scalar. -/
inductive Chomping where
  /-- One line end is kept. -/
  | clip
  /-- None is kept. -/
  | strip
  /-- All are kept. -/
  | keep
  deriving DecidableEq, Repr

/-- Chomping by its indicator. -/
def chomping? : Char → Option Chomping
  | '-' => some .strip
  | '+' => some .keep
  | _ => none

/-- Indentation by its indicator, a digit other than zero. -/
def indentDigit? (c : Char) : Option Nat :=
  if c.isDigit ∧ c ≠ '0' then some (c.toNat - '0'.toNat) else none

/-- Reads the indicators at the head of a block scalar, in either order: chomping and indentation,
the latter zero if it is not given. -/
def blockIndicators? (places : List Place) : Option (Chomping × Nat × List Place) :=
  match places with
  | [] => some (.clip, 0, [])
  | first :: rest =>
    match chomping? first.char with
    | some chomping =>
      match rest with
      | [] => some (chomping, 0, [])
      | second :: after =>
        if second.char.isDigit then (indentDigit? second.char).map fun n => (chomping, n, after)
        else some (chomping, 0, rest)
    | none =>
      if first.char.isDigit then
        (indentDigit? first.char).map fun n =>
          match rest with
          | [] => (.clip, n, [])
          | second :: after =>
            match chomping? second.char with
            | some chomping => (chomping, n, after)
            | none => (.clip, n, rest)
      else some (.clip, 0, places)

/-- Empty lines of a block scalar. -/
structure BlockBreaks where
  /-- Their line ends, latest first. -/
  ends : List Char := []
  /-- The furthest column reached on one of them or before the next line's text. -/
  reached : Nat := 0
  rest : List Place
  deriving Repr

/-- Reads empty lines and the indentation of the line after them. An indentation of zero is not
known yet. A tab may not stand in the place of indentation. -/
def blockBreaks? (indent : Nat) : Nat → BlockBreaks → Option BlockBreaks
  | 0, _ => none
  | fuel + 1, breaks =>
    let inside (place : Place) : Bool := indent == 0 || place.column < indent
    let rest := breaks.rest.dropWhile fun place => inside place && place.char == ' '
    match rest with
    | [] => some { breaks with rest := [] }
    | place :: after =>
      let reached := max breaks.reached place.column
      if inside place ∧ place.char = '\t' then none
      else if isBreak place.char then
        blockBreaks? indent fuel ⟨place.char :: breaks.ends, reached, after⟩
      else some ⟨breaks.ends, reached, rest⟩

/-- Reads the lines of a block scalar after the text `before`. `lineEnd` ended the line before,
`breaks` are the empty lines after it, and `spaced` tells whether that line started with a blank,
in which case its end is not folded. -/
def blockLines? (literal : Bool) (indent : Nat) :
    Nat → List Char → List Char → Bool → BlockBreaks →
      Option (List Char × List Char × BlockBreaks)
  | 0, _, _, _, _ => none
  | fuel + 1, before, lineEnd, spaced, breaks =>
    match breaks.rest with
    | [] => some (before, lineEnd, breaks)
    | place :: _ =>
      if place.column ≠ indent then some (before, lineEnd, breaks)
      else do
        let startsBlank := isBlank place.char
        let joint :=
          if ¬ literal ∧ lineEnd = ['\n'] ∧ ¬ spaced ∧ ¬ startsBlank then
            if breaks.ends.isEmpty then [' '] else []
          else lineEnd
        let line := breaks.rest.takeWhile fun place => !isBreak place.char
        let after := breaks.rest.dropWhile fun place => !isBreak place.char
        let text := before ++ joint ++ breaks.ends.reverse ++ line.map (·.char)
        let next ← blockBreaks? indent (after.length + 1) { rest := after.tail }
        blockLines? literal indent fuel text ((Place.head? after).toList) startsBlank next

/-- Reads a block scalar after its indicator. `parentIndent` is the column of the collection it
stands in; the text of a scalar starts after that column. -/
def blockScalar? (literal : Bool) (parentIndent : Int) (places : List Place) :
    Option ReadScalar := do
  let (chomping, increment, rest) ← blockIndicators? places
  let rest ← Place.restOfLine? rest
  let given := if increment = 0 then 0 else (max parentIndent 0).toNat + increment
  let breaks ← blockBreaks? given (rest.length + 1) { rest }
  let indent :=
    if given = 0 then max (max breaks.reached (parentIndent + 1).toNat) 1 else given
  let (text, lineEnd, breaks) ← blockLines? literal indent (rest.length + 1) [] [] false breaks
  let ending :=
    match chomping with
    | .strip => []
    | .clip => lineEnd
    | .keep => lineEnd ++ breaks.ends.reverse
  return { text := text ++ ending, rest := breaks.rest }

end Yaml

end PageMarkup
