/-!
# JSON tokens

A JSON text is cut into tokens first. White space between them is dropped. The text of a string is
the text that its escapes stand for; two escapes can stand for one character, and an escape that
stands for half a character makes the string no text at all.
-/

namespace PageMarkup

namespace Json

/-- A token of a JSON text. -/
inductive Token where
  | openBrace
  | closeBrace
  | openBracket
  | closeBracket
  | colon
  | comma
  | null
  | bool (value : Bool)
  | number (numeral : String)
  /-- A string; `none` if it is no text. -/
  | string (text : Option String)
  deriving DecidableEq, Repr

/-- A character of a string or a code unit that is escaped by its number. -/
inductive StringUnit where
  | char (c : Char)
  | unit (code : Nat)
  deriving DecidableEq, Repr

/-- Value of a hexadecimal digit. -/
def hexValue? (c : Char) : Option Nat :=
  if '0' ≤ c ∧ c ≤ '9' then some (c.toNat - '0'.toNat)
  else if 'a' ≤ c ∧ c ≤ 'f' then some (c.toNat - 'a'.toNat + 10)
  else if 'A' ≤ c ∧ c ≤ 'F' then some (c.toNat - 'A'.toNat + 10)
  else none

/-- Value of four hexadecimal digits. -/
def hexValues? (a b c d : Char) : Option Nat := do
  let a ← hexValue? a
  let b ← hexValue? b
  let c ← hexValue? c
  let d ← hexValue? d
  return ((a * 16 + b) * 16 + c) * 16 + d

/-- The character of an escape by letter. -/
def shortEscape? : Char → Option Char
  | '"' => some '"'
  | '\\' => some '\\'
  | '/' => some '/'
  | 'b' => some (Char.ofNat 8)
  | 'f' => some (Char.ofNat 12)
  | 'n' => some '\n'
  | 'r' => some '\r'
  | 't' => some '\t'
  | _ => none

/-- Reads a string after its opening quote: its units and what follows the closing quote. Control
characters must be escaped. -/
def stringUnits? : List Char → Option (List StringUnit × List Char)
  | [] => none
  | '"' :: rest => some ([], rest)
  | '\\' :: 'u' :: a :: b :: c :: d :: rest => do
    let code ← hexValues? a b c d
    let (units, rest) ← stringUnits? rest
    return (.unit code :: units, rest)
  | '\\' :: letter :: rest => do
    let c ← shortEscape? letter
    let (units, rest) ← stringUnits? rest
    return (.char c :: units, rest)
  | c :: rest => do
    guard (32 ≤ c.toNat ∧ c ≠ '\\')
    let (units, rest) ← stringUnits? rest
    return (.char c :: units, rest)

/-- Whether a code unit is the first half of a character. -/
def isLeading (code : Nat) : Bool := 0xD800 ≤ code && code < 0xDC00

/-- Whether a code unit is the second half of a character. -/
def isTrailing (code : Nat) : Bool := 0xDC00 ≤ code && code < 0xE000

/-- The character of two halves. -/
def joinHalves (leading trailing : Nat) : Char :=
  Char.ofNat (0x10000 + (leading - 0xD800) * 0x400 + (trailing - 0xDC00))

/-- The text of units; `none` if a half is left alone. -/
def unitsText? : List StringUnit → Option (List Char)
  | [] => some []
  | .char c :: rest => (unitsText? rest).map (c :: ·)
  | .unit leading :: .unit trailing :: rest =>
    if isLeading leading then
      if isTrailing trailing then (unitsText? rest).map (joinHalves leading trailing :: ·)
      else none
    else if isTrailing leading then none
    else (unitsText? (.unit trailing :: rest)).map (Char.ofNat leading :: ·)
  | .unit code :: rest =>
    if isLeading code ∨ isTrailing code then none
    else (unitsText? rest).map (Char.ofNat code :: ·)

/-- A list of digits that is not empty. -/
def isDigits (cs : List Char) : Bool := !cs.isEmpty && cs.all Char.isDigit

/-- Whether the characters are the integral part of a number: no leading zero but a lone one. -/
def isIntegral : List Char → Bool
  | ['0'] => true
  | '0' :: _ => false
  | cs => isDigits cs

/-- Whether the characters are an exponent without its letter. -/
def isExponent : List Char → Bool
  | '+' :: rest | '-' :: rest => isDigits rest
  | cs => isDigits cs

/-- Whether the characters are a fraction and an exponent, each of which may be missing. -/
def isFractionAndExponent (cs : List Char) : Bool :=
  let isMark (c : Char) : Bool := c == 'e' || c == 'E'
  let (fraction, rest) := (cs.takeWhile (!isMark ·), cs.dropWhile (!isMark ·))
  let fractionOk :=
    match fraction with
    | [] => true
    | '.' :: digits => isDigits digits
    | _ => false
  let exponentOk :=
    match rest with
    | [] => true
    | _ :: exponent => isExponent exponent
  fractionOk && exponentOk

/-- Whether the characters are a number. -/
def isNumeral (cs : List Char) : Bool :=
  let unsigned :=
    match cs with
    | '-' :: rest => rest
    | cs => cs
  isIntegral (unsigned.takeWhile Char.isDigit)
    && isFractionAndExponent (unsigned.dropWhile Char.isDigit)

/-- Whether the character can occur in a number. -/
def isNumeralChar (c : Char) : Bool :=
  c.isDigit || c == '-' || c == '+' || c == '.' || c == 'e' || c == 'E'

/-- Whether the character is white space between tokens. -/
def isSpace (c : Char) : Bool := c == ' ' || c == '\t' || c == '\n' || c == '\r'

/-- Reads one token at the head of characters that do not start with white space. -/
def token? : List Char → Option (Token × List Char)
  | '\x7b' :: rest => some (.openBrace, rest)
  | '\x7d' :: rest => some (.closeBrace, rest)
  | '[' :: rest => some (.openBracket, rest)
  | ']' :: rest => some (.closeBracket, rest)
  | ':' :: rest => some (.colon, rest)
  | ',' :: rest => some (.comma, rest)
  | 'n' :: 'u' :: 'l' :: 'l' :: rest => some (.null, rest)
  | 't' :: 'r' :: 'u' :: 'e' :: rest => some (.bool true, rest)
  | 'f' :: 'a' :: 'l' :: 's' :: 'e' :: rest => some (.bool false, rest)
  | '"' :: rest =>
    (stringUnits? rest).map fun (units, rest) =>
      (.string ((unitsText? units).map String.ofList), rest)
  | cs =>
    let numeral := cs.takeWhile isNumeralChar
    if isNumeral numeral then
      some (.number (String.ofList numeral), cs.dropWhile isNumeralChar)
    else none

/-- The tokens of at most `fuel` characters. -/
def tokensWithin : Nat → List Char → Option (List Token)
  | _, [] => some []
  | 0, _ :: _ => none
  | fuel + 1, c :: rest =>
    if isSpace c then tokensWithin fuel rest
    else do
      let (token, rest) ← token? (c :: rest)
      let tokens ← tokensWithin fuel rest
      return token :: tokens

/-- The tokens of a text. Every token takes at least one character. -/
def tokens? (text : String) : Option (List Token) := tokensWithin text.toList.length text.toList

end Json

end PageMarkup
