import PageMarkup.Json.Basic
import PageMarkup.Json.Token

/-!
# Reading JSON

The tokens of a text are read as one value with nothing after it. Commas stand between elements and
nowhere else.
-/

namespace PageMarkup

namespace Json

/-- The object of members, which needs keys that are text. -/
def ofMembers (members : List (Option String × Json)) : Json :=
  match members.mapM fun (key, value) => key.map fun key => (key, value) with
  | some members => .object members
  | none => .illFormed

mutual

/-- Reads a value and returns the tokens after it. -/
def value? : Nat → List Token → Option (Json × List Token)
  | 0, _ => none
  | fuel + 1, tokens =>
    match tokens with
    | .null :: rest => some (.null, rest)
    | .bool value :: rest => some (.bool value, rest)
    | .number numeral :: rest => some (.number numeral, rest)
    | .string (some text) :: rest => some (.string text, rest)
    | .string none :: rest => some (.illFormed, rest)
    | .openBracket :: .closeBracket :: rest => some (.array [], rest)
    | .openBracket :: rest =>
      (elements? fuel rest).map fun (elements, rest) => (.array elements, rest)
    | .openBrace :: .closeBrace :: rest => some (.object [], rest)
    | .openBrace :: rest =>
      (members? fuel rest).map fun (members, rest) => (ofMembers members, rest)
    | _ => none

/-- Reads elements up to the closing bracket. -/
def elements? : Nat → List Token → Option (List Json × List Token)
  | 0, _ => none
  | fuel + 1, tokens => do
    let (element, rest) ← value? fuel tokens
    match rest with
    | .closeBracket :: rest => some ([element], rest)
    | .comma :: rest =>
      (elements? fuel rest).map fun (elements, rest) => (element :: elements, rest)
    | _ => none

/-- Reads members up to the closing brace. -/
def members? : Nat → List Token → Option (List (Option String × Json) × List Token)
  | 0, _ => none
  | fuel + 1, tokens =>
    match tokens with
    | .string key :: .colon :: rest => do
      let (value, rest) ← value? fuel rest
      match rest with
      | .closeBrace :: rest => some ([(key, value)], rest)
      | .comma :: rest =>
        (members? fuel rest).map fun (members, rest) => ((key, value) :: members, rest)
      | _ => none
    | _ => none

end

/-- Reads a text. Every token is looked at by at most two calls on the way to it. -/
def parse? (text : String) : Option Json := do
  let tokens ← tokens? text
  let (value, rest) ← value? (2 * tokens.length + 1) tokens
  guard rest.isEmpty
  return value

end Json

end PageMarkup
