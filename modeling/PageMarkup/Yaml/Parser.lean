import PageMarkup.Yaml.Basic
import PageMarkup.Yaml.Token

/-!
# Reading YAML

The tokens of a text are read as at most one document, which directives may precede. Where the
grammar allows a value to be left out, the empty plain scalar stands for it.
-/

namespace PageMarkup

namespace Yaml

/-- Whether the next token is one of those given, or there is none. -/
def endsWith (tokens ends : List Token) : Bool :=
  match tokens with
  | [] => true
  | token :: _ => ends.contains token

mutual

/-- Reads a value and returns the tokens after it. Block collections are allowed if `block` holds;
a sequence at the column of the mapping around it, if `indentless` does. -/
def node? (block indentless : Bool) : Nat → List Token → Option (Yaml × List Token)
  | 0, _ => none
  | fuel + 1, tokens =>
    match tokens with
    | .blockEntry :: _ =>
      if indentless then
        (indentlessEntries? fuel tokens).map fun (elements, rest) => (.sequence elements, rest)
      else none
    | .scalar text plain :: rest => some (.scalar text plain, rest)
    | .flowSequenceStart :: rest =>
      (flowElements? true fuel rest).map fun (elements, rest) => (.sequence elements, rest)
    | .flowMappingStart :: rest =>
      (flowMembers? true fuel rest).map fun (entries, rest) => (.mapping entries, rest)
    | .blockSequenceStart :: rest =>
      if block then
        (blockEntries? fuel rest).map fun (elements, rest) => (.sequence elements, rest)
      else none
    | .blockMappingStart :: rest =>
      if block then
        (blockMembers? fuel rest).map fun (entries, rest) => (.mapping entries, rest)
      else none
    | _ => none

/-- Reads a value, or nothing before one of the tokens `ends`. -/
def nodeOrEmpty? (block indentless : Bool) (ends : List Token) :
    Nat → List Token → Option (Yaml × List Token)
  | 0, _ => none
  | fuel + 1, tokens =>
    if endsWith tokens ends then some (empty, tokens) else node? block indentless fuel tokens

/-- Reads the entries of a block sequence up to its end. -/
def blockEntries? : Nat → List Token → Option (List Yaml × List Token)
  | 0, _ => none
  | fuel + 1, tokens =>
    match tokens with
    | .blockEnd :: rest => some ([], rest)
    | .blockEntry :: rest => do
      let (element, rest) ← nodeOrEmpty? true false [.blockEntry, .blockEnd] fuel rest
      let (elements, rest) ← blockEntries? fuel rest
      return (element :: elements, rest)
    | _ => none

/-- Reads the entries of a sequence that has no indentation of its own. -/
def indentlessEntries? : Nat → List Token → Option (List Yaml × List Token)
  | 0, _ => none
  | fuel + 1, tokens =>
    match tokens with
    | .blockEntry :: rest => do
      let (element, rest) ←
        nodeOrEmpty? true false [.blockEntry, .key, .value, .blockEnd] fuel rest
      let (elements, rest) ← indentlessEntries? fuel rest
      return (element :: elements, rest)
    | _ => some ([], tokens)

/-- Reads the entries of a block mapping up to its end. -/
def blockMembers? : Nat → List Token → Option (List (Yaml × Yaml) × List Token)
  | 0, _ => none
  | fuel + 1, tokens =>
    match tokens with
    | .blockEnd :: rest => some ([], rest)
    | .key :: rest => do
      let (key, rest) ← nodeOrEmpty? true true [.key, .value, .blockEnd] fuel rest
      let (value, rest) ←
        match rest with
        | .value :: rest => nodeOrEmpty? true true [.key, .value, .blockEnd] fuel rest
        | _ => some (empty, rest)
      let (entries, rest) ← blockMembers? fuel rest
      return ((key, value) :: entries, rest)
    | _ => none

/-- Reads the elements of a flow sequence up to its end. A comma stands before every element but
the first. An element may be a single entry of a mapping. -/
def flowElements? (first : Bool) : Nat → List Token → Option (List Yaml × List Token)
  | 0, _ => none
  | fuel + 1, tokens =>
    match tokens, first with
    | .flowSequenceEnd :: rest, _ => some ([], rest)
    | .flowEntry :: .flowSequenceEnd :: rest, false => some ([], rest)
    | .flowEntry :: rest, false => flowElement? fuel rest
    | _, true => flowElement? fuel tokens
    | _, false => none

/-- Reads an element of a flow sequence and those after it. Where a question mark has no key after
it, the token that shows so is passed over. -/
def flowElement? : Nat → List Token → Option (List Yaml × List Token)
  | 0, _ => none
  | fuel + 1, tokens => do
    let (element, rest) ←
      match tokens with
      | .key :: rest => do
        let (key, rest) ←
          match rest with
          | .value :: rest | .flowEntry :: rest | .flowSequenceEnd :: rest => some (empty, rest)
          | _ => node? false false fuel rest
        let (value, rest) ←
          match rest with
          | .value :: rest =>
            nodeOrEmpty? false false [.flowEntry, .flowSequenceEnd] fuel rest
          | _ => some (empty, rest)
        some (.mapping [(key, value)], rest)
      | _ => node? false false fuel tokens
    let (elements, rest) ← flowElements? false fuel rest
    return (element :: elements, rest)

/-- Reads the entries of a flow mapping up to its end. -/
def flowMembers? (first : Bool) : Nat → List Token → Option (List (Yaml × Yaml) × List Token)
  | 0, _ => none
  | fuel + 1, tokens =>
    match tokens, first with
    | .flowMappingEnd :: rest, _ => some ([], rest)
    | .flowEntry :: .flowMappingEnd :: rest, false => some ([], rest)
    | .flowEntry :: rest, false => flowMember? fuel rest
    | _, true => flowMember? fuel tokens
    | _, false => none

/-- Reads an entry of a flow mapping and those after it. A key may stand without a value. -/
def flowMember? : Nat → List Token → Option (List (Yaml × Yaml) × List Token)
  | 0, _ => none
  | fuel + 1, tokens => do
    let (entry, rest) ←
      match tokens with
      | .key :: rest => do
        let (key, rest) ←
          nodeOrEmpty? false false [.value, .flowEntry, .flowMappingEnd] fuel rest
        match rest with
        | .value :: rest => do
          let (value, rest) ←
            nodeOrEmpty? false false [.flowEntry, .flowMappingEnd] fuel rest
          some ((key, value), rest)
        | _ => some ((key, empty), rest)
      | _ => (node? false false fuel tokens).map fun (key, rest) => ((key, empty), rest)
    let (entries, rest) ← flowMembers? false fuel rest
    return (entry :: entries, rest)

end

/-- Reads the value of a document, given the tokens after its start. After an explicit start it may
be left out. -/
def documentValue? (explicit : Bool) (tokens : List Token) : Option (Yaml × List Token) :=
  let fuel := 4 * tokens.length + 4
  if explicit then nodeOrEmpty? true false [.documentStart, .documentEnd] fuel tokens
  else node? true false fuel tokens

/-- The directives at the head of the tokens, and the tokens after them. -/
def splitDirectives : List Token → List Directive × List Token
  | .directive directive :: rest =>
    let (directives, rest) := splitDirectives rest
    (directive :: directives, rest)
  | tokens => ([], tokens)

/-- Reads a text. A text without any document is `some none`. After directives the document must
have an explicit start. -/
def parse? (text : String) : Option (Option Yaml) := do
  match ← tokens? text with
  | [] => return none
  | tokens =>
    let (directives, rest) := splitDirectives tokens
    guard (Directive.Accepted directives)
    let (value, rest) ←
      match rest with
      | .documentStart :: rest => documentValue? true rest
      | _ => if directives.isEmpty then documentValue? false rest else none
    guard (rest.all (· == .documentEnd))
    return some value

end Yaml

end PageMarkup
