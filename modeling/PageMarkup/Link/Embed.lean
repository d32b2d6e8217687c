import PageMarkup.Link.External
import PageMarkup.Registry.Lookup

/-!
# Embedded media

The content of an embed is the name of a media file and arguments between bars, in any order: a
number is a width in percent, `left` or `right` a side, anything else the caption. Of several
arguments of one sort the last one counts.

An embed becomes a figure with a link to the file around the image. Unknown files are taken out,
and a width that is no percentage is brought into range.
-/

namespace PageMarkup

/-- The side an embed floats to. -/
inductive Align where
  | left
  | right
  deriving DecidableEq, Repr

/-- The word for a side. -/
def Align.name : Align → String
  | .left => "left"
  | .right => "right"

/-- What an embed says. -/
structure Embed where
  name : String
  /-- Width in percent as it was written. -/
  width : Option Nat := none
  align : Align := .right
  caption : Option String := none
  deriving DecidableEq, Repr

namespace Embed

/-- Largest number that is read as a width. -/
def widthLimit : Nat := 4294967295

/-- The number written with decimal digits. -/
def decimalValue (digits : List Char) : Nat :=
  digits.foldl (fun value digit => 10 * value + (digit.toNat - '0'.toNat)) 0

/-- Reads a width: decimal digits, a plus sign before them allowed. -/
def parseWidth? (argument : String) : Option Nat :=
  let digits := (Text.dropLeading '+' argument).toList
  if digits ≠ [] ∧ digits.all Char.isDigit ∧ decimalValue digits ≤ widthLimit then
    some (decimalValue digits)
  else none

/-- Takes one more argument into account. -/
def withArgument (embed : Embed) (argument : String) : Embed :=
  match parseWidth? argument with
  | some width => { embed with width := some width }
  | none =>
    if Text.eqIgnoringAsciiCase argument "left" then { embed with align := .left }
    else if Text.eqIgnoringAsciiCase argument "right" then { embed with align := .right }
    else { embed with caption := some argument }

/-- The arguments after a name, trimmed; blank ones are left out. -/
def arguments (rest : String) : List String :=
  ((Text.splitOnChar '|' (Text.dropLeading '|' (Text.trimStart rest))).map Text.trim).filter
    (!·.isEmpty)

/-- Reads the content of an embed. The name ends at a bar or at white space. -/
def parse (content : String) : Embed :=
  let (name, rest) := Text.splitBefore (fun c => c == '|' || Text.isBlank c) (Text.trim content)
  (arguments rest).foldl withArgument { name }

/-- Width of an embed that gives none. -/
def defaultWidth : Nat := 30

/-- The width of an embed in percent and, if it was out of range, a warning. -/
def usedWidth (embed : Embed) (offset : Nat) : Nat × List Notice :=
  match embed.width with
  | none => (defaultWidth, [])
  | some width =>
    let used := min (max width 1) 100
    if used = width then (width, [])
    else (used, [⟨.widthOutOfRange width embed.name used, some offset⟩])

/-- The figure of an embed. It keeps what the node of the embed holds. -/
def figure (embed : Embed) (media : Media) (width : Nat) (data : Node) : Tree :=
  let caption := embed.caption.getD media.description
  .node
    { data with
      kind := .container
      element := some
        { tag := "figure"
          attributes :=
            [ ("class", "embedded-file float-" ++ embed.align.name)
            , ("style", "width:" ++ toString width ++ "%") ] } }
    [ .container { tag := "a", attributes := Link.newContextAttributes media.link }
        [.elementLeaf { tag := "img", attributes := [("src", media.link), ("alt", caption)] }]
    , .elementLeaf { tag := "figcaption", content := some caption } ]

/-- What takes the place of an embed. -/
def resolve? (registries : Registries) (tree : Tree) : Option (Forest × List Notice) :=
  if tree.kind = .aggregate (.bracket .embeddedFile) then
    let embed := parse tree.textContent
    let offset := tree.data.offset
    match registries.media? embed.name with
    | none => some ([], [⟨.mediaUnknown embed.name, some offset⟩])
    | some media =>
      let (width, notices) := embed.usedWidth offset
      some ([embed.figure media width tree.data], notices)
  else none

/-- Resolves the embeds of a page. -/
def resolveAll (registries : Registries) (forest : Forest) : Forest × List Notice :=
  Tree.forestExpand (resolve? registries) forest

end Embed

end PageMarkup
