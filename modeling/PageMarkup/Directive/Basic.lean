import PageMarkup.Diagnostic.Notice
import PageMarkup.Source
import PageMarkup.Text.Blank
import PageMarkup.Tree.Basic

/-!
# Directives

A directive is a line that starts with an exclamation mark, a name and an argument: `!title A page`
or `!title=A page`. Names that start with `note` define a note; what follows `note` is the name of
the note.
-/

namespace PageMarkup

/-- A directive of a page. -/
structure Directive where
  name : String
  /-- The name of the note that a note directive defines; empty for any other directive. -/
  subname : String
  argument : String
  /-- Offset of the exclamation mark. -/
  offset : Nat
  deriving DecidableEq, Repr, Inhabited

/-- What the marker of a directive says. -/
structure DirectiveOpening where
  name : String
  subname : String
  /-- What follows the name in the marker. -/
  rest : String
  deriving DecidableEq, Repr

namespace Directive

/-- The name shared by all directives that define a note. -/
def noteName : String := "note"

/-- Reads a marker: the name goes up to an equals sign or white space. -/
def parseOpening? (marker : String) : Option DirectiveOpening :=
  match marker.toList with
  | '!' :: body =>
    let (fullName, rest) := Text.splitBefore (fun c => c == '=' || Text.isBlank c)
      (String.ofList body)
    match noteName.toList.isPrefixOf? fullName.toList with
    | some subname => some ⟨noteName, String.ofList subname, rest⟩
    | none => some ⟨fullName, "", rest⟩
  | _ => none

/-- The argument proper: without white space around it and without one leading equals sign. -/
def cleanArgument (raw : String) : String := Text.trim (Text.dropLeading '=' (Text.trimStart raw))

/-- The directive that a tree of a document is, if it is one. -/
def ofTree? (source : Source) (tree : Tree) : Option Directive :=
  if tree.kind = .aggregate (.line .directive) then
    tree.data.opener.bind fun opener =>
      (parseOpening? (source.slice opener)).map fun opening =>
        { name := opening.name
          subname := opening.subname
          argument := cleanArgument (opening.rest ++ tree.textContent)
          offset := opener.start }
  else none

/-- The trees of a document that are no directives. -/
def body (source : Source) (forest : Forest) : Forest :=
  forest.filter fun tree => (ofTree? source tree).isNone

/-- The directives of a document, in order. -/
def ofForest (source : Source) (forest : Forest) : List Directive :=
  forest.filterMap (ofTree? source)

end Directive

end PageMarkup
