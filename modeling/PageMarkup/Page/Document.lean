import PageMarkup.Block.Heading
import PageMarkup.Page.Metadata
import PageMarkup.Tree.Outline

/-!
# Documents

What a page is compiled to: its title and the heading that shows it, the body, and everything that
the directives and the headings say about the page.
-/

namespace PageMarkup

/-- A compiled page. -/
structure Document where
  title : PageTitle
  body : Forest
  /-- Contributors in the order of their directives. -/
  contributors : List Contributor
  flags : PageFlags
  /-- Commands in lower case. -/
  commands : List String
  /-- The headings of the body, in order. -/
  headings : List Heading
  /-- The directives that mean nothing. -/
  unresolved : DirectiveTable
  deriving Repr

namespace Document

/-- The tree of a page: the heading that shows the title and the body, under the root. -/
def tree (document : Document) : Tree :=
  .node { kind := .documentRoot } (document.title.heading :: document.body)

/-- The heading that shows the title. -/
def titleHtml (document : Document) : String := document.title.heading.html

/-- The body, without the title. -/
def html (document : Document) : String := document.body.html

/-- The contributor whose credit can be made red. -/
def blueContributor : String := "BlueStrategosJ"

/-- The red that takes the place of the contributor's colour. -/
def red : String := "f77"

/-- The colour that a page forces on the credit of a contributor. -/
def forcedColor (flags : PageFlags) (contributor : Contributor) : Option String :=
  if flags.makeBlueRed ∧ Text.eqIgnoringAsciiCase contributor.username blueContributor then
    some red
  else none

/-- Joins credits to a sentence: `a, b and c.` -/
def joinCredits (credits : List String) : String :=
  match credits.getLast? with
  | none => ""
  | some last =>
    match credits.dropLast with
    | [] => last ++ "."
    | others => ", ".intercalate others ++ " and " ++ last ++ "."

/-- The credits of all contributors, empty without any. -/
def creditsHtml (document : Document) : String :=
  joinCredits <| document.contributors.map fun contributor =>
    contributor.creditHtml (forcedColor document.flags contributor)

end Document

end PageMarkup
