import PageMarkup.Directive.Table
import PageMarkup.Registry.Lookup

/-!
# Metadata

What directives say about a page as a whole: switches, names of commands that lead to the page, its
title and its contributors. Each part is read from the directives of its names alone.
-/

namespace PageMarkup

/-- Switches of a page. -/
inductive Flag where
  | centerTitle
  | makeBlueRed
  | noSearchIndex
  | noEdit
  deriving DecidableEq, Repr

namespace Flag

/-- The directive that sets the switch. -/
def directive : Flag → String
  | .centerTitle => "center_title"
  | .makeBlueRed => "make_blue_red"
  | .noSearchIndex => "nosearchindex"
  | .noEdit => "noedit"

/-- The switches in the order in which they are read. -/
def all : List Flag := [.centerTitle, .makeBlueRed, .noSearchIndex, .noEdit]

/-- A warning for every directive that sets a switch again. -/
def notices (table : DirectiveTable) (flag : Flag) : List Notice :=
  (table.named flag.directive).tail.map fun directive =>
    ⟨.flagRepeated flag.directive, some directive.offset⟩

end Flag

/-- The settings of all switches. -/
structure PageFlags where
  centerTitle : Bool := false
  noSearchIndex : Bool := false
  noEdit : Bool := false
  makeBlueRed : Bool := false
  deriving DecidableEq, Repr, Inhabited

namespace PageFlags

/-- Reads the switches: a switch is on if there is a directive of its name. -/
def ofTable (table : DirectiveTable) : PageFlags :=
  let isSet (flag : Flag) : Bool := !(table.named flag.directive).isEmpty
  { centerTitle := isSet .centerTitle
    noSearchIndex := isSet .noSearchIndex
    noEdit := isSet .noEdit
    makeBlueRed := isSet .makeBlueRed }

end PageFlags

namespace DirectiveTable

/-- A table without the directives of the switches. -/
def withoutFlags (table : DirectiveTable) : DirectiveTable :=
  Flag.all.foldl (fun table flag => table.without flag.directive) table

end DirectiveTable

namespace Command

/-- The directive that names a command. -/
def directive : String := "command"

/-- The command of an argument: trimmed and in lower case. -/
def ofArgument (argument : String) : String := Text.lower (Text.trim argument)

/-- The commands of directives; empty ones are left out. -/
def ofDirectives (directives : List Directive) : List String :=
  (directives.map fun directive => ofArgument directive.argument).filter (!·.isEmpty)

/-- A warning for every empty command. -/
def notices (directives : List Directive) : List Notice :=
  (directives.filter fun directive => (ofArgument directive.argument).isEmpty).map
    fun directive => ⟨.commandEmpty, some directive.offset⟩

end Command

/-- The title of a page and the heading that shows it. -/
structure PageTitle where
  text : String
  heading : Tree
  deriving Repr

namespace PageTitle

/-- The directive that gives the title. -/
def directive : String := "title"

/-- The title of a directive. -/
def ofDirective (centered : Bool) (directive : Directive) : PageTitle :=
  { text := directive.argument
    heading := .leaf
      { kind := .ready
        span := ⟨directive.offset, directive.offset⟩
        element := some
          { tag := "h1"
            attributes := ("id", "article-title")
              :: if centered then [("class", "article-title-centered")] else []
            content := some directive.argument } } }

/-- The title of a page: that of the first directive. There are warnings about all others, and then
about an empty title. -/
def ofDirectives? (centered : Bool) : List Directive → Option (PageTitle × List Notice)
  | [] => none
  | first :: others =>
    some
      (ofDirective centered first,
        others.map (fun other => ⟨.titleRepeated, some other.offset⟩)
          ++ if first.argument.isEmpty then [⟨.titleEmpty, some first.offset⟩] else [])

end PageTitle

namespace Contributor

/-- The directive that credits a contributor. -/
def directive : String := "contributor"

/-- Looks up the contributors of directives after those already `known`, each once. -/
def ofDirectives (registries : Registries) (known : List Contributor) :
    List Directive → List Contributor × List Notice
  | [] => (known, [])
  | directive :: rest =>
    let name := directive.argument
    let (known, notices) :=
      match registries.contributor? name with
      | none => (known, [⟨.contributorUnknown name, some directive.offset⟩])
      | some contributor =>
        if known.any (·.username == contributor.username) then
          (known, [⟨.contributorRepeated name, some directive.offset⟩])
        else (known ++ [contributor], [])
    let (all, more) := ofDirectives registries known rest
    (all, notices ++ more)

end Contributor

end PageMarkup
