import PageMarkup.Directive.Basic

/-!
# Directive tables

The directives of a page that nobody has taken yet, in source order. Each later stage takes the
names it understands. What is left can be looked at by name: the names ascend by code point, and
the directives of one name keep their order.
-/

namespace PageMarkup

/-- Directives in source order. -/
structure DirectiveTable where
  directives : List Directive := []
  deriving DecidableEq, Repr, Inhabited

namespace DirectiveTable

/-- Adds a directive after all others. -/
def insert (table : DirectiveTable) (directive : Directive) : DirectiveTable :=
  ⟨table.directives ++ [directive]⟩

/-- The directives of a name. -/
def named (table : DirectiveTable) (name : String) : List Directive :=
  table.directives.filter (·.name == name)

/-- The table without the directives of a name. -/
def without (table : DirectiveTable) (name : String) : DirectiveTable :=
  ⟨table.directives.filter (·.name != name)⟩

/-- Number of directives. -/
def size (table : DirectiveTable) : Nat := table.directives.length

/-- Whether every directive has been taken. -/
def isEmpty (table : DirectiveTable) : Bool := table.directives.isEmpty

/-- Puts a name into an ascending list of names, once. -/
def insertName (name : String) : List String → List String
  | [] => [name]
  | other :: rest =>
    if name < other then name :: other :: rest
    else if name = other then other :: rest
    else other :: insertName name rest

/-- The names in the table, ascending. -/
def names (table : DirectiveTable) : List String :=
  table.directives.foldr (fun directive names => insertName directive.name names) []

/-- The names in the table, ascending, each with its directives. -/
def entries (table : DirectiveTable) : List (String × List Directive) :=
  table.names.map fun name => (name, table.named name)

/-- A warning for every directive in the table. -/
def unknownNotices (table : DirectiveTable) : List Notice :=
  table.entries.flatMap fun (name, directives) =>
    directives.map fun directive => ⟨.directiveUnknown name, some directive.offset⟩

end DirectiveTable

end PageMarkup
