import PageMarkup.Diagnostic.Notice
import PageMarkup.Directive.Basic
import PageMarkup.Note.Letters
import PageMarkup.Slug
import PageMarkup.Tree.Pruning

/-!
# Notes

A page refers to a note by its name in braces and defines it by a directive. A name that is both
referred to and defined is resolved: its references become links to an entry of the notes section,
and the entry links back to each of them. References to a name that is never defined are taken out
of the page.

Names are paired in order of their first reference. Of several definitions of a name the first one
counts.
-/

namespace PageMarkup

/-- A note with everything its references and its entry need. -/
structure Note where
  name : String
  /-- The form of the name in ids. -/
  anchor : String
  /-- Number of references. -/
  references : Nat
  definition : String
  deriving DecidableEq, Repr

namespace Tree

/-- Whether the tree refers to a note. -/
def isNoteRef (tree : Tree) : Bool := tree.kind == .aggregate (.bracket .noteRef)

/-- The name of the note that a tree refers to. -/
def noteName (tree : Tree) : String := Text.trim tree.textContent

/-- Whether the tree refers to the note of the name. -/
def refersTo (name : String) (tree : Tree) : Bool := tree.isNoteRef && tree.noteName == name

end Tree

namespace Note

/-- The names that a forest refers to, one for each reference, in order. -/
def referenceNames (forest : Forest) : List String :=
  (forest.subtrees.filter Tree.isNoteRef).map Tree.noteName

/-- Sorts out definitions: the first one of each name in `names`, and a warning for every other.
`known` holds the names defined so far. -/
def selectDefinitions (names known : List String) : List Directive → List Directive × List Notice
  | [] => ([], [])
  | definition :: rest =>
    let name := definition.subname
    if ¬ names.contains name then
      let (selected, notices) := selectDefinitions names known rest
      (selected, ⟨.noteUnreferenced name, some definition.offset⟩ :: notices)
    else if known.contains name then
      let (selected, notices) := selectDefinitions names known rest
      (selected, ⟨.noteRepeated name, some definition.offset⟩ :: notices)
    else
      let (selected, notices) := selectDefinitions names (name :: known) rest
      (definition :: selected, notices)

/-- Takes the references to each of the names out of a forest. The warning about a name points at
its first reference; warnings about what is emptied by that follow it. -/
def dropUndefined : List String → Forest → Forest × List Notice
  | [], forest => (forest, [])
  | name :: names, forest =>
    let first := forest.subtrees.find? (Tree.refersTo name)
    let (kept, removals) := forest.removeWhere (Tree.refersTo name)
    let (rest, notices) := dropUndefined names kept
    (rest, ⟨.noteUndefined name, first.map (·.data.offset)⟩
      :: removals.flatMap Removal.notices ++ notices)

/-- Anchors of names, drawn one after the other. -/
def anchors (slugger : Slugger) : List String → List String
  | [] => []
  | name :: rest =>
    let (anchor, slugger) := slugger.next name
    anchor :: anchors slugger rest

/-- The notes of the names that have a definition. -/
def collect (references : List String) (definitions : List Directive) (names : List String) :
    List Note :=
  let defined := names.filterMap fun name =>
    (definitions.find? (·.subname == name)).map fun definition => (name, definition.argument)
  (defined.zip (anchors {} (defined.map (·.1)))).map fun ((name, argument), anchor) =>
    ⟨name, anchor, references.count name, argument⟩

/-- Id of the reference at an index. -/
def referenceId (note : Note) (index : Nat) : String :=
  "ref-" ++ note.anchor ++ "-" ++ backlinkLetters index

/-- Id of the entry in the notes section. -/
def entryId (note : Note) : String := "bottom-ref-" ++ note.anchor

/-- What the reference at an index becomes: a raised link to the entry. -/
def referenceTree (note : Note) (index : Nat) (data : Node) : Tree :=
  .node
    { data with
      kind := .container
      element := some
        { tag := "sup"
          attributes := [("id", note.referenceId index), ("class", "article-ref")] } }
    [.elementLeaf
      { tag := "a"
        attributes := [("href", "#" ++ note.entryId)]
        content := some ("[" ++ note.name ++ "]") }]

end Note

namespace Tree

mutual

/-- A tree with the references to the notes rewritten. `seen` holds the names of the references
passed so far, latest first. -/
def rewriteNoteRefs (notes : List Note) (seen : List String) : Tree → Tree × List String
  | .node data children =>
    let tree := Tree.node data children
    if tree.isNoteRef then
      match notes.find? (·.name == tree.noteName) with
      | some note => (note.referenceTree (seen.count note.name) data, note.name :: seen)
      | none => (tree, seen)
    else
      let (inner, seen) := forestRewriteNoteRefs notes seen children
      (.node data inner, seen)

/-- A forest with the references to the notes rewritten. -/
def forestRewriteNoteRefs (notes : List Note) (seen : List String) :
    Forest → Forest × List String
  | [] => ([], seen)
  | tree :: rest =>
    let (first, seen) := rewriteNoteRefs notes seen tree
    let (others, seen) := forestRewriteNoteRefs notes seen rest
    (first :: others, seen)

end

end Tree

namespace Note

/-- The links from an entry back to its references, each with a space after it. A single reference
needs no letter. -/
def backlinks (note : Note) : Forest :=
  (List.range note.references).flatMap fun index =>
    [ .elementLeaf
        { tag := "a"
          attributes := [("href", "#" ++ note.referenceId index)]
          content := some (if note.references = 1 then "^" else backlinkLetters index) }
    , .textLeaf " " ]

/-- The entry of a note: its name, the back links and the definition. -/
def entry (note : Note) : Tree :=
  .container
    { tag := "div", attributes := [("class", "bottom-ref"), ("id", note.entryId)] }
    [ .elementLeaf { tag := "div", content := some (note.name ++ ":") }
    , .container { tag := "div" } (note.backlinks ++ [.textLeaf note.definition]) ]

/-- The notes section: a heading and a list of entries. -/
def sectionOf (notes : List Note) : Forest :=
  [ .node { kind := .aggregate (.style (.heading .two)) }
      [.leaf { kind := .text, text := "Notes" }]
  , .container { tag := "div", attributes := [("id", "bottom-refs")] } (notes.map entry) ]

/-- Resolves the notes of a page, given the directives that define notes. -/
def resolve (definitions : List Directive) (forest : Forest) : Forest × List Notice :=
  let references := referenceNames forest
  let names := references.eraseDups
  let (selected, definitionNotices) := selectDefinitions names [] definitions
  let undefinedNames := names.filter fun name => !selected.any (·.subname == name)
  let (kept, undefinedNotices) := dropUndefined undefinedNames forest
  let notes := collect references selected names
  if notes.isEmpty then (kept, definitionNotices ++ undefinedNotices)
  else
    let (rewritten, _) := Tree.forestRewriteNoteRefs notes [] kept
    (rewritten ++ sectionOf notes,
      definitionNotices ++ undefinedNotices ++ [⟨.notesResolved notes.length, none⟩])

end Note

end PageMarkup
