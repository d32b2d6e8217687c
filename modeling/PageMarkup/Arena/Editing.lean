import PageMarkup.Arena.Traversal
import PageMarkup.Block.Quote
import PageMarkup.Diagnostic.Fault
import PageMarkup.Directive.Basic
import PageMarkup.Tree.Pruning

/-!
# Editing in an arena

The stages that check, prune and rearrange a page, as they work on an arena. Every loop runs over
numbers that were read before the first change: a number may belong to no node any more when its
turn comes, or to another one.
-/

namespace PageMarkup

namespace Arena

variable {α : Type}

/-- Does something at each of the numbers, one after the other, and gathers what is told. -/
def visit (act : Arena → Nat → Except ArenaFault (Arena × List α)) (arena : Arena) :
    List Nat → Except ArenaFault (Arena × List α)
  | [] => return (arena, [])
  | id :: ids => do
    let (arena, found) ← act arena id
    let (arena, more) ← visit act arena ids
    return (arena, found ++ more)

/-- Does something at each of the numbers, one after the other. -/
def each (act : Arena → Nat → Except ArenaFault Arena) (arena : Arena) :
    List Nat → Except ArenaFault Arena
  | [] => return arena
  | id :: ids => do each act (← act arena id) ids

/-- Changes what the node of a number holds. -/
def update (arena : Arena) (id : Nat) (f : Node → Node) : Except ArenaFault Arena :=
  arena.modify id fun cell => { cell with data := f cell.data }

/-! ## Checking -/

/-- The fault of a node, if it breaks a rule of its kind. -/
def faultAt (arena : Arena) (id : Nat) : Except ArenaFault (Option (Fault Nat)) := do
  let cell ← arena.get id
  let children ← (← arena.children id).mapM arena.get
  if cell.data.kind.singleText ∧ ¬ cell.isLeaf ∧
      ¬ (children.length = 1 ∧ children.all (·.data.kind == .text)) then
    return some (.invalidChildren cell.data.kind.name cell.data.offset)
  else if cell.data.kind.rootOnly ∧ cell.parent ≠ some root then
    return some (.misplacedNode cell.data.kind.name cell.data.offset)
  else if cell.data.kind.flat then
    return (children.find? (·.data.kind.canHaveChildren)).map fun child =>
      .nestedAggregate cell.data.kind.name child.data.kind.name child.data.offset
  else return none

/-- The first fault at the nodes of some numbers. -/
def firstFault (arena : Arena) : List Nat → Except ArenaFault (Option (Fault Nat))
  | [] => return none
  | id :: ids => do
    match ← arena.faultAt id with
    | some fault => return some fault
    | none => firstFault arena ids

/-- The first fault of a document. -/
def check (arena : Arena) : Except ArenaFault (Option (Fault Nat)) := do
  arena.firstFault (← arena.descendants root).tail

/-! ## Pruning -/

/-- Removes a node that must have children and has none. -/
def pruneAt (arena : Arena) (id : Nat) : Except ArenaFault (Arena × List Notice) := do
  let cell ← arena.get id
  if cell.data.kind.needsChildren ∧ cell.isLeaf then
    return (← arena.remove id, [cell.data.emptyNotice])
  else return (arena, [])

/-- Removes empty aggregates, the last one of the document first. -/
def pruneEmpty (arena : Arena) : Except ArenaFault (Arena × List Notice) := do
  arena.visit pruneAt (← arena.descendants root).reverse

/-- Trims a paragraph that lost a child. -/
def settle (arena : Arena) (id : Nat) (data : Node) : Except ArenaFault Arena :=
  if data.kind = .paragraph then arena.trimEdges id else .ok arena

/-- Removes a node that lost its last child, and then its ancestors as long as they lose theirs.
A paragraph is trimmed before it is asked whether it is empty. -/
def climb : Nat → Arena → Option Nat → Except ArenaFault (Arena × List Notice)
  | _, arena, none => return (arena, [])
  | 0, arena, some _ => return (arena, [])
  | fuel + 1, arena, some id => do
    if id = root then return (arena, [])
    let cell ← arena.get id
    if Forest.goesWhenEmpty cell.data then
      let arena ← arena.settle id cell.data
      let cell ← arena.get id
      if cell.isLeaf then
        let (arena, notices) ← climb fuel (← arena.remove id) cell.parent
        return (arena, (Node.emptiedNotice? cell.data).toList ++ notices)
      else return (arena, [])
    else return (arena, [])

/-- Removes a node and the ancestors that are emptied by that. -/
def removeAndPrune (arena : Arena) (id : Nat) : Except ArenaFault (Arena × List Notice) := do
  let parent := (← arena.get id).parent
  climb arena.bound (← arena.remove id) parent

/-! ## Directives -/

/-- Removes a child of the root that is a directive and tells which one. -/
def liftDirective (source : Source) (arena : Arena) (id : Nat) :
    Except ArenaFault (Arena × List Directive) := do
  let cell ← arena.get id
  if cell.data.kind = .aggregate (.line .directive) then
    match cell.data.opener.bind fun opener =>
        (Directive.parseOpening? (source.slice opener)).map fun opening => (opener, opening) with
    | some (opener, opening) =>
      let directive :=
        { name := opening.name
          subname := opening.subname
          argument := Directive.cleanArgument (opening.rest ++ (← arena.textContent id))
          offset := opener.start }
      return (← arena.remove id, [directive])
    | none => return (arena, [])
  else return (arena, [])

/-- Removes the directives of a document and tells them, in order. -/
def liftDirectives (source : Source) (arena : Arena) :
    Except ArenaFault (Arena × List Directive) := do
  arena.visit (liftDirective source) (← arena.children root)

/-! ## Quotes -/

/-- Moves what a quoted line holds to a new paragraph and trims that. -/
def quotedParagraph (arena : Arena) (id : Nat) (span : Span) : Except ArenaFault (Nat × Arena) := do
  let (paragraph, arena) := arena.alloc { kind := .paragraph, span }
  let arena ← arena.moveChildren id paragraph
  return (paragraph, ← arena.trimEdges paragraph)

/-- Lets a quote go on to the end of a quoted line, which is removed. -/
def extendQuote (arena : Arena) (quote id : Nat) (span : Span) : Except ArenaFault Arena := do
  let arena ← arena.update quote fun data => { data with span := data.span.cover span }
  arena.remove id

/-- Links a node as the last child of another. A leaf is removed. -/
def adopt (arena : Arena) (parent child : Nat) : Except ArenaFault Arena := do
  if (← arena.get child).isLeaf then arena.remove child else arena.append parent child

/-- Merges quoted lines that follow each other. `quote` is the quote that goes on with the next
node, if that is a quoted line. -/
def joinQuotes (arena : Arena) (quote : Option Nat) : List Nat → Except ArenaFault Arena
  | [] => return arena
  | id :: ids => do
    let cell ← arena.get id
    if cell.data.kind = .aggregate (.line .blockquote) then
      let (paragraph, arena) ← arena.quotedParagraph id cell.data.span
      match quote with
      | some quote => do
        let arena ← arena.extendQuote quote id cell.data.span
        joinQuotes (← arena.adopt quote paragraph) (some quote) ids
      | none => joinQuotes (← arena.adopt id paragraph) (some id) ids
    else joinQuotes arena none ids

/-- Removes a quote without content. -/
def dropQuote (arena : Arena) (id : Nat) : Except ArenaFault Arena := do
  let cell ← arena.get id
  if cell.data.kind = .aggregate (.line .blockquote) ∧ cell.isLeaf then arena.remove id
  else return arena

/-- Merges quoted lines and drops the quotes without content. -/
def mergeQuotes (arena : Arena) : Except ArenaFault Arena := do
  let arena ← arena.joinQuotes none (← arena.children root)
  arena.each dropQuote (← arena.children root)

/-! ## Paragraphs -/

/-- Removes the newlines at one end of the children of the root. -/
def trimNewlinesAt (outermost : Cell → Option Nat) : Nat → Arena → Except ArenaFault Arena
  | 0, arena => return arena
  | fuel + 1, arena => do
    match outermost (← arena.get root) with
    | none => return arena
    | some child =>
      if (← arena.get child).data.kind = .newline then
        trimNewlinesAt outermost fuel (← arena.remove child)
      else return arena

/-- Removes the newlines at both ends of a document. -/
def trimNewlines (arena : Arena) : Except ArenaFault Arena := do
  let arena ← trimNewlinesAt Cell.first arena.bound arena
  trimNewlinesAt Cell.last arena.bound arena

/-- Smallest span that contains all of the spans. -/
def coverAll : List Span → Span
  | [] => {}
  | span :: spans => spans.foldl Span.cover span

/-- Makes a paragraph of a run of siblings; a blank run is removed. -/
def flush (arena : Arena) : List Nat → Except ArenaFault Arena
  | [] => return arena
  | first :: rest => do
    let cells ← (first :: rest).mapM arena.get
    if cells.all fun cell => cell.data.kind == .text && Text.isBlankText cell.data.text then
      arena.each remove (first :: rest)
    else
      let span := coverAll (cells.map (·.data.span))
      let (paragraph, arena) := arena.alloc { kind := .paragraph, span }
      let arena ← arena.insertBefore first paragraph
      let arena ← arena.each (fun arena id => do (← arena.detach id).append paragraph id)
        (first :: rest)
      arena.trimEdges paragraph

/-- Groups siblings into paragraphs. `run` holds those passed since the last paragraph, in order. -/
def groupParagraphs (arena : Arena) (run : List Nat) : List Nat → Except ArenaFault Arena
  | [] => arena.flush run
  | id :: ids => do
    let cell ← arena.get id
    if cell.data.kind = .newline then
      groupParagraphs (← (← arena.flush run).remove id) [] ids
    else if cell.data.kind.isBlock then groupParagraphs (← arena.flush run) [] ids
    else groupParagraphs arena (run ++ [id]) ids

/-- Groups the children of the root into paragraphs and blocks. -/
def paragraphs (arena : Arena) : Except ArenaFault Arena := do
  arena.groupParagraphs [] (← arena.children root)

end Arena

end PageMarkup
