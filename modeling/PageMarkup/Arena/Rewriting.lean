import PageMarkup.Arena.Editing
import PageMarkup.Block.Heading
import PageMarkup.Link.Embed
import PageMarkup.Note.Basic
import PageMarkup.Tree.Lowering

/-!
# Rewriting in an arena

The stages that resolve notes, links and embeds and make a page ready for output, as they work on
an arena. A node that becomes something else keeps its number and its place.
-/

namespace PageMarkup

namespace Arena

mutual

/-- Stores a tree as the last child of a node, every node before its children. -/
def graftTree (arena : Arena) (parent : Nat) : Tree → Except ArenaFault Arena
  | .node data children => do
    let (id, arena) ← arena.push parent data
    graft arena id children

/-- Stores the trees of a forest as the last children of a node. -/
def graft (arena : Arena) (parent : Nat) : Forest → Except ArenaFault Arena
  | [] => return arena
  | tree :: rest => do graft (← graftTree arena parent tree) parent rest

end

/-- Puts a tree in the place of the tree at a node. -/
def overwrite (arena : Arena) (id : Nat) (tree : Tree) : Except ArenaFault Arena := do
  let arena ← arena.clear id
  let arena ← arena.update id fun _ => tree.data
  arena.graft id tree.children

/-- Those of some numbers whose nodes are of a kind. -/
def ofKind (arena : Arena) (kind : Kind) : List Nat → Except ArenaFault (List Nat)
  | [] => return []
  | id :: ids => do
    let cell ← arena.get id
    let found ← ofKind arena kind ids
    return if cell.data.kind = kind then id :: found else found

/-! ## Notes -/

/-- The name of the note that a node refers to. -/
def noteName (arena : Arena) (id : Nat) : Except ArenaFault String := do
  return Text.trim (← arena.textContent id)

/-- Removes the references to a name that is not defined. -/
def dropUndefined (references : List (String × Nat)) (arena : Arena) :
    List String → Except ArenaFault (Arena × List Notice)
  | [] => return (arena, [])
  | name :: names => do
    let ids := (references.filter (·.1 == name)).map (·.2)
    let offset ← ids.head?.mapM fun id => return (← arena.get id).data.offset
    let (arena, notices) ← arena.visit removeAndPrune ids
    let (arena, more) ← dropUndefined references arena names
    return (arena, ⟨.noteUndefined name, offset⟩ :: notices ++ more)

/-- Rewrites the references to a note, the first of which is the reference at an index. -/
def rewriteReferences (note : Note) (arena : Arena) (index : Nat) :
    List Nat → Except ArenaFault Arena
  | [] => return arena
  | id :: ids => do
    let cell ← arena.get id
    let arena ← arena.overwrite id (note.referenceTree index cell.data)
    rewriteReferences note arena (index + 1) ids

/-- Rewrites the references to notes, note by note. -/
def rewriteNotes (references : List (String × Nat)) (arena : Arena) :
    List Note → Except ArenaFault Arena
  | [] => return arena
  | note :: notes => do
    let ids := (references.filter (·.1 == note.name)).map (·.2)
    rewriteNotes references (← rewriteReferences note arena 0 ids) notes

/-- Resolves the notes of a page, given the directives that define notes. -/
def resolveNotes (definitions : List Directive) (arena : Arena) :
    Except ArenaFault (Arena × List Notice) := do
  let ids ← arena.ofKind (.aggregate (.bracket .noteRef)) (← arena.descendants root)
  let references ← ids.mapM fun id => return (← arena.noteName id, id)
  let names := (references.map (·.1)).eraseDups
  let (selected, definitionNotices) := Note.selectDefinitions names [] definitions
  let undefinedNames := names.filter fun name => !selected.any (·.subname == name)
  let (arena, undefinedNotices) ← dropUndefined references arena undefinedNames
  let notes := Note.collect (references.map (·.1)) selected names
  if notes.isEmpty then return (arena, definitionNotices ++ undefinedNotices)
  else
    let arena ← rewriteNotes references arena notes
    let arena ← arena.graft root (Note.sectionOf notes)
    return (arena,
      definitionNotices ++ undefinedNotices ++ [⟨.notesResolved notes.length, none⟩])

/-! ## Links and embeds -/

/-- Resolves an external link. -/
def resolveLink (arena : Arena) (id : Nat) : Except ArenaFault (Arena × List Notice) := do
  let (target, label) := Link.targetAndLabel (← arena.textContent id)
  let cell ← arena.get id
  if target.isEmpty then
    return (← arena.remove id, [⟨.linkWithoutTarget, some cell.data.offset⟩])
  else
    let element :=
      { tag := "a", attributes := Link.newContextAttributes target, content := some label }
    let arena ← arena.overwrite id (.leaf { cell.data with kind := .ready, element := some element })
    return (arena, [])

/-- Resolves the external links of a page. -/
def resolveLinks (arena : Arena) : Except ArenaFault (Arena × List Notice) := do
  let ids ← arena.ofKind (.aggregate (.bracket .externalLink)) (← arena.descendants root)
  arena.visit resolveLink ids

/-- Resolves an embed. -/
def resolveEmbed (registries : Registries) (arena : Arena) (id : Nat) :
    Except ArenaFault (Arena × List Notice) := do
  let cell ← arena.get id
  let embed := Embed.parse (← arena.textContent id)
  match registries.media? embed.name with
  | none => return (← arena.remove id, [⟨.mediaUnknown embed.name, some cell.data.offset⟩])
  | some media =>
    let (width, notices) := embed.usedWidth cell.data.offset
    return (← arena.overwrite id (embed.figure media width cell.data), notices)

/-- Resolves the embeds of a page. -/
def resolveEmbeds (registries : Registries) (arena : Arena) :
    Except ArenaFault (Arena × List Notice) := do
  let ids ← arena.ofKind (.aggregate (.bracket .embeddedFile)) (← arena.descendants root)
  arena.visit (resolveEmbed registries) ids

/-! ## Lowering -/

/-- Trims a heading and removes it if nothing is left of it. The number may belong to no node any
more, since trimming frees text leaves. -/
def trimHeading (arena : Arena) (id : Nat) : Except ArenaFault (Arena × List Notice) := do
  if (arena.get? id).any (·.data.kind.headingLevel?.isSome) then
    let arena ← arena.trimEdges id
    let cell ← arena.get id
    if cell.isLeaf then
      let (arena, notices) ← arena.removeAndPrune id
      return (arena, cell.data.emptyNotice :: notices)
    else return (arena, [])
  else return (arena, [])

/-- A slugger that knows the fixed ids and those of some nodes. -/
def reservingSlugger (arena : Arena) (ids : List Nat) : Except ArenaFault Slugger := do
  let cells ← ids.mapM arena.get
  let taken := cells.filterMap fun cell => cell.data.element.bind (·.attribute? "id")
  return (Forest.fixedIds ++ taken).eraseDups.foldl Slugger.reserve {}

/-- Gives ids to those of some nodes that are headings. -/
def slugHeadings (slugger : Slugger) (arena : Arena) :
    List Nat → Except ArenaFault (Arena × List Heading)
  | [] => return (arena, [])
  | id :: ids => do
    let cell ← arena.get id
    match cell.data.kind.headingLevel? with
    | some level =>
      let text ← arena.textContent id
      let (slug, slugger) := slugger.next text
      let element := { tag := "h" ++ toString level.number, attributes := [("id", slug)] }
      let arena ← arena.update id fun data => { data with element := some element }
      let (arena, headings) ← slugHeadings slugger arena ids
      return (arena, ⟨level.number, slug, text⟩ :: headings)
    | none => slugHeadings slugger arena ids

/-- Makes a node ready for output, what is below it aside. -/
def lowerAt (arena : Arena) (id : Nat) : Except ArenaFault Arena := do
  let cell ← arena.get id
  let arena ←
    if cell.data.kind = .aggregate (.style .emBold) then
      let (bold, arena) := arena.alloc { kind := .container, element := some { tag := "b" } }
      let arena ← arena.moveChildren id bold
      arena.append id bold
    else pure arena
  arena.update id fun data => (Tree.lowerNode data []).data

/-- Makes a page ready for output and lists its headings. -/
def lower (arena : Arena) : Except ArenaFault (Arena × List Notice × List Heading) := do
  let (arena, notices) ← arena.visit trimHeading (← arena.descendants root)
  let order ← arena.descendants root
  let (arena, headings) ← slugHeadings (← arena.reservingSlugger order) arena order
  return (← arena.each lowerAt order.tail.reverse, notices, headings)

end Arena

end PageMarkup
