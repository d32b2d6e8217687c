import PageMarkup.Arena.Building
import PageMarkup.Arena.Rewriting
import PageMarkup.Page.Basic

/-!
# Compiling in an arena

The passes over a page that is kept in an arena, in place and node by node. A run can end in two
ways that are no success: the page has a fault, or the arena is used where no node is.
-/

namespace PageMarkup

/-- The title of a page that is kept in an arena: its text and the node that shows it. -/
structure NumberedTitle where
  text : String
  id : Nat
  deriving DecidableEq, Repr

/-- A page on its way to a document that is kept in an arena. -/
structure ArenaDraft where
  arena : Arena
  /-- Directives that no pass has taken yet. -/
  directives : DirectiveTable := {}
  flags : PageFlags := {}
  commands : List String := []
  title : Option NumberedTitle := none
  contributors : List Contributor := []
  headings : List Heading := []
  deriving Repr

namespace ArenaDraft

/-- How a stage ends unless the arena is misused: with a fault, or with a draft and notices. -/
abbrev Outcome := Except (Fault Nat) (ArenaDraft × List Notice)

/-- The draft with another arena. -/
def withArena (draft : ArenaDraft) : Arena × List Notice → Outcome
  | (arena, notices) => .ok ({ draft with arena }, notices)

/-- Checks the structure. -/
def validate (draft : ArenaDraft) : Except ArenaFault Outcome := do
  match ← draft.arena.check with
  | some fault => return .error fault
  | none => return .ok (draft, [])

/-- Moves the directives from the arena to the table. -/
def liftDirectives (source : Source) (draft : ArenaDraft) : Except ArenaFault Outcome := do
  let (arena, found) ← draft.arena.liftDirectives source
  return .ok
    ({ draft with arena, directives := ⟨found⟩ },
      found.map fun directive => ⟨.directiveFound directive.name, some directive.offset⟩)

/-- Reads the switches. -/
def readFlags (draft : ArenaDraft) : Outcome :=
  .ok
    ({ draft with
        flags := .ofTable draft.directives
        directives := draft.directives.withoutFlags },
      Flag.all.flatMap (Flag.notices draft.directives))

/-- Reads the commands. -/
def readCommands (draft : ArenaDraft) : Outcome :=
  let found := draft.directives.named Command.directive
  .ok
    ({ draft with
        commands := Command.ofDirectives found
        directives := draft.directives.without Command.directive },
      Command.notices found)

/-- Reads the title and puts the heading that shows it in front of the page. -/
def readTitle (draft : ArenaDraft) : Except ArenaFault Outcome := do
  let found := draft.directives.named PageTitle.directive
  match PageTitle.ofDirectives? draft.flags.centerTitle found with
  | none => return .error .missingTitle
  | some (title, notices) =>
    let (id, arena) := draft.arena.alloc title.heading.data
    let arena ← arena.prepend Arena.root id
    return .ok
      ({ draft with
          arena
          title := some ⟨title.text, id⟩
          directives := draft.directives.without PageTitle.directive },
        notices)

/-- Looks up the contributors. -/
def readContributors (registries : Registries) (draft : ArenaDraft) : Outcome :=
  let (contributors, notices) :=
    Contributor.ofDirectives registries [] (draft.directives.named Contributor.directive)
  .ok
    ({ draft with
        contributors
        directives := draft.directives.without Contributor.directive },
      notices)

/-- Resolves the notes. -/
def resolveNotes (draft : ArenaDraft) : Except ArenaFault Outcome := do
  let (arena, notices) ← draft.arena.resolveNotes (draft.directives.named Directive.noteName)
  return .ok
    ({ draft with arena, directives := draft.directives.without Directive.noteName }, notices)

/-- Makes the page ready for output and lists the headings. -/
def lower (draft : ArenaDraft) : Except ArenaFault Outcome := do
  let (arena, notices, headings) ← draft.arena.lower
  return .ok ({ draft with arena, headings }, notices)

/-- Runs a pass on a draft. -/
def run (source : Source) (registries : Registries) (draft : ArenaDraft) :
    Pass → Except ArenaFault Outcome
  | .validate => draft.validate
  | .prune => return draft.withArena (← draft.arena.pruneEmpty)
  | .directives => draft.liftDirectives source
  | .blockquotes => return draft.withArena (← draft.arena.mergeQuotes, [])
  | .trim => return draft.withArena (← draft.arena.trimNewlines, [])
  | .paragraphs => return draft.withArena (← draft.arena.paragraphs, [])
  | .flags => return draft.readFlags
  | .commands => return draft.readCommands
  | .title => draft.readTitle
  | .contributors => return draft.readContributors registries
  | .notes => draft.resolveNotes
  | .externalLinks => return draft.withArena (← draft.arena.resolveLinks)
  | .embeddedFiles => return draft.withArena (← draft.arena.resolveEmbeds registries)
  | .lowering => draft.lower
  | .residualDirectives => return .ok (draft, draft.directives.unknownNotices)

/-- Runs passes one after the other until one of them fails. -/
def runPasses (source : Source) (registries : Registries) :
    List Pass → ArenaDraft →
      Except ArenaFault (List Happening × Except (Fault Nat) ArenaDraft)
  | [], draft => return ([], .ok draft)
  | pass :: passes, draft => do
    match ← draft.run source registries pass with
    | .error fault => return ([], .error fault)
    | .ok (next, notices) =>
      let (happenings, outcome) ← runPasses source registries passes next
      return (notices.map .noted ++ .passed pass :: happenings, outcome)

/-- The title of a draft that went through all passes, and the draft. -/
def finish (draft : ArenaDraft) : Except (Fault Nat) (String × ArenaDraft) :=
  match draft.title with
  | none => .error .missingTitle
  | some title => .ok (title.text, draft)

end ArenaDraft

/-- Compiles a source in an arena; faults of the page are told by offset. -/
def Source.compileInArena (source : Source) (registries : Registries) :
    Except ArenaFault (List Happening × Except (Fault Nat) ArenaDraft) := do
  if source.isEmpty then return ([], .error .emptyInput)
  else
    match ← Arena.build source.lexemes with
    | .error fault => return ([], .error fault)
    | .ok arena =>
      let (happenings, outcome) ← ArenaDraft.runPasses source registries Pass.inOrder { arena }
      let built := .noted ⟨.treeBuilt arena.size, none⟩
      match outcome.bind ArenaDraft.finish with
      | .error fault => return (built :: happenings, .error fault)
      | .ok (title, draft) =>
        return (built :: happenings ++ [.noted ⟨.pageParsed title, none⟩], .ok draft)

end PageMarkup
