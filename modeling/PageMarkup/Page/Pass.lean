import PageMarkup.Block.Paragraph
import PageMarkup.Block.Quote
import PageMarkup.Link.Embed
import PageMarkup.Note.Basic
import PageMarkup.Page.Document
import PageMarkup.Tree.Lowering
import PageMarkup.Tree.Structure

/-!
# Passes

A page is compiled in passes over a draft. Each pass is a function from drafts to drafts that may
leave notices; two of them can fail, the check of the structure and the title. Later passes rely on
what earlier ones established, so their order is part of the language.
-/

namespace PageMarkup

/-- A page on its way to a document. -/
structure Draft where
  body : Forest
  /-- Directives that no pass has taken yet. -/
  directives : DirectiveTable := {}
  flags : PageFlags := {}
  commands : List String := []
  title : Option PageTitle := none
  contributors : List Contributor := []
  headings : List Heading := []
  deriving Repr

/-- The passes. -/
inductive Pass where
  | validate
  | prune
  | directives
  | blockquotes
  | trim
  | paragraphs
  | flags
  | commands
  | title
  | contributors
  | notes
  | externalLinks
  | embeddedFiles
  | lowering
  | residualDirectives
  deriving DecidableEq, Repr

namespace Pass

/-- Name of a pass in logs. -/
def name : Pass → String
  | .validate => "validate"
  | .prune => "prune"
  | .directives => "directives"
  | .blockquotes => "blockquotes"
  | .trim => "trim"
  | .paragraphs => "paragraphs"
  | .flags => "flags"
  | .commands => "commands"
  | .title => "title"
  | .contributors => "contributors"
  | .notes => "notes"
  | .externalLinks => "external_links"
  | .embeddedFiles => "embedded_files"
  | .lowering => "lowering"
  | .residualDirectives => "residual_directives"

/-- The passes in the order in which they run. -/
def inOrder : List Pass :=
  [.validate, .prune, .directives, .blockquotes, .trim, .paragraphs, .flags, .commands, .title,
   .contributors, .notes, .externalLinks, .embeddedFiles, .lowering, .residualDirectives]

end Pass

namespace Draft

/-- Removes empty aggregates. -/
def prune (draft : Draft) : Draft × List Notice :=
  let (body, notices) := draft.body.pruneEmpty
  ({ draft with body }, notices)

/-- Moves the directives from the body to the table. -/
def liftDirectives (source : Source) (draft : Draft) : Draft × List Notice :=
  let found := Directive.ofForest source draft.body
  ({ draft with body := Directive.body source draft.body, directives := ⟨found⟩ },
    found.map fun directive => ⟨.directiveFound directive.name, some directive.offset⟩)

/-- Reads the switches. -/
def readFlags (draft : Draft) : Draft × List Notice :=
  ({ draft with
      flags := .ofTable draft.directives
      directives := draft.directives.withoutFlags },
    Flag.all.flatMap (Flag.notices draft.directives))

/-- Reads the commands. -/
def readCommands (draft : Draft) : Draft × List Notice :=
  let found := draft.directives.named Command.directive
  ({ draft with
      commands := Command.ofDirectives found
      directives := draft.directives.without Command.directive },
    Command.notices found)

/-- Reads the title, which every page must have. -/
def readTitle (draft : Draft) : Except (Fault Nat) (Draft × List Notice) :=
  let found := draft.directives.named PageTitle.directive
  match PageTitle.ofDirectives? draft.flags.centerTitle found with
  | none => .error .missingTitle
  | some (title, notices) =>
    .ok
      ({ draft with
          title := some title
          directives := draft.directives.without PageTitle.directive },
        notices)

/-- Looks up the contributors. -/
def readContributors (registries : Registries) (draft : Draft) : Draft × List Notice :=
  let (contributors, notices) :=
    Contributor.ofDirectives registries [] (draft.directives.named Contributor.directive)
  ({ draft with
      contributors
      directives := draft.directives.without Contributor.directive },
    notices)

/-- Resolves the notes. -/
def resolveNotes (draft : Draft) : Draft × List Notice :=
  let (body, notices) := Note.resolve (draft.directives.named Directive.noteName) draft.body
  ({ draft with body, directives := draft.directives.without Directive.noteName }, notices)

/-- Resolves the external links. -/
def resolveLinks (draft : Draft) : Draft × List Notice :=
  let (body, notices) := Link.resolveExternals draft.body
  ({ draft with body }, notices)

/-- Resolves the embeds. -/
def resolveEmbeds (registries : Registries) (draft : Draft) : Draft × List Notice :=
  let (body, notices) := Embed.resolveAll registries draft.body
  ({ draft with body }, notices)

/-- Makes the body ready for output and lists the headings. -/
def lower (draft : Draft) : Draft × List Notice :=
  let (kept, notices) := draft.body.dropBlankHeadings
  let (slugged, headings) := kept.slugHeadings
  ({ draft with body := slugged.lower, headings }, notices)

end Draft

/-- Runs a pass on a draft. -/
def Pass.run (source : Source) (registries : Registries) (draft : Draft) :
    Pass → Except (Fault Nat) (Draft × List Notice)
  | .validate => draft.body.check.map fun _ => (draft, [])
  | .prune => .ok draft.prune
  | .directives => .ok (draft.liftDirectives source)
  | .blockquotes => .ok ({ draft with body := draft.body.mergeQuotes }, [])
  | .trim => .ok ({ draft with body := draft.body.trimNewlines }, [])
  | .paragraphs => .ok ({ draft with body := draft.body.paragraphs }, [])
  | .flags => .ok draft.readFlags
  | .commands => .ok draft.readCommands
  | .title => draft.readTitle
  | .contributors => .ok (draft.readContributors registries)
  | .notes => .ok draft.resolveNotes
  | .externalLinks => .ok draft.resolveLinks
  | .embeddedFiles => .ok (draft.resolveEmbeds registries)
  | .lowering => .ok draft.lower
  | .residualDirectives => .ok (draft, draft.directives.unknownNotices)

end PageMarkup
