import PageMarkup.Diagnostic.Basic
import PageMarkup.Page.Pass
import PageMarkup.Tree.Nesting

/-!
# Compiling a page

A source is nested into a draft, the passes run over it one after the other, and what they leave is
the document. A compilation is described by everything that happened in it: the diagnostics and the
ends of the passes in one order, and the document or the fault at the end. A fault is the last
diagnostic of its compilation and its only error.
-/

namespace PageMarkup

/-- Something that happens while a page is compiled. -/
inductive Happening where
  | noted (notice : Notice)
  | passed (pass : Pass)
  deriving DecidableEq, Repr

namespace Draft

/-- Runs passes one after the other until one of them fails. -/
def runPasses (source : Source) (registries : Registries) :
    List Pass → Draft → List Happening × Except (Fault Nat) Draft
  | [], draft => ([], .ok draft)
  | pass :: passes, draft =>
    match pass.run source registries draft with
    | .error fault => ([], .error fault)
    | .ok (next, notices) =>
      let (happenings, outcome) := runPasses source registries passes next
      (notices.map .noted ++ .passed pass :: happenings, outcome)

/-- The document of a draft that went through all passes. -/
def finish (draft : Draft) : Except (Fault Nat) Document :=
  match draft.title with
  | none => .error .missingTitle
  | some title =>
    .ok
      { title
        body := draft.body
        contributors := draft.contributors
        flags := draft.flags
        commands := draft.commands
        headings := draft.headings
        unresolved := draft.directives }

end Draft

namespace Source

/-- Compiles a source; faults are told by offset. -/
def compile (source : Source) (registries : Registries) :
    List Happening × Except (Fault Nat) Document :=
  if source.isEmpty then ([], .error .emptyInput)
  else
    match Forest.ofLexemes source.lexemes with
    | .error fault => ([], .error fault)
    | .ok body =>
      let (happenings, outcome) := Draft.runPasses source registries Pass.inOrder { body }
      let built := .noted ⟨.treeBuilt (body.size + 1), none⟩
      match outcome.bind Draft.finish with
      | .error fault => (built :: happenings, .error fault)
      | .ok document =>
        (built :: happenings ++ [.noted ⟨.pageParsed document.title.text, none⟩], .ok document)

end Source

/-- What a compilation reports. -/
inductive Event where
  | diagnostic (diagnostic : Diagnostic)
  | passed (pass : Pass)
  deriving DecidableEq, Repr

/-- A compilation: what was reported, in order, and how it ended. -/
structure Compilation where
  events : List Event
  outcome : Except (Fault Location) Document
  deriving Repr

namespace Compilation

/-- The diagnostics, in order. -/
def diagnostics (compilation : Compilation) : List Diagnostic :=
  compilation.events.filterMap fun
    | .diagnostic diagnostic => some diagnostic
    | .passed _ => none

/-- Whether there is a document. -/
def succeeded (compilation : Compilation) : Bool := compilation.outcome.isOk

end Compilation

/-- A happening as it is reported, given where offsets are. -/
def Happening.event (locate : Nat → Location) : Happening → Event
  | .noted notice => .diagnostic (.ofNotice locate notice)
  | .passed pass => .passed pass

/-- Compiles a source that comes from a file. -/
def Source.compilation (source : Source) (file : Option String) (registries : Registries) :
    Compilation :=
  let (happenings, outcome) := source.compile registries
  let lines := source.lineStarts
  let events := happenings.map (Happening.event (locationOn lines file))
  match outcome with
  | .ok document => ⟨events, .ok document⟩
  | .error fault =>
    let fault := fault.map (locationOn lines file)
    ⟨events ++ [.diagnostic (.ofFault fault)], .error fault⟩

/-- Compiles a text that comes from a file. -/
def compilePage (text : String) (file : Option String) (registries : Registries) : Compilation :=
  (Source.ofText text).compilation file registries

end PageMarkup
