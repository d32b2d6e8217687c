import PageMarkup.Batch
import PageMarkup.Page.Telling

/-!
# Schedules of batches

The pages of a batch are worked on at the same time, by as many threads as there are in a pool. A
page that is taken up gets a recorder of its own from a store that all pages share. It is compiled
and tells its diagnostics, is counted, and its recorder is emptied into its report. A schedule says
which page takes the next of these steps. A batch that is to stop at the first failure takes up a
page only after all pages before it have documents.
-/

namespace PageMarkup

/-- How a batch is to be run. -/
structure BatchOptions where
  /-- Cap on the threads of the pool. -/
  maxThreads : Option Nat := none
  continueOnError : Bool := true
  /-- Whether diagnostics go to the log as well. -/
  logDiagnostics : Bool := true
  deriving DecidableEq, Repr

/-- Those who listen to a page of a batch. -/
inductive Ear where
  | recorder
  | log
  deriving DecidableEq, Repr

/-- Those who listen to every page of a batch, to all severities, in order. -/
def BatchOptions.ears (options : BatchOptions) : List Ear :=
  if options.logDiagnostics then [.recorder, .log] else [.recorder]

/-- Listeners that write down who is told what. -/
def Ear.listeners (ears : List Ear) :
    Listeners (Diagnostic → StateM (List (Ear × Diagnostic)) Unit) :=
  let each := ears.map fun ear diagnostic => modify (· ++ [(ear, diagnostic)])
  ⟨each, each, each⟩

/-- What a batch reports of a page. -/
structure PageReport where
  id : String
  outcome : Except (Fault Location) Document
  diagnostics : List Diagnostic

namespace PageReport

/-- Whether the page has a document. -/
def succeeded (report : PageReport) : Bool := report.outcome.isOk

end PageReport

namespace BatchPage

/-- The file that diagnostics of the page name. -/
def place (page : BatchPage) : Option String := some (page.file.getD page.id)

/-- The calls that a page makes to those who listen, and its outcome. -/
def told (page : BatchPage) (registries : Registries) (ears : List Ear) :
    Except (Fault Location) Document × List (Ear × Diagnostic) :=
  (tellPage page.source page.place (Ear.listeners ears) registries).run []

/-- The report of a page that is compiled on its own, to a recorder that has heard nothing. -/
def alone (page : BatchPage) (registries : Registries) : PageReport :=
  let record : Diagnostic → StateM Recorder Unit := fun diagnostic => modify (·.record diagnostic)
  let (outcome, recorder) :=
    (tellPage page.source (some (page.file.getD page.id)) (.hearing record fun _ => true)
      registries).run {}
  ⟨page.id, outcome, recorder.take.1⟩

end BatchPage

/-- How far a page of a batch has come. Recorders are given by their places in the store. -/
inductive BatchStage where
  | waiting
  /-- Some calls are still to be made. -/
  | telling (recorder : Nat) (ahead : List (Ear × Diagnostic))
      (outcome : Except (Fault Location) Document)
  | counted (recorder : Nat) (outcome : Except (Fault Location) Document)
  | reported (report : PageReport)

namespace BatchStage

def isWaiting : BatchStage → Bool
  | waiting => true
  | _ => false

/-- Whether a thread is at work on the page. -/
def isActive : BatchStage → Bool
  | telling .. | counted .. => true
  | _ => false

def report? : BatchStage → Option PageReport
  | reported report => some report
  | _ => none

/-- Whether the page has been reported with a document. -/
def hasSucceeded (stage : BatchStage) : Bool := stage.report?.any (·.succeeded)

end BatchStage

/-- A page of a batch and how far it has come. -/
structure BatchSlot where
  page : BatchPage
  stage : BatchStage

/-- A batch at work. The recorders, the counters and the log are shared by the pages. -/
structure BatchState where
  slots : List BatchSlot
  recorders : List Recorder := []
  succeeded : Nat := 0
  failed : Nat := 0
  log : List LogRecord := []

namespace BatchState

/-- All pages wait. -/
def start (pages : List BatchPage) : BatchState := { slots := pages.map (⟨·, .waiting⟩) }

/-- Puts the page at an index into a stage. -/
def put (state : BatchState) (index : Nat) (page : BatchPage) (stage : BatchStage) : BatchState :=
  { state with slots := state.slots.set index ⟨page, stage⟩ }

/-- Hands a diagnostic to one who listens to a page with the given recorder. -/
def hear (state : BatchState) (recorder : Nat) (diagnostic : Diagnostic) : Ear → BatchState
  | .recorder => { state with recorders := state.recorders.modify recorder (·.record diagnostic) }
  | .log => { state with log := state.log ++ [.ofDiagnostic diagnostic] }

/-- Counts a page that has been compiled. -/
def count (state : BatchState) (succeeded : Bool) : BatchState :=
  if succeeded then { state with succeeded := state.succeeded + 1 }
  else { state with failed := state.failed + 1 }

/-- Whether a page that waits may be taken up. -/
def mayStart (state : BatchState) (threads : Option Nat → Nat) (options : BatchOptions)
    (index : Nat) : Bool :=
  if options.continueOnError then
    state.slots.countP (·.stage.isActive) < threads options.maxThreads
  else (state.slots.take index).all (·.stage.hasSucceeded)

/-- Takes the next step of the page at an index, which is at a stage, if it can take one. The pool
has so many threads for a cap. -/
def move (threads : Option Nat → Nat) (registries : Registries) (options : BatchOptions)
    (state : BatchState) (index : Nat) (page : BatchPage) : BatchStage → Option BatchState
  | .waiting =>
    if state.mayStart threads options index then
      let told := page.told registries options.ears
      some { state.put index page (.telling state.recorders.length told.2 told.1) with
        recorders := state.recorders ++ [{}] }
    else none
  | .telling recorder ((ear, diagnostic) :: ahead) outcome =>
    some ((state.put index page (.telling recorder ahead outcome)).hear recorder diagnostic ear)
  | .telling recorder [] outcome =>
    some ((state.put index page (.counted recorder outcome)).count outcome.isOk)
  | .counted recorder outcome =>
    let taken := (state.recorders.getD recorder {}).take
    some { state.put index page (.reported ⟨page.id, outcome, taken.1⟩) with
      recorders := state.recorders.set recorder taken.2 }
  | .reported _ => none

/-- Takes the next step of the page at an index. -/
def advance (threads : Option Nat → Nat) (registries : Registries) (options : BatchOptions)
    (state : BatchState) (index : Nat) : Option BatchState :=
  state.slots[index]?.bind fun slot =>
    state.move threads registries options index slot.page slot.stage

/-- Takes the steps of a schedule, if they can be taken. -/
def follow (threads : Option Nat → Nat) (registries : Registries) (options : BatchOptions)
    (state : BatchState) (schedule : List Nat) : Option BatchState :=
  schedule.foldlM (advance threads registries options) state

/-- No page can take another step. -/
def Ended (threads : Option Nat → Nat) (registries : Registries) (options : BatchOptions)
    (state : BatchState) : Prop :=
  ∀ index < state.slots.length, (state.advance threads registries options index).isNone

instance (threads : Option Nat → Nat) (registries : Registries) (options : BatchOptions)
    (state : BatchState) : Decidable (state.Ended threads registries options) :=
  inferInstanceAs (Decidable (∀ _ < _, _ = true))

end BatchState

/-- What is reported of a batch. -/
structure BatchReport where
  /-- Reports in the order of the pages. -/
  results : List PageReport
  stats : BatchStats

namespace BatchReport

/-- The reports of the pages that failed. -/
def failures (report : BatchReport) : List PageReport := report.results.filter (!·.succeeded)

end BatchReport

/-- The report of a batch, from the pages that have been reported and the counters. -/
def BatchState.report (state : BatchState) : BatchReport :=
  { results := state.slots.filterMap (·.stage.report?)
    stats :=
      { total := state.slots.length
        succeeded := state.succeeded
        failed := state.failed } }

end PageMarkup
