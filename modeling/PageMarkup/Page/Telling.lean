import PageMarkup.Diagnostic.Listener
import PageMarkup.Page.Basic

/-!
# Telling listeners

While a page is compiled, every diagnostic is told to the listeners as it arises. A listener is an
action that is run on the diagnostic. Progress is not even put into words where nobody listens to
it. A fault is told to the listeners for errors after everything else, and it is the outcome.
-/

namespace PageMarkup

variable {m : Type → Type} [Monad m]

namespace Listeners

/-- Tells a diagnostic to the listeners of its severity, one after the other. -/
def tell (listeners : Listeners (Diagnostic → m Unit)) (diagnostic : Diagnostic) : m Unit :=
  forM (listeners.of diagnostic.severity) fun listener => listener diagnostic

/-- Tells a notice, unless it is about progress and nobody listens to that. -/
def notify (listeners : Listeners (Diagnostic → m Unit)) (locate : Nat → Location)
    (notice : Notice) : m Unit :=
  if notice.remark.severity = .verbose ∧ listeners.verbose.isEmpty then pure ()
  else listeners.tell (.ofNotice locate notice)

/-- Makes the calls of a delivery in order. -/
def call (calls : List ((Diagnostic → m Unit) × Diagnostic)) : m Unit :=
  forM calls fun call => call.1 call.2

end Listeners

/-- Runs passes one after the other and tells of each what it has to say. -/
def Draft.runTelling (source : Source) (registries : Registries) (notify : Notice → m Unit) :
    List Pass → Draft → m (Except (Fault Nat) Draft)
  | [], draft => pure (.ok draft)
  | pass :: passes, draft =>
    match pass.run source registries draft with
    | .error fault => pure (.error fault)
    | .ok (next, notices) => do
      forM notices notify
      runTelling source registries notify passes next

namespace Source

/-- Compiles a source and tells of its passes. -/
def compileTelling (source : Source) (registries : Registries) (notify : Notice → m Unit) :
    m (Except (Fault Nat) Document) :=
  if source.isEmpty then pure (.error .emptyInput)
  else
    match Forest.ofLexemes source.lexemes with
    | .error fault => pure (.error fault)
    | .ok body => do
      notify ⟨.treeBuilt (body.size + 1), none⟩
      let outcome ← Draft.runTelling source registries notify Pass.inOrder { body }
      pure (outcome.bind Draft.finish)

/-- Compiles a source that comes from a file and tells listeners all there is to say. -/
def tell (source : Source) (file : Option String) (listeners : Listeners (Diagnostic → m Unit))
    (registries : Registries) : m (Except (Fault Location) Document) := do
  let locate := locationOn source.lineStarts file
  match ← source.compileTelling registries (listeners.notify locate) with
  | .ok document =>
    listeners.notify locate ⟨.pageParsed document.title.text, none⟩
    pure (.ok document)
  | .error fault =>
    listeners.tell (.ofFault (fault.map locate))
    pure (.error (fault.map locate))

end Source

/-- Compiles a text that comes from a file and tells listeners all there is to say. -/
def tellPage (text : String) (file : Option String) (listeners : Listeners (Diagnostic → m Unit))
    (registries : Registries) : m (Except (Fault Location) Document) :=
  (Source.ofText text).tell file listeners registries

end PageMarkup
