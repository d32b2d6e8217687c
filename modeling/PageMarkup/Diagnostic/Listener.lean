import PageMarkup.Diagnostic.Basic
import PageMarkup.Text.Quoted

/-!
# Listeners

Diagnostics are handed to listeners, which are registered by severity. Every diagnostic goes to all
listeners of its severity, in the order of their registration, before the next one is looked at.
Listening changes nothing about what is reported.
-/

namespace PageMarkup

/-- Listeners by severity, in the order of their registration. -/
structure Listeners (Listener : Type) where
  verbose : List Listener := []
  warning : List Listener := []
  error : List Listener := []
  deriving Repr

namespace Listeners

variable {Listener : Type}

/-- The listeners of a severity. -/
def of (listeners : Listeners Listener) : Severity → List Listener
  | .verbose => listeners.verbose
  | .warning => listeners.warning
  | .error => listeners.error

/-- The calls that diagnostics lead to, in order. -/
def deliver (listeners : Listeners Listener) (diagnostics : List Diagnostic) :
    List (Listener × Diagnostic) :=
  diagnostics.flatMap fun diagnostic =>
    (listeners.of diagnostic.severity).map fun listener => (listener, diagnostic)

/-- One listener for every severity of which `isHeard` holds. -/
def hearing (listener : Listener) (isHeard : Severity → Bool) : Listeners Listener :=
  { verbose := if isHeard .verbose then [listener] else []
    warning := if isHeard .warning then [listener] else []
    error := if isHeard .error then [listener] else [] }

/-- What is shown of the settings of a compilation: the file and the number of listeners. -/
def settingsText (listeners : Listeners Listener) (file : Option String) : String :=
  let fileText :=
    match file with
    | some file => "Some(" ++ Text.quote file ++ ")"
    | none => "None"
  "ParseOptions \x7b filepath: " ++ fileText
    ++ ", verbose_callbacks: " ++ toString listeners.verbose.length
    ++ ", warn_callbacks: " ++ toString listeners.warning.length
    ++ ", error_callbacks: " ++ toString listeners.error.length ++ " \x7d"

end Listeners

/-- A listener that keeps every diagnostic in the order in which it heard them. -/
structure Recorder where
  diagnostics : List Diagnostic := []
  deriving DecidableEq, Repr, Inhabited

namespace Recorder

/-- Keeps one more diagnostic. -/
def record (recorder : Recorder) (diagnostic : Diagnostic) : Recorder :=
  ⟨recorder.diagnostics ++ [diagnostic]⟩

/-- The diagnostics of a severity. -/
def withSeverity (recorder : Recorder) (severity : Severity) : List Diagnostic :=
  recorder.diagnostics.filter (·.severity == severity)

/-- The diagnostics heard so far and a recorder that has heard none. -/
def take (recorder : Recorder) : List Diagnostic × Recorder := (recorder.diagnostics, {})

end Recorder

end PageMarkup
