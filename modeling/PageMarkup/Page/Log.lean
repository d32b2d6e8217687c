import PageMarkup.Page.Basic

/-!
# Logs

A compilation can be told to a log. Every diagnostic is a record at a level that goes by its
severity, and so is the end of every pass, at the lowest level.
-/

namespace PageMarkup

/-- Levels of log records, least important first. -/
inductive LogLevel where
  | trace
  | debug
  | warn
  | error
  deriving DecidableEq, Repr

namespace LogLevel

/-- The word for a level. -/
def label : LogLevel → String
  | .trace => "TRACE"
  | .debug => "DEBUG"
  | .warn => "WARN"
  | .error => "ERROR"

/-- The level of diagnostics of a severity. -/
def ofSeverity : Severity → LogLevel
  | .verbose => .debug
  | .warning => .warn
  | .error => .error

end LogLevel

/-- A line of a log. -/
structure LogRecord where
  level : LogLevel
  text : String
  deriving DecidableEq, Repr

/-- A diagnostic on one line, its location first. -/
def Diagnostic.logText (diagnostic : Diagnostic) : String :=
  match diagnostic.location with
  | some location => location.text ++ ": " ++ diagnostic.message
  | none => diagnostic.message

namespace LogRecord

/-- The record of a diagnostic. -/
def ofDiagnostic (diagnostic : Diagnostic) : LogRecord :=
  ⟨.ofSeverity diagnostic.severity, diagnostic.logText⟩

/-- The record of the end of a pass. -/
def ofPass (pass : Pass) : LogRecord :=
  ⟨.trace, "pass '" ++ pass.name ++ "' took " ++ elapsedMark⟩

/-- The record of an event. -/
def ofEvent : Event → LogRecord
  | .diagnostic diagnostic => ofDiagnostic diagnostic
  | .passed pass => ofPass pass

end LogRecord

/-- The log of a compilation. -/
def Compilation.log (compilation : Compilation) : List LogRecord :=
  compilation.events.map LogRecord.ofEvent

end PageMarkup
