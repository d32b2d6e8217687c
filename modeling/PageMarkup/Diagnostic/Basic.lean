import PageMarkup.Diagnostic.Fault
import PageMarkup.Diagnostic.Notice

/-!
# Diagnostics

A diagnostic is what a reader of the page is told: a severity, a message and a location. Notices
become diagnostics once it is known where offsets are, and so do faults, which are the only
errors.
-/

namespace PageMarkup

/-- A message about a page. -/
structure Diagnostic where
  severity : Severity
  message : String
  location : Option Location
  deriving DecidableEq, Repr

namespace Diagnostic

/-- The diagnostic of a notice, given where offsets are. -/
def ofNotice (locate : Nat → Location) (notice : Notice) : Diagnostic :=
  ⟨notice.remark.severity, notice.remark.message, notice.offset.map locate⟩

/-- The diagnostic of a fault. -/
def ofFault (fault : Fault Location) : Diagnostic := ⟨.error, fault.message, fault.place?⟩

/-- Severity and message, with the location in brackets if there is one. -/
def text (diagnostic : Diagnostic) : String :=
  diagnostic.severity.label ++ ": " ++ diagnostic.message
    ++ match diagnostic.location with
      | some location => " (" ++ location.text ++ ")"
      | none => ""

end Diagnostic

end PageMarkup
