import PageMarkup.Kind

/-!
# Notices

While a page is compiled, the stages note what they did and what they put right on their own. A
remark is the cause of a notice, its wording is one function of the cause, and its place is an
offset into the source.
-/

namespace PageMarkup

/-- Importance of a diagnostic, least first. -/
inductive Severity where
  | verbose
  | warning
  | error
  deriving DecidableEq, Repr

namespace Severity

/-- The word for a severity. -/
def label : Severity → String
  | .verbose => "Verbose"
  | .warning => "Warning"
  | .error => "Error"

/-- Position in the order of importance. -/
def rank : Severity → Nat
  | .verbose => 0
  | .warning => 1
  | .error => 2

/-- A list of severities in ascending order. -/
def sort (severities : List Severity) : List Severity :=
  severities.mergeSort (fun a b => a.rank ≤ b.rank)

end Severity

/-- Running times are no part of what a compilation is. A message that tells one has this mark in
its place. -/
def elapsedMark : String := "<elapsed>"

/-- What a stage has to say. -/
inductive Remark where
  /-- The tree before the first pass, by its number of nodes with the root. -/
  | treeBuilt (nodes : Nat)
  | directiveFound (name : String)
  | notesResolved (count : Nat)
  | pageParsed (title : String)
  /-- A node that must have children had none, or lost them all. -/
  | emptyRemoved (kind : Kind)
  | flagRepeated (name : String)
  | commandEmpty
  | titleRepeated
  | titleEmpty
  | contributorUnknown (name : String)
  | contributorRepeated (name : String)
  | noteUnreferenced (name : String)
  | noteRepeated (name : String)
  | noteUndefined (name : String)
  | linkWithoutTarget
  | mediaUnknown (name : String)
  | widthOutOfRange (width : Nat) (name : String) (used : Nat)
  | directiveUnknown (name : String)
  deriving DecidableEq, Repr

namespace Remark

/-- Progress is told at the lowest severity; everything else is a warning. -/
def severity : Remark → Severity
  | .treeBuilt _ | .directiveFound _ | .notesResolved _ | .pageParsed _ => .verbose
  | _ => .warning

/-- The wording of a remark. -/
def message : Remark → String
  | .treeBuilt nodes => "Built tree with " ++ toString nodes ++ " nodes"
  | .directiveFound name => "Found directive '" ++ name ++ "'"
  | .notesResolved count => "Resolved " ++ toString count ++ " notes"
  | .pageParsed title => "Parsed '" ++ title ++ "' in " ++ elapsedMark
  | .emptyRemoved kind => "Removed empty '" ++ kind.name ++ "'"
  | .flagRepeated name => "Duplicate '" ++ name ++ "' directive"
  | .commandEmpty => "Empty 'command' directive"
  | .titleRepeated => "Duplicate 'title' directive, keeping the first one"
  | .titleEmpty => "Empty 'title' directive"
  | .contributorUnknown name => "Unknown contributor '" ++ name ++ "'"
  | .contributorRepeated name => "Duplicate contributor '" ++ name ++ "'"
  | .noteUnreferenced name => "Note '" ++ name ++ "' is defined but never referenced"
  | .noteRepeated name =>
    "Duplicate definition of note '" ++ name ++ "', keeping the first one"
  | .noteUndefined name => "Note '" ++ name ++ "' is referenced but never defined"
  | .linkWithoutTarget => "Removed external link without a target"
  | .mediaUnknown name => "Unknown media file '" ++ name ++ "'"
  | .widthOutOfRange width name used =>
    "Width " ++ toString width ++ "% of '" ++ name ++ "' is out of range, using "
      ++ toString used ++ "%"
  | .directiveUnknown name => "Unknown directive '" ++ name ++ "'"

end Remark

/-- A remark and the offset it is about, if it is about one. -/
structure Notice where
  remark : Remark
  offset : Option Nat := none
  deriving DecidableEq, Repr

end PageMarkup
