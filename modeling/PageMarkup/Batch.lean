import PageMarkup.Page.Log

/-!
# Batches

Many pages are compiled against the same registries. Pages do not see each other, so the results of
a batch are those of its pages alone, in the order in which the pages were given. A batch may stop
at the first page that fails.
-/

namespace PageMarkup

/-- A page of a batch. -/
structure BatchPage where
  id : String
  source : String
  /-- The file that diagnostics name; the id if there is none. -/
  file : Option String := none
  deriving DecidableEq, Repr, Inhabited

/-- The outcome of a page of a batch. -/
structure BatchResult where
  id : String
  compilation : Compilation
  deriving Repr

namespace BatchResult

/-- Whether the page has a document. -/
def succeeded (result : BatchResult) : Bool := result.compilation.succeeded

end BatchResult

/-- Compiles a page of a batch. -/
def BatchPage.compile (registries : Registries) (page : BatchPage) : BatchResult :=
  ⟨page.id, compilePage page.source (some (page.file.getD page.id)) registries⟩

/-- Counts of a batch. -/
structure BatchStats where
  /-- Number of pages given. -/
  total : Nat
  succeeded : Nat
  failed : Nat
  deriving DecidableEq, Repr

/-- A batch that was run. -/
structure Batch where
  /-- Results in the order of the pages; they end at the first failure if the batch stops there. -/
  results : List BatchResult
  stats : BatchStats
  deriving Repr

namespace Batch

/-- A list up to and including its first member that satisfies `p`. -/
def upToFirst {α : Type} (p : α → Bool) : List α → List α
  | [] => []
  | x :: rest => if p x then [x] else x :: upToFirst p rest

/-- Compiles pages one after the other. No page is looked at after one that failed. -/
def untilFailure (registries : Registries) : List BatchPage → List BatchResult
  | [] => []
  | page :: rest =>
    let result := page.compile registries
    if result.succeeded then result :: untilFailure registries rest else [result]

/-- Stopping at a failure leaves the results of all pages up to that failure. -/
theorem untilFailure_eq_upToFirst (registries : Registries) (pages : List BatchPage) :
    untilFailure registries pages
      = upToFirst (!·.succeeded) (pages.map (BatchPage.compile registries)) := by
  induction pages with
  | nil => rfl
  | cons page rest ih =>
    simp only [untilFailure, upToFirst, List.map_cons, ih]
    cases (page.compile registries).succeeded <;> rfl

/-- The batch of the given results out of `total` pages. -/
def ofResults (total : Nat) (results : List BatchResult) : Batch :=
  { results
    stats :=
      { total
        succeeded := results.countP (·.succeeded)
        failed := results.countP (!·.succeeded) } }

/-- Compiles the pages of a batch. -/
def run (registries : Registries) (continueOnError : Bool) (pages : List BatchPage) : Batch :=
  ofResults pages.length
    (if continueOnError then pages.map (BatchPage.compile registries)
    else untilFailure registries pages)

/-- The results of the pages that failed. -/
def failures (batch : Batch) : List BatchResult := batch.results.filter (!·.succeeded)

/-- The record that ends the log of a batch. -/
def summary (stats : BatchStats) : LogRecord :=
  ⟨.debug,
    "Parsed " ++ toString stats.succeeded ++ " of " ++ toString stats.total ++ " pages ("
      ++ toString stats.failed ++ " failed) in " ++ elapsedMark⟩

/-- The log of a batch whose pages were compiled one after the other. -/
def log (batch : Batch) : List LogRecord :=
  batch.results.flatMap (·.compilation.log) ++ [summary batch.stats]

end Batch

end PageMarkup
