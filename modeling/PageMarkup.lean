import PageMarkup.Arena.Basic
import PageMarkup.Arena.Building
import PageMarkup.Arena.Editing
import PageMarkup.Arena.Passes
import PageMarkup.Arena.Rewriting
import PageMarkup.Arena.Traversal
import PageMarkup.Batch
import PageMarkup.Batch.Schedule
import PageMarkup.Block.Heading
import PageMarkup.Block.Paragraph
import PageMarkup.Block.Quote
import PageMarkup.Diagnostic.Basic
import PageMarkup.Diagnostic.Fault
import PageMarkup.Diagnostic.Listener
import PageMarkup.Diagnostic.Notice
import PageMarkup.Directive.Basic
import PageMarkup.Directive.Table
import PageMarkup.Glyph
import PageMarkup.Html
import PageMarkup.Json.Basic
import PageMarkup.Json.Parser
import PageMarkup.Json.Token
import PageMarkup.Kind
import PageMarkup.Lexeme
import PageMarkup.Link.Embed
import PageMarkup.Link.External
import PageMarkup.Location
import PageMarkup.Note.Basic
import PageMarkup.Note.Letters
import PageMarkup.Page.Basic
import PageMarkup.Page.Document
import PageMarkup.Page.Log
import PageMarkup.Page.Metadata
import PageMarkup.Page.Pass
import PageMarkup.Page.Telling
import PageMarkup.Proofs.Arena.Building
import PageMarkup.Proofs.Arena.Cascade
import PageMarkup.Proofs.Arena.Checking
import PageMarkup.Proofs.Arena.Climbing
import PageMarkup.Proofs.Arena.Coherent
import PageMarkup.Proofs.Arena.Contract
import PageMarkup.Proofs.Arena.Expanding
import PageMarkup.Proofs.Arena.Grouping
import PageMarkup.Proofs.Arena.Headings
import PageMarkup.Proofs.Arena.Linking
import PageMarkup.Proofs.Arena.Listing
import PageMarkup.Proofs.Arena.Lowering
import PageMarkup.Proofs.Arena.Marking
import PageMarkup.Proofs.Arena.Moving
import PageMarkup.Proofs.Arena.Noting
import PageMarkup.Proofs.Arena.Numbered
import PageMarkup.Proofs.Arena.OrderedForest
import PageMarkup.Proofs.Arena.ParagraphRuns
import PageMarkup.Proofs.Arena.Pruning
import PageMarkup.Proofs.Arena.QuoteRuns
import PageMarkup.Proofs.Arena.Reading
import PageMarkup.Proofs.Arena.Refinement
import PageMarkup.Proofs.Arena.Rendering
import PageMarkup.Proofs.Arena.Resolving
import PageMarkup.Proofs.Arena.Rewriting
import PageMarkup.Proofs.Arena.Running
import PageMarkup.Proofs.Arena.Sifting
import PageMarkup.Proofs.Arena.Stores
import PageMarkup.Proofs.Arena.Sweep
import PageMarkup.Proofs.Arena.Trimming
import PageMarkup.Proofs.Arena.Visiting
import PageMarkup.Proofs.Arena.WellFormed
import PageMarkup.Proofs.Batch.Reports
import PageMarkup.Proofs.Batch.Steps
import PageMarkup.Proofs.Directive.Accounts
import PageMarkup.Proofs.Directive.Insertion
import PageMarkup.Proofs.Directive.Lifting
import PageMarkup.Proofs.Directive.Lines
import PageMarkup.Proofs.Directive.Marks
import PageMarkup.Proofs.Directive.Spellings
import PageMarkup.Proofs.Html.Decoding
import PageMarkup.Proofs.Html.Reader
import PageMarkup.Proofs.Html.RoundTrip
import PageMarkup.Proofs.Json.RoundTrip
import PageMarkup.Proofs.Json.Strings
import PageMarkup.Proofs.Likeness.Basic
import PageMarkup.Proofs.Likeness.Blocks
import PageMarkup.Proofs.Likeness.Links
import PageMarkup.Proofs.Likeness.Notes
import PageMarkup.Proofs.Likeness.Output
import PageMarkup.Proofs.Likeness.Pages
import PageMarkup.Proofs.Likeness.Removal
import PageMarkup.Proofs.Likeness.Runs
import PageMarkup.Proofs.Line.Clusters
import PageMarkup.Proofs.Line.Columns
import PageMarkup.Proofs.Line.Coverage
import PageMarkup.Proofs.Line.Crlf
import PageMarkup.Proofs.Line.Endings
import PageMarkup.Proofs.Line.Kinds
import PageMarkup.Proofs.Line.Lexemes
import PageMarkup.Proofs.Line.Literal
import PageMarkup.Proofs.Line.Locations
import PageMarkup.Proofs.Line.MarkRuns
import PageMarkup.Proofs.Line.Scanning
import PageMarkup.Proofs.Line.Splitting
import PageMarkup.Proofs.Line.Texts
import PageMarkup.Proofs.Line.Tiling
import PageMarkup.Proofs.Link.Answers
import PageMarkup.Proofs.Link.Arguments
import PageMarkup.Proofs.Link.Widths
import PageMarkup.Proofs.Nesting.Acceptance
import PageMarkup.Proofs.Nesting.Grammar
import PageMarkup.Proofs.Nesting.LineMarks
import PageMarkup.Proofs.Nesting.Machine
import PageMarkup.Proofs.Nesting.Markers
import PageMarkup.Proofs.Note.Ids
import PageMarkup.Proofs.Note.Letters
import PageMarkup.Proofs.Note.Pages
import PageMarkup.Proofs.Note.References
import PageMarkup.Proofs.Note.Resolution
import PageMarkup.Proofs.Note.Rewriting
import PageMarkup.Proofs.Page.Blocks
import PageMarkup.Proofs.Page.Brackets
import PageMarkup.Proofs.Page.Diagnostics
import PageMarkup.Proofs.Page.Figures
import PageMarkup.Proofs.Page.Finish
import PageMarkup.Proofs.Page.Fronted
import PageMarkup.Proofs.Page.Fullness
import PageMarkup.Proofs.Page.Hollows
import PageMarkup.Proofs.Page.Ids
import PageMarkup.Proofs.Page.Letters
import PageMarkup.Proofs.Page.LineEnds
import PageMarkup.Proofs.Page.Listeners
import PageMarkup.Proofs.Page.Literal
import PageMarkup.Proofs.Page.Located
import PageMarkup.Proofs.Page.Mute
import PageMarkup.Proofs.Page.Originals
import PageMarkup.Proofs.Page.Outcome
import PageMarkup.Proofs.Page.Outline
import PageMarkup.Proofs.Page.Paragraphs
import PageMarkup.Proofs.Page.Pointing
import PageMarkup.Proofs.Page.Presented
import PageMarkup.Proofs.Page.Promises
import PageMarkup.Proofs.Page.Quiet
import PageMarkup.Proofs.Page.Quotes
import PageMarkup.Proofs.Page.Ready
import PageMarkup.Proofs.Page.Remarks
import PageMarkup.Proofs.Page.Runs
import PageMarkup.Proofs.Page.Seam
import PageMarkup.Proofs.Page.Shape
import PageMarkup.Proofs.Page.Shedding
import PageMarkup.Proofs.Page.Sheltered
import PageMarkup.Proofs.Page.Shown
import PageMarkup.Proofs.Page.Titled
import PageMarkup.Proofs.Page.Unlisted
import PageMarkup.Proofs.Registry.Catalogs
import PageMarkup.Proofs.Registry.JsonText
import PageMarkup.Proofs.Registry.Lookups
import PageMarkup.Proofs.Registry.Validity
import PageMarkup.Proofs.Slug.Clash
import PageMarkup.Proofs.Slug.WhiteSpace
import PageMarkup.Proofs.Text.Case
import PageMarkup.Proofs.Text.Prepended
import PageMarkup.Proofs.Text.Trimming
import PageMarkup.Proofs.Tree.Census
import PageMarkup.Proofs.Tree.Groups
import PageMarkup.Proofs.Tree.Origins
import PageMarkup.Proofs.Tree.Removal
import PageMarkup.Proofs.Tree.Replacing
import PageMarkup.Proofs.Tree.Rules
import PageMarkup.Proofs.Tree.Subtrees
import PageMarkup.Registry.Basic
import PageMarkup.Registry.Config
import PageMarkup.Registry.Json
import PageMarkup.Registry.Lookup
import PageMarkup.Registry.Yaml
import PageMarkup.Slug
import PageMarkup.Source
import PageMarkup.Span
import PageMarkup.Text.Alphanumeric
import PageMarkup.Text.Blank
import PageMarkup.Text.Cluster
import PageMarkup.Text.Cluster.Break
import PageMarkup.Text.Cluster.Conjunct
import PageMarkup.Text.CodePoints
import PageMarkup.Text.Letter.Cased
import PageMarkup.Text.Letter.Lower
import PageMarkup.Text.Printable
import PageMarkup.Text.Quoted
import PageMarkup.Token
import PageMarkup.Tree.Basic
import PageMarkup.Tree.Edges
import PageMarkup.Tree.Lowering
import PageMarkup.Tree.Nesting
import PageMarkup.Tree.Outline
import PageMarkup.Tree.Pruning
import PageMarkup.Tree.Rewrite
import PageMarkup.Tree.Structure
import PageMarkup.Yaml.Basic
import PageMarkup.Yaml.Directive
import PageMarkup.Yaml.Parser
import PageMarkup.Yaml.Place
import PageMarkup.Yaml.Scalar
import PageMarkup.Yaml.Token
