import PageMarkup.Proofs.Line.Literal
import PageMarkup.Proofs.Line.Texts
import PageMarkup.Proofs.Page.Blocks
import PageMarkup.Proofs.Page.Fullness
import PageMarkup.Proofs.Page.Quiet
import PageMarkup.Proofs.Page.Titled

/-! # Literal pages

A page whose markers all stand after a backslash shows its lines as they were before the
backslashes were put in: a paragraph with the trimmed text for every line that is not
blank, and nothing for the others. It is compiled without a warning.
-/

namespace PageMarkup

/-! ## The trees of literal lines -/

namespace Lexeme

theorem Lines.kinds {texts : List String} {lexemes : List Lexeme} (hlines : Lines texts lexemes) :
    ∀ lexeme ∈ lexemes, lexeme.kind = .text ∨ lexeme.kind = .newline := by
  induction hlines with
  | nil => nofun
  | cons hspell hcloser _ ih =>
      intro lexeme hmem
      rcases List.mem_append.mp hmem with hmem | hmem
      · exact .inl (hspell.kinds lexeme hmem)
      · rcases List.mem_cons.mp hmem with rfl | hmem
        · exact .inr hcloser
        · exact ih lexeme hmem

end Lexeme

namespace Forest

theorem inert_leaves {lexemes : List Lexeme}
    (hkinds : ∀ lexeme ∈ lexemes, lexeme.kind = .text ∨ lexeme.kind = .newline) :
    (leaves lexemes).Obeys Node.Inert := by
  refine obeys_iff.mpr fun tree hmem => ?_
  obtain ⟨lexeme, hlexeme, rfl⟩ := List.mem_map.mp hmem
  refine Tree.obeys_leafOf ?_
  change lexeme.kind.headingLevel? = none ∧ ∀ bracket, lexeme.kind ≠ .aggregate (.bracket bracket)
  rcases hkinds lexeme hlexeme with hkind | hkind <;> rw [hkind] <;> exact ⟨rfl, nofun⟩

end Forest

/-! ## What a literal page shows -/

/-- The paragraph of a line: its text without white space around it, nothing for a blank line. -/
def Html.literalLine (text : String) : String :=
  if (Text.trim text).isEmpty then "" else "<p>" ++ escapeText (Text.trim text) ++ "</p>"

namespace Forest

/-- A text that stands alone is a paragraph, unless it is blank. -/
theorem html_text (span : Span) (text : String) :
    (arranged [Nesting.leafOf ⟨.text, span, text⟩]).lower.html = Html.literalLine text := by
  have hrun : arranged [Nesting.leafOf ⟨.text, span, text⟩] =
      paragraphOf [Nesting.leafOf ⟨.text, span, text⟩] := by
    rw [arranged_eq]
    rfl
  have hblank : isBlankText (Nesting.leafOf ⟨.text, span, text⟩) = Text.isBlankText text := rfl
  rw [hrun, paragraphOf, Html.literalLine, Text.isEmpty_trim, List.all_cons, hblank, List.all_nil,
    Bool.and_true]
  cases htext : Text.isBlankText text with
  | true => rfl
  | false =>
      have hstart : Text.isBlankText (Text.trimStart text) = false := by
        rw [Text.isBlankText_trimStart, htext]
      have htrimmed : trimEdges [Nesting.leafOf ⟨.text, span, text⟩] =
          [Nesting.leafOf ⟨.text, span, Text.trim text⟩] := by
        simp [trimEdges, trimLeading, trimTrailing, trimFront, Nesting.leafOf, Tree.leaf,
          Tree.isTextLeaf, Tree.withText, Tree.data, htext, hstart, Text.trim]
      rw [htrimmed]
      simp [lower, Tree.forestLower, Tree.lower, Tree.lowerNode, Tree.tagged, html,
        Tree.forestPieces, Tree.pieces, Html.frame, Html.Piece.render, Html.renderOpen,
        Html.renderClose, Html.renderAttributes, Nesting.leafOf, Tree.leaf, String.append_assoc]

theorem html_lines {texts : List String} {lexemes : List Lexeme}
    (hlines : Lexeme.Lines texts lexemes) :
    (leaves lexemes).arranged.lower.html = String.join (texts.map Html.literalLine) := by
  induction hlines with
  | nil => rfl
  | @cons text texts line rest closer hspell hcloser _ ih =>
      have hnewline : isNewline (Nesting.leafOf closer) = true := by
        have hkind : (Nesting.leafOf closer).kind = closer.kind := rfl
        simp [isNewline, hkind, hcloser]
      have hline : (leaves line).arranged.lower.html = Html.literalLine text := by
        obtain ⟨rfl, rfl⟩ | ⟨span, rfl⟩ := hspell
        · rfl
        · exact html_text span text
      rw [leaves, List.map_append, List.map_cons, arranged_append hnewline, lower,
        Tree.forestLower_append, html_append, List.map_cons, String.join_cons, ← ih, ← hline]
      rfl

end Forest

/-! ## Literal pages -/

namespace Source

/-- The clusters of a title line and escaped lines after it. -/
def literalPage (lines : List (List String)) : List String :=
  titleLine ++ lines.flatMap fun line => "\n" :: escapeLine line

variable {lines : List (List String)}

theorem directives_eq_nil {source : Source} (hplain : Lexeme.NoDirective source.lexemes) :
    source.directives = [] := by
  have hend : Directive.ofLexemes source (source.lexemes ++ []) = [] :=
    Directive.ofLexemes_append hplain []
  rwa [List.append_nil] at hend

/-- A literal page has one directive and no other mark. -/
theorem lexemes_literalPage (hlines : ∀ line ∈ lines, Plain line) :
    ∃ lexemes, Lexeme.Lines (lines.map String.join) lexemes ∧
      (ofClusters (literalPage lines)).lexemes =
        (ofClusters titleLine).openLexemes ++ ⟨.newline, ⟨8, 9⟩, "\n"⟩ :: lexemes ∧
      (ofClusters (literalPage lines)).directives = [titleDirective] := by
  cases lines with
  | nil =>
      refine ⟨[], .nil, ?_, ?_⟩
      · rw [literalPage, List.flatMap_nil, List.append_nil]
        exact lexemes_eq (ofClusters titleLine)
      · simpa [literalPage] using directives_titleLine
  | cons line rest =>
      obtain ⟨hline, hrest⟩ := List.forall_mem_cons.mp hlines
      have hnewline : isNewline "\n" = true := by decide
      have hlexemes := lines_lexemes hline hrest
      have hnone : (ofClusters (escapeLine line ++ rest.flatMap fun other =>
          "\n" :: escapeLine other)).directives = [] := by
        have hplain : Lexeme.NoDirective (ofClusters (escapeLine line ++ rest.flatMap fun other =>
            "\n" :: escapeLine other)).lexemes := by
          intro lexeme hmem
          rcases hlexemes.kinds lexeme hmem with hkind | hkind <;> simp [hkind]
        exact directives_eq_nil hplain
      refine ⟨_, hlexemes.shift 9, ?_, ?_⟩
      · exact lexemes_titled _ hnewline
      · rw [literalPage, List.flatMap_cons, List.cons_append, directives_titled _ hnewline, hnone]
        rfl

/-- A literal page is compiled to the paragraphs of its lines, without a warning. -/
theorem compile_literal (hlines : ∀ line ∈ lines, Plain line) (registries : Registries) :
    ∃ document, ((ofClusters (literalPage lines)).compile registries).2 = .ok document ∧
      document.html =
        String.join (lines.map fun line => Html.literalLine (String.join line)) ∧
      ∀ happening ∈ ((ofClusters (literalPage lines)).compile registries).1,
        happening.isQuiet = true := by
  obtain ⟨lexemes, htexts, hlexemes, hdirectives⟩ := lexemes_literalPage hlines
  have hkinds := htexts.kinds
  have hleaves : ∀ lexeme ∈ lexemes, lexeme.kind.starts? = none := by
    intro lexeme hmem
    rcases hkinds lexeme hmem with hkind | hkind <;> rw [hkind] <;> rfl
  have hforest : Forest.ofLexemes (ofClusters (literalPage lines)).lexemes =
      .ok (Tree.title :: Forest.leaves lexemes) := by
    rw [hlexemes, Forest.ofLexemes_titled, Forest.ofLexemes_leaves hleaves]
    rfl
  have hcheck : Forest.check (Tree.title :: Forest.leaves lexemes) = .ok () := by
    rw [Forest.check_titled, Forest.check_leaves hkinds]
  have hprune : Forest.pruneEmpty (Tree.title :: Forest.leaves lexemes) =
      (Tree.title :: Forest.leaves lexemes, []) := by
    have htitle : Tree.title.pruneEmpty = ([Tree.title], []) := rfl
    have hrest : Tree.forestPruneEmpty (Forest.leaves lexemes) = (Forest.leaves lexemes, []) :=
      Forest.pruneEmpty_leaves hkinds
    rw [Forest.pruneEmpty, Tree.forestPruneEmpty, htitle, hrest]
    rfl
  have hlifted : Forest.lifted (Tree.title :: Forest.leaves lexemes) = Forest.leaves lexemes := by
    rw [Forest.lifted_titled, Forest.lifted_leaves hkinds]
  have hsome : ¬(ofClusters (literalPage lines)).isEmpty := by
    simp [isEmpty, ofClusters, literalPage, titleLine]
  have hinert : Forest.Obeys Node.Inert (Forest.lifted (Tree.title :: Forest.leaves lexemes)) := by
    rw [hlifted]
    exact Forest.inert_leaves hkinds
  obtain ⟨document, hdocument, hbody, hquiet⟩ := compile_of_inert hsome registries hforest hcheck
    hprune hdirectives rfl (by decide) hinert
  refine ⟨document, hdocument, ?_, hquiet⟩
  rw [Document.html, hbody, hlifted, Forest.html_lines htexts, List.map_map, Function.comp_def]

end Source

/-- The diagnostics of a page without warnings are of the lowest severity. -/
theorem severity_of_isQuiet {text : String} {file : Option String} {registries : Registries}
    {document : Document}
    (hdocument : ((Source.ofText text).compile registries).2 = .ok document)
    (hquiet : ∀ happening ∈ ((Source.ofText text).compile registries).1,
      happening.isQuiet = true) :
    ∀ diagnostic ∈ (compilePage text file registries).diagnostics,
      diagnostic.severity = .verbose := by
  rw [compilePage, Source.compilation]
  generalize (Source.ofText text).compile registries = run at *
  obtain ⟨happenings, outcome⟩ := run
  cases hdocument
  intro diagnostic hmem
  obtain ⟨event, hevent, hdiagnostic⟩ := List.mem_filterMap.mp hmem
  obtain ⟨happening, hhappening, rfl⟩ := List.mem_map.mp hevent
  cases happening with
  | noted notice =>
      cases hdiagnostic
      simpa [Happening.isQuiet, Diagnostic.ofNotice] using hquiet _ hhappening
  | passed pass => cases hdiagnostic

/-- Escaped text goes through a compilation as it is: every line that is not blank is a
paragraph with its trimmed text, and there is no warning. -/
theorem compilePage_literal {text : String} {lines : List (List String)}
    (hlines : ∀ line ∈ lines, Source.Plain line)
    (htext : Text.clusters text = Source.literalPage lines) (file : Option String)
    (registries : Registries) :
    ∃ document, (compilePage text file registries).outcome = .ok document ∧
      document.html = String.join (lines.map fun line => Html.literalLine (String.join line)) ∧
      ∀ diagnostic ∈ (compilePage text file registries).diagnostics,
        diagnostic.severity = .verbose := by
  obtain ⟨document, hdocument, hhtml, hquiet⟩ := Source.compile_literal hlines registries
  rw [← htext, ← Source.ofText_eq] at hdocument hquiet
  exact ⟨document, outcome_of_ok hdocument, hhtml, severity_of_isQuiet hdocument hquiet⟩

/-- Lines with markers in a row, a blank line, and a line that looks like a directive. -/
theorem compilePage_literal_markers :
    let lines := [["*", "*", "a", " ", "\\", "&", "[", "["], [" ", "\t"], ["!", "x", "\x7b", " "]]
    let text := "!title T\n\\*\\*a \\\\&\\[\\[\n \t\n\\!x\\\x7b "
    (∀ line ∈ lines, Source.Plain line) ∧ Text.clusters text = Source.literalPage lines ∧
      ∃ document, (compilePage text none Registries.empty).outcome = .ok document ∧
        document.html = "<p>**a \\&amp;[[</p><p>!x\x7b</p>" ∧
        ∀ diagnostic ∈ (compilePage text none Registries.empty).diagnostics,
          diagnostic.severity = .verbose := by
  intro lines text
  have hlines : ∀ line ∈ lines, Source.Plain line := by
    unfold Source.Plain
    decide
  have htext : Text.clusters text = Source.literalPage lines := by decide +kernel
  have hhtml : String.join (lines.map fun line => Html.literalLine (String.join line)) =
      "<p>**a \\&amp;[[</p><p>!x\x7b</p>" := by decide +kernel
  obtain ⟨document, hdocument, hshown, hquiet⟩ :=
    compilePage_literal hlines htext none Registries.empty
  exact ⟨hlines, htext, document, hdocument, hshown.trans hhtml, hquiet⟩

end PageMarkup
