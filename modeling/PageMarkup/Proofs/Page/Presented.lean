import PageMarkup.Proofs.Directive.Accounts
import PageMarkup.Proofs.Page.Finish
import PageMarkup.Proofs.Page.Outcome

/-! # What a page shows

The body of a page is a function of the forest without its directives, of the definitions
of notes and of the registries. Every other pass only reads directives.
-/

namespace PageMarkup

namespace Forest

/-- The paragraphs, headings and quotes of a page without directives. -/
def arranged (body : Forest) : Forest := body.mergeQuotes.trimNewlines.paragraphs

/-- An arranged page with its notes, links and embeds resolved, without blank headings. -/
def resolved (registries : Registries) (definitions : List Directive) (body : Forest) : Forest :=
  (Embed.resolveAll registries
    (Link.resolveExternals (Note.resolve definitions body).1).1).1.dropBlankHeadings.1

/-- The body and the headings of a page without directives. -/
def presented (registries : Registries) (definitions : List Directive) (body : Forest) :
    Forest × List Heading :=
  let kept := body.arranged.resolved registries definitions
  (kept.slugHeadings.1.lower, kept.slugHeadings.2)

end Forest

namespace Draft

variable {source : Source} {registries : Registries}

/-- The passes that read directives leave the body alone. -/
theorem body_of_reading {pass : Pass}
    (hpass : pass ∈ [Pass.flags, .commands, .title, .contributors]) {draft next : Draft}
    {notices : List Notice} (hrun : pass.run source registries draft = .ok (next, notices)) :
    next.body = draft.body := by
  cases pass with
  | title =>
      obtain ⟨first, others, -, rfl, -⟩ := title_eq_ok hrun
      rfl
  | flags | commands | contributors => cases hrun; rfl
  | _ => simp at hpass

theorem body_of_rearranging {draft final : Draft}
    (hrun : (runPasses source registries rearranging draft).2 = .ok final) :
    final.body = draft.body.arranged := by
  have horder : rearranging =
      [Pass.blockquotes, .trim, .paragraphs] ++
        [Pass.flags, .commands, .title, .contributors] := rfl
  rw [horder] at hrun
  obtain ⟨arranged, harranged, hrun⟩ := runPasses_append_eq_ok hrun
  obtain ⟨_, _, hquoted, harranged⟩ := runPasses_cons_eq_ok harranged
  obtain ⟨_, _, htrimmed, harranged⟩ := runPasses_cons_eq_ok harranged
  obtain ⟨_, _, hgrouped, harranged⟩ := runPasses_cons_eq_ok harranged
  cases hquoted
  cases htrimmed
  cases hgrouped
  cases harranged
  refine runPasses_invariant (P := fun next => next.body = draft.body.arranged) ?_ hrun rfl
  intro pass hpass earlier next notices hearlier hnext
  rw [body_of_reading hpass hnext, hearlier]

/-- The directives are lifted from a forest that passes the check. -/
theorem body_of_lifted {body : Forest} {lifted : Draft}
    (hrun : (runPasses source registries [.validate, .prune, .directives] { body }).2 =
      .ok lifted) :
    body.check = .ok () ∧ lifted.body = Directive.body source body.pruneEmpty.1 := by
  obtain ⟨hcheck, rfl⟩ := eq_of_lifted hrun
  exact ⟨hcheck, rfl⟩

end Draft

open Draft

namespace Source

/-- A compiled page shows the forest of its lexemes without the directives. -/
theorem compile_presents {source : Source} {registries : Registries} {document : Document}
    (hcompile : (source.compile registries).2 = .ok document) :
    ∃ forest, Forest.ofLexemes source.lexemes = .ok forest ∧ forest.check = .ok () ∧
      document.Accounts registries source.directives ∧
      Forest.presented registries (Directive.named Directive.noteName source.directives)
          (Directive.body source forest.pruneEmpty.1) = (document.body, document.headings) := by
  obtain ⟨body, final, hbody, hrun, hfinish, -⟩ := compile_eq_ok hcompile
  rw [inOrder_eq_lift] at hrun
  obtain ⟨lifted, hlifted, hrun⟩ := runPasses_append_eq_ok hrun
  have hledger := (lifted_directives hbody hlifted).1
  obtain ⟨first, hfirst, hfinal, -⟩ := account_of_lifted hledger hrun
  have haccounts := Document.accounts_of_ledger hfirst hfinal hfinish
  obtain ⟨hcheck, hlift⟩ := body_of_lifted hlifted
  refine ⟨body, hbody, hcheck, haccounts, ?_⟩
  obtain ⟨draft, hdraft, hrun⟩ := runPasses_append_eq_ok hrun
  obtain ⟨noted, _, hnotes, hrun⟩ := runPasses_cons_eq_ok hrun
  have hdefinitions : draft.definitions =
      Directive.named Directive.noteName source.directives := by
    refine runPasses_invariant (P := fun next => next.definitions =
      Directive.named Directive.noteName source.directives) ?_ hdraft ?_
    · intro pass hpass earlier next notices hearlier hnext
      rw [definitions_rearranging hpass hnext, hearlier]
    · exact congrArg (fun draft => draft.directives.named Directive.noteName) hledger
  obtain ⟨hbodies, hheadings⟩ := body_after_notes hrun
  obtain ⟨-, hshown, houtline⟩ := finish_eq_ok hfinish
  rw [hshown, houtline, hbodies, hheadings, ← hlift, ← hdefinitions]
  cases hnotes
  rw [Forest.presented, ← body_of_rearranging hdraft]
  rfl

end Source

/-- A page that is accepted is compiled. -/
theorem compile_of_outcome {text : String} {file : Option String} {registries : Registries}
    {document : Document} (hdocument : (compilePage text file registries).outcome = .ok document) :
    ((Source.ofText text).compile registries).2 = .ok document := by
  cases hcompile : ((Source.ofText text).compile registries).2 with
  | error fault =>
      rw [outcome_of_error hcompile] at hdocument
      cases hdocument
  | ok other =>
      rw [outcome_of_ok hcompile] at hdocument
      cases hdocument
      rfl

theorem Compilation.exists_document {compilation : Compilation}
    (hsucceeded : compilation.succeeded = true) :
    ∃ document, compilation.outcome = .ok document := by
  unfold succeeded at hsucceeded
  cases houtcome : compilation.outcome with
  | error fault =>
      rw [houtcome] at hsucceeded
      cases hsucceeded
  | ok document => exact ⟨document, rfl⟩

end PageMarkup
