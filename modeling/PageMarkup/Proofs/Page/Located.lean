import PageMarkup.Proofs.Line.Locations
import PageMarkup.Proofs.Page.Listeners
import PageMarkup.Proofs.Page.Shedding

/-! # What passes point at

Whatever is told about a part of a page is told at the opening marker of that part. Each
pass is looked at with the draft that it finds, so that nothing has to be known of a pass
but what it makes of that draft; a run of all passes then says what its passes say.
-/

namespace PageMarkup

open Node Forest Draft

variable {source : Source} {registries : Registries} {page : Forest}

/-! ## What a pass finds -/

/-- The draft is what the pass finds when the page is compiled. -/
def Pass.Finds (source : Source) (registries : Registries) (page : Forest) (pass : Pass)
    (draft : Draft) : Prop :=
  (runPasses source registries pass.earlier { body := page }).2 = .ok draft

namespace Draft

/-- But for the lift, a pass takes directives away at most. -/
theorem directives_sublist_run {pass : Pass} (hlift : pass ≠ .directives) {draft next : Draft}
    {notices : List Notice} (hrun : pass.run source registries draft = .ok (next, notices)) :
    next.directives.directives.Sublist draft.directives.directives := by
  have hwithout : ∀ (table : DirectiveTable) name,
      (table.without name).directives.Sublist table.directives := fun _ _ => List.filter_sublist
  cases pass with
  | directives => exact absurd rfl hlift
  | validate =>
      obtain ⟨-, rfl, -⟩ := validate_eq_ok hrun
      exact List.Sublist.refl _
  | flags =>
      cases hrun
      exact ((((hwithout _ _).trans (hwithout _ _)).trans (hwithout _ _)).trans (hwithout _ _))
  | commands | contributors | notes =>
      cases hrun
      exact hwithout _ _
  | title =>
      obtain ⟨first, others, -, rfl, -⟩ := title_eq_ok hrun
      exact hwithout _ _
  | _ =>
      cases hrun
      exact List.Sublist.refl _

/-- After the lift the directives of a draft are directives of the source, in order. -/
theorem directives_sublist (hpage : ofLexemes source.lexemes = .ok page) {passes : List Pass}
    (hpasses : .directives ∉ passes) {draft : Draft}
    (hrun : (runPasses source registries ([Pass.validate, .prune, .directives] ++ passes)
      { body := page }).2 = .ok draft) :
    draft.directives.directives.Sublist source.directives := by
  obtain ⟨lifted, hlifted, hrest⟩ := runPasses_append_eq_ok hrun
  have hledger := (lifted_directives hpage hlifted).1
  have hstart : lifted.directives = ⟨source.directives⟩ := congrArg Draft.directives hledger
  refine runPasses_invariant (P := fun other =>
    other.directives.directives.Sublist source.directives) ?_ hrest (by rw [hstart])
  intro pass hmem other next notices hother hnext
  exact (directives_sublist_run (fun heq => hpasses (heq ▸ hmem)) hnext).trans hother

/-- The check of a page that passes it changes nothing. -/
theorem runPasses_checked {passes : List Pass} {draft : Draft}
    (hrun : (runPasses source registries (.validate :: passes) { body := page }).2 = .ok draft) :
    page.check = .ok () ∧ (runPasses source registries passes { body := page }).2 = .ok draft := by
  obtain ⟨checked, notices, hchecked, hrest⟩ := runPasses_cons_eq_ok hrun
  obtain ⟨hcheck, rfl, -⟩ := validate_eq_ok hchecked
  exact ⟨hcheck, hrest⟩

/-- What the pass for notes finds. -/
theorem body_before_notes {draft : Draft}
    (hrun : (runPasses source registries beforeNotes { body := page }).2 = .ok draft) :
    page.check = .ok () ∧ draft.body = blocks source page := by
  obtain ⟨lifted, hlifted, hrest⟩ := runPasses_append_eq_ok hrun
  obtain ⟨hcheck, hbody⟩ := body_of_lifted hlifted
  exact ⟨hcheck, by rw [body_of_rearranging hrest, hbody]⟩

variable (hpage : ofLexemes source.lexemes = .ok page)

include hpage

/-- What the pass for links finds. -/
theorem bracketsOf_before_links {draft : Draft}
    (hrun : (runPasses source registries (beforeNotes ++ [Pass.notes]) { body := page }).2 =
      .ok draft) :
    BracketsOf page draft.body ∧ draft.body.Obeys (Sound resolvedKinds) ∧
      Marked page draft.body := by
  obtain ⟨found, hfound, hrest⟩ := runPasses_append_eq_ok hrun
  obtain ⟨noted, notices, hnotes, hdone⟩ := runPasses_cons_eq_ok hrest
  obtain ⟨hcheck, hbody⟩ := body_before_notes hfound
  cases hnotes
  cases hdone
  have hsound := sound_blocks hpage hcheck
  rw [← hbody] at hsound
  refine ⟨?_, Note.sound_resolve _ hsound, marked_resolve _ ?_⟩
  · exact BracketsOf.resolve _ hsound (hbody ▸ bracketsOf_blocks hpage hcheck)
  · exact hbody ▸ original_blocks hpage

/-- What the pass for embeds finds. -/
theorem bracketsOf_before_embeds {draft : Draft}
    (hrun : (runPasses source registries (beforeNotes ++ [Pass.notes] ++ [Pass.externalLinks])
      { body := page }).2 = .ok draft) :
    BracketsOf page draft.body ∧ Marked page draft.body := by
  obtain ⟨found, hfound, hrest⟩ := runPasses_append_eq_ok hrun
  obtain ⟨linked, notices, hlinks, hdone⟩ := runPasses_cons_eq_ok hrest
  obtain ⟨hbrackets, hsound, hmarked⟩ := bracketsOf_before_links hpage hfound
  cases hlinks
  cases hdone
  exact ⟨hbrackets.resolveExternals hsound, hmarked.resolveExternals⟩

/-- What the pass for lowering finds. -/
theorem marked_before_lowering {draft : Draft}
    (hrun : (runPasses source registries
      (beforeNotes ++ [Pass.notes] ++ [Pass.externalLinks] ++ [Pass.embeddedFiles]) { body := page }).2 =
        .ok draft) :
    Marked page draft.body := by
  obtain ⟨found, hfound, hrest⟩ := runPasses_append_eq_ok hrun
  obtain ⟨embedded, notices, hembeds, hdone⟩ := runPasses_cons_eq_ok hrest
  obtain ⟨-, hmarked⟩ := bracketsOf_before_embeds hpage hfound
  cases hembeds
  cases hdone
  exact hmarked.resolveAll registries

end Draft

/-! ## What a pass says -/

/-- Most passes say of nothing that it was removed. -/
theorem Pass.removals_run {pass : Pass}
    (hpass : pass ∉ [Pass.prune, .notes, .externalLinks, .embeddedFiles, .lowering])
    {draft next : Draft} {notices : List Notice}
    (hrun : pass.run source registries draft = .ok (next, notices)) :
    Notice.removals notices = [] := by
  refine List.filterMap_eq_nil_iff.mpr fun notice hmem => ?_
  have hmay := Pass.notes_run hrun notice hmem
  have hkept : notice.remark.isRemoval = false := by
    cases hremark : notice.remark <;> rw [hremark] at hmay <;> cases pass <;>
      first
        | rfl
        | exact absurd hmay Bool.false_ne_true
        | exact absurd (by decide) hpass
  rw [Notice.removedAt?, hkept]
  rfl

namespace Pass

variable (hpage : ofLexemes source.lexemes = .ok page) {pass : Pass} {draft next : Draft}
  {notices : List Notice} (hfinds : pass.Finds source registries page draft)
  (hrun : pass.run source registries draft = .ok (next, notices))

include hpage hfinds hrun

/-- Every notice of a pass points at what it is about. -/
theorem points_run : ∀ notice ∈ notices, notice.Points source registries page := by
  cases pass with
  | validate =>
      obtain ⟨-, -, rfl⟩ := validate_eq_ok hrun
      exact List.forall_mem_nil _
  | prune =>
      obtain ⟨-, hdone⟩ := runPasses_checked hfinds
      cases hdone
      cases hrun
      exact (original_self hpage).points_pruneEmpty hpage
  | directives =>
      obtain ⟨hcheck, hpruned⟩ := runPasses_checked hfinds
      cases hpruned
      cases hrun
      have hdirectives := Source.directives_eq_ofForest hpage hcheck
      intro notice hmem
      obtain ⟨directive, hdirective, rfl⟩ := List.mem_map.mp hmem
      exact Notice.points_of_directive (hdirectives ▸ hdirective) rfl
  | blockquotes | trim | paragraphs =>
      cases hrun
      exact List.forall_mem_nil _
  | flags =>
      have htable := directives_sublist hpage (by decide) hfinds
      cases hrun
      intro notice hmem
      obtain ⟨flag, -, hmem⟩ := List.mem_flatMap.mp hmem
      exact flag.points_notices htable notice hmem
  | commands =>
      have htable := directives_sublist hpage (by decide) hfinds
      cases hrun
      exact Command.points_notices htable
  | title =>
      have htable := directives_sublist hpage (by decide) hfinds
      obtain ⟨first, others, hfound, -, rfl⟩ := title_eq_ok hrun
      exact PageTitle.points_notices htable hfound
  | contributors =>
      have htable := directives_sublist hpage (by decide) hfinds
      have hnamed := DirectiveTable.named_sublist htable Contributor.directive
      have hfirsts := Contributor.ofDirectives_firsts registries []
        (draft.directives.named Contributor.directive)
      cases hrun
      have hsplit : ([] ++ draft.directives.named Contributor.directive).Sublist
          source.directives := hnamed
      rw [show Contributor.ofDirectives registries [] _ = _ from hfirsts]
      exact Contributor.points_warnings hsplit fun directive hmem =>
        (DirectiveTable.name_of_mem_named htable hmem).2
  | notes =>
      have htable := directives_sublist hpage (by decide) hfinds
      have hnamed := DirectiveTable.named_sublist htable Directive.noteName
      obtain ⟨hcheck, hbody⟩ := body_before_notes hfinds
      obtain ⟨-, rfl⟩ := notes_eq_ok hrun
      rw [hbody]
      exact Note.points_resolve hpage hcheck hnamed fun directive hmem =>
        (DirectiveTable.name_of_mem_named htable hmem).2
  | externalLinks =>
      cases hrun
      exact Link.points_resolveExternals hpage (bracketsOf_before_links hpage hfinds).1
  | embeddedFiles =>
      cases hrun
      exact Embed.points_resolveAll hpage (bracketsOf_before_embeds hpage hfinds).1
  | lowering =>
      cases hrun
      exact (marked_before_lowering hpage hfinds).points_dropBlankHeadings hpage
  | residualDirectives =>
      have htable := directives_sublist hpage (by decide) hfinds
      cases hrun
      exact DirectiveTable.points_unknownNotices htable

/-- Every pass tells the openers of what it removes. -/
theorem sheds_run : draft.body.Sheds next.body (Notice.removals notices) := by
  cases pass with
  | validate =>
      rw [removals_run (by decide) hrun]
      obtain ⟨-, rfl, -⟩ := validate_eq_ok hrun
      exact .refl _
  | prune =>
      obtain ⟨-, hdone⟩ := runPasses_checked hfinds
      cases hdone
      cases hrun
      exact Tree.sheds_forestPruneEmpty (original_self hpage)
  | directives =>
      rw [removals_run (by decide) hrun]
      cases hrun
      exact .of_sublist List.filter_sublist
  | blockquotes =>
      cases hrun
      exact sheds_mergeQuotes _
  | trim =>
      cases hrun
      exact sheds_trimNewlines _
  | paragraphs =>
      cases hrun
      exact sheds_paragraphs _
  | flags | commands | title | contributors =>
      rw [removals_run (by decide) hrun, body_of_reading (by decide) hrun]
      exact .refl _
  | notes =>
      obtain ⟨-, hbody⟩ := body_before_notes hfinds
      obtain ⟨rfl, rfl⟩ := notes_eq_ok hrun
      exact Note.sheds_resolve _ (hbody ▸ original_blocks hpage)
  | externalLinks =>
      cases hrun
      exact Link.sheds_resolveExternals hpage (bracketsOf_before_links hpage hfinds).1
  | embeddedFiles =>
      cases hrun
      exact Embed.sheds_resolveAll hpage (bracketsOf_before_embeds hpage hfinds).1 registries
  | lowering =>
      have hdropped := (marked_before_lowering hpage hfinds).sheds_dropBlankHeadings
      cases hrun
      exact (hdropped.trans_nil (Tree.sheds_forestSlugHeadings _ _)).trans_nil
        (Tree.sheds_forestLower _)
  | residualDirectives =>
      rw [removals_run (by decide) hrun]
      cases hrun
      exact .refl _

end Pass

/-! ## What a run says -/

namespace Draft

/-- A pass finds what the passes before it leave. -/
theorem finds_of_run {pass : Pass} {before after : List Pass} {draft : Draft}
    (horder : Pass.inOrder = before ++ pass :: after)
    (hrun : (runPasses source registries before { body := page }).2 = .ok draft) :
    pass.Finds source registries page draft := by
  rw [Pass.Finds, Pass.earlier_eq horder, hrun]

variable (hpage : ofLexemes source.lexemes = .ok page) {before after : List Pass}
  (horder : Pass.inOrder = before ++ after) {draft : Draft}
  (hbefore : (runPasses source registries before { body := page }).2 = .ok draft)

include hpage horder hbefore

/-- Every notice of the rest of a run points at what it is about, wherever the run ends. -/
theorem points_runPasses :
    ∀ notice ∈ Happening.notices (runPasses source registries after draft).1,
      notice.Points source registries page := by
  -- The passes that are behind grow with every step: a pass is known by the draft it finds.
  induction after generalizing before draft with
  | nil => exact List.forall_mem_nil _
  | cons pass after ih =>
      have hfinds := finds_of_run horder hbefore
      rw [runPasses]
      cases hrun : pass.run source registries draft with
      | error fault => exact List.forall_mem_nil _
      | ok answer =>
          obtain ⟨next, notices⟩ := answer
          have hnext : (runPasses source registries (before ++ [pass]) { body := page }).2 =
              .ok next := by
            rw [runPasses_append_outcome hbefore, runPasses_cons_outcome hrun]
            rfl
          have hrest := ih (by rw [horder, List.append_assoc, List.singleton_append]) hnext
          dsimp only
          rw [Happening.notices_append, Happening.notices_noted]
          exact List.forall_mem_append.mpr ⟨Pass.points_run hpage hfinds hrun, hrest⟩

/-- The rest of a run tells the openers of what it removes. -/
theorem sheds_runPasses {final : Draft}
    (hfinal : (runPasses source registries after draft).2 = .ok final) :
    draft.body.Sheds final.body
      (Notice.removals (Happening.notices (runPasses source registries after draft).1)) := by
  induction after generalizing before draft with
  | nil =>
      cases hfinal
      exact .refl _
  | cons pass after ih =>
      have hfinds := finds_of_run horder hbefore
      obtain ⟨next, notices, hrun, hrest⟩ := runPasses_cons_eq_ok hfinal
      have hnext : (runPasses source registries (before ++ [pass]) { body := page }).2 =
          .ok next := by
        rw [runPasses_append_outcome hbefore, runPasses_cons_outcome hrun]
        rfl
      have hothers := ih (by rw [horder, List.append_assoc, List.singleton_append]) hnext hrest
      rw [runPasses, hrun]
      dsimp only
      rw [Happening.notices_append, Happening.notices_noted, Notice.removals_append]
      exact (Pass.sheds_run hpage hfinds hrun).trans hothers

end Draft

end PageMarkup
