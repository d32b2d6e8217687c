import PageMarkup.Proofs.Directive.Lifting
import PageMarkup.Proofs.Page.Unlisted

/-! # Pages without warnings

A page that has a title and otherwise nothing but paragraphs and quotes of text is
compiled without a warning. The passes that look for notes, links, embeds and headings
find none of them.
-/

namespace PageMarkup

/-- A notice that is no warning. -/
def Notice.IsQuiet (notice : Notice) : Prop := notice.remark.severity = .verbose

/-- Whether something that happens is no warning. -/
def Happening.isQuiet : Happening → Bool
  | .noted notice => notice.remark.severity == .verbose
  | .passed _ => true

/-- A node that no pass replaces or lists. -/
def Node.Inert : Rule := fun data _ =>
  data.kind.headingLevel? = none ∧ ∀ bracket, data.kind ≠ .aggregate (.bracket bracket)

namespace Node

theorem stable_inert : Rule.Stable Inert where
  fewer hdata _ := hdata
  text _ _ hdata := hdata
  span _ hdata := hdata
  paragraph _ _ := ⟨rfl, nofun⟩
  quote _ _ hdata := hdata

end Node

namespace Forest

variable {forest : Forest}

theorem Obeys.unlisted_of_inert (hforest : forest.Obeys Node.Inert) :
    forest.Obeys Node.Unlisted :=
  Tree.forestObeys_mono (fun _ _ hdata => ⟨hdata.2 .noteRef, hdata.1⟩) hforest

theorem Obeys.resolveExternals_of_inert (hforest : forest.Obeys Node.Inert) :
    Link.resolveExternals forest = (forest, []) :=
  Tree.forestExpand_of_unanswered fun _ hmem => Link.resolveExternal?_eq_none_iff.mpr
    ((Tree.forestObeys_of_mem_subtrees hforest hmem).data.2 .externalLink)

theorem Obeys.resolveAll_of_inert (registries : Registries) (hforest : forest.Obeys Node.Inert) :
    Embed.resolveAll registries forest = (forest, []) :=
  Tree.forestExpand_of_unanswered fun _ hmem => Embed.resolve?_eq_none_iff.mpr
    ((Tree.forestObeys_of_mem_subtrees hforest hmem).data.2 .embeddedFile)

end Forest

namespace Draft

variable {source : Source} {registries : Registries}

/-- Passes that run from one draft to another without a warning. -/
structure RunsQuietly (source : Source) (registries : Registries) (passes : List Pass)
    (draft final : Draft) : Prop where
  outcome : (runPasses source registries passes draft).2 = .ok final
  quiet : ∀ happening ∈ (runPasses source registries passes draft).1, happening.isQuiet = true

namespace RunsQuietly

theorem nil (draft : Draft) : RunsQuietly source registries [] draft draft :=
  ⟨rfl, List.forall_mem_nil _⟩

/-- One more pass in front. -/
theorem cons {pass : Pass} {passes : List Pass} {draft next final : Draft} {notices : List Notice}
    (hrun : pass.run source registries draft = .ok (next, notices))
    (hnotices : ∀ notice ∈ notices, notice.remark.severity = .verbose)
    (hpasses : RunsQuietly source registries passes next final) :
    RunsQuietly source registries (pass :: passes) draft final := by
  refine ⟨(runPasses_cons_outcome hrun passes).trans hpasses.outcome, ?_⟩
  simp only [runPasses, hrun, List.mem_append, List.mem_map, List.mem_cons]
  rintro happening (⟨notice, hnotice, rfl⟩ | rfl | hmem)
  · simp [Happening.isQuiet, hnotices notice hnotice]
  · rfl
  · exact hpasses.quiet happening hmem

theorem silent {pass : Pass} {passes : List Pass} {draft next final : Draft}
    (hrun : pass.run source registries draft = .ok (next, []))
    (hpasses : RunsQuietly source registries passes next final) :
    RunsQuietly source registries (pass :: passes) draft final :=
  cons hrun nofun hpasses

theorem uncons {pass : Pass} {passes : List Pass} {draft final : Draft}
    (hquiet : RunsQuietly source registries (pass :: passes) draft final) :
    ∃ next notices, pass.run source registries draft = .ok (next, notices) ∧
      (∀ notice ∈ notices, notice.IsQuiet) ∧ RunsQuietly source registries passes next final := by
  obtain ⟨next, notices, hnext, hrest⟩ := runPasses_cons_eq_ok hquiet.outcome
  have hall := hquiet.quiet
  simp only [runPasses, hnext, List.forall_mem_append, List.forall_mem_cons, List.forall_mem_map]
    at hall
  exact ⟨next, notices, hnext, fun notice hmem => beq_iff_eq.mp (hall.1 notice hmem),
    hrest, hall.2.2⟩

theorem split {passes others : List Pass} {draft final : Draft}
    (hquiet : RunsQuietly source registries (passes ++ others) draft final) :
    ∃ middle, RunsQuietly source registries passes draft middle ∧
      RunsQuietly source registries others middle final := by
  induction passes generalizing draft with
  | nil => exact ⟨draft, nil draft, hquiet⟩
  | cons pass passes ih =>
      obtain ⟨next, notices, hnext, hnotices, hrest⟩ := hquiet.uncons
      obtain ⟨middle, hmiddle, hothers⟩ := ih hrest
      exact ⟨middle, cons hnext hnotices hmiddle, hothers⟩

end RunsQuietly

/-- A page with a title and an inert body goes through all passes without a warning. -/
theorem runsQuietly_of_inert (registries : Registries) {forest : Forest} {directive : Directive}
    (hcheck : forest.check = .ok ()) (hprune : forest.pruneEmpty = (forest, []))
    (hfound : Directive.ofForest source forest = [directive])
    (htitle : directive.name = PageTitle.directive) (hargument : directive.argument.isEmpty = false)
    (hbody : (Directive.body source forest).Obeys Node.Inert) :
    RunsQuietly source registries Pass.inOrder { body := forest }
      { body := (Directive.body source forest).arranged.lower
        title := some (.ofDirective false directive) } := by
  have harranged := hbody.arranged Node.stable_inert
  have hunlisted := harranged.unlisted_of_inert
  have hnamed : ∀ name, DirectiveTable.named ⟨[directive]⟩ name =
      if PageTitle.directive = name then [directive] else [] := by
    intro name
    simp [DirectiveTable.named, List.filter_cons, htitle]
  have hwithout : ∀ name, DirectiveTable.without ⟨[directive]⟩ name =
      if PageTitle.directive = name then {} else ⟨[directive]⟩ := by
    intro name
    by_cases hname : PageTitle.directive = name <;> simp [DirectiveTable.without, htitle, hname]
  have hlift : Pass.directives.run source registries { body := forest } =
      .ok ({ body := Directive.body source forest, directives := ⟨[directive]⟩ },
        [⟨.directiveFound directive.name, some directive.offset⟩]) := by
    rw [Pass.run, liftDirectives, hfound]
    rfl
  -- the only directive is the title, so the other names have none
  have hflags : Pass.flags.run source registries
      { body := (Directive.body source forest).arranged, directives := ⟨[directive]⟩ } =
      .ok ({ body := (Directive.body source forest).arranged, directives := ⟨[directive]⟩ }, []) := by
    simp [Pass.run, readFlags, PageFlags.ofTable, DirectiveTable.withoutFlags, Flag.all,
      Flag.notices, Flag.directive, hnamed, hwithout, PageTitle.directive]
  have hcommands : Pass.commands.run source registries
      { body := (Directive.body source forest).arranged, directives := ⟨[directive]⟩ } =
      .ok ({ body := (Directive.body source forest).arranged, directives := ⟨[directive]⟩ }, []) := by
    simp [Pass.run, readCommands, Command.ofDirectives, Command.notices, Command.directive, hnamed,
      hwithout, PageTitle.directive]
  have htitled : Pass.title.run source registries
      { body := (Directive.body source forest).arranged, directives := ⟨[directive]⟩ } =
      .ok ({ body := (Directive.body source forest).arranged
             title := some (.ofDirective false directive) }, []) := by
    simp [Pass.run, readTitle, PageTitle.ofDirectives?, hnamed, hwithout, hargument]
  have hnotes : Pass.notes.run source registries
      { body := (Directive.body source forest).arranged
        title := some (.ofDirective false directive) } =
      .ok ({ body := (Directive.body source forest).arranged
             title := some (.ofDirective false directive) }, []) := by
    have hnone : DirectiveTable.named {} Directive.noteName = [] := rfl
    rw [Pass.run, resolveNotes, hnone, Note.resolve_of_lacks _ hunlisted.lacks_references]
    rfl
  have hlower : Pass.lowering.run source registries
      { body := (Directive.body source forest).arranged
        title := some (.ofDirective false directive) } =
      .ok ({ body := (Directive.body source forest).arranged.lower
             title := some (.ofDirective false directive) }, []) := by
    simp [Pass.run, lower, Forest.dropBlankHeadings_of_lacks hunlisted.lacks_headings,
      Forest.slugHeadings_of_lacks hunlisted.lacks_headings]
  refine .silent (by rw [Pass.run, hcheck]; rfl) ?_
  refine .silent (by rw [Pass.run, prune, hprune]) ?_
  refine .cons hlift (by simp [Remark.severity]) ?_
  refine .silent rfl (.silent rfl (.silent rfl ?_))
  refine .silent hflags (.silent hcommands (.silent htitled (.silent rfl (.silent hnotes ?_))))
  refine .silent (by rw [Pass.run, resolveLinks, harranged.resolveExternals_of_inert]) ?_
  refine .silent (by rw [Pass.run, resolveEmbeds, harranged.resolveAll_of_inert]) ?_
  exact .silent hlower (.silent rfl (.nil _))

end Draft

/-- A source whose only directive is a title and whose other trees are inert is compiled
without a warning. -/
theorem Source.compile_of_inert {source : Source} (hsome : ¬source.isEmpty)
    (registries : Registries) {forest : Forest} {directive : Directive}
    (hforest : Forest.ofLexemes source.lexemes = .ok forest) (hcheck : forest.check = .ok ())
    (hprune : forest.pruneEmpty = (forest, [])) (hdirectives : source.directives = [directive])
    (htitle : directive.name = PageTitle.directive) (hargument : directive.argument.isEmpty = false)
    (hlifted : forest.lifted.Obeys Node.Inert) :
    ∃ document, (source.compile registries).2 = .ok document ∧
      document.body = forest.lifted.arranged.lower ∧
      ∀ happening ∈ (source.compile registries).1, happening.isQuiet = true := by
  have hbody := Forest.body_eq_lifted hforest
  have hfound := directives_eq_ofForest hforest hcheck
  rw [hprune] at hbody hfound
  rw [hdirectives] at hfound
  have hquiet := Draft.runsQuietly_of_inert registries hcheck hprune hfound.symm htitle hargument
    (hbody ▸ hlifted)
  have hdocument : ∃ document, (source.compile registries).2 = .ok document := by
    rw [compile_outcome hsome, hforest, Except.bind, hquiet.outcome]
    exact ⟨_, rfl⟩
  obtain ⟨document, hdocument⟩ := hdocument
  obtain ⟨body, final, hbody', hfinal, hfinish, hhappenings⟩ := compile_eq_ok hdocument
  rw [hforest] at hbody'
  cases hbody'
  rw [hquiet.outcome] at hfinal
  cases hfinal
  refine ⟨document, hdocument, ?_, ?_⟩
  · rw [(Draft.finish_eq_ok hfinish).2.1, hbody]
  · rw [hhappenings]
    simp only [List.cons_append, List.mem_cons, List.mem_append, List.not_mem_nil, or_false]
    rintro happening (rfl | hmem | rfl)
    · rfl
    · exact hquiet.quiet happening hmem
    · rfl

end PageMarkup
