import PageMarkup.Page.Basic

/-! # Runs of the passes

A run that ends with a draft goes through a draft after every pass, and what each pass
keeps the run keeps. A compiled page is the end of such a run.
-/

namespace PageMarkup

/-- The passes that run before a pass. -/
def Pass.earlier (pass : Pass) : List Pass := inOrder.takeWhile (· != pass)

theorem Pass.earlier_eq {pass : Pass} {before after : List Pass}
    (horder : inOrder = before ++ pass :: after) : pass.earlier = before := by
  have hnodup : inOrder.Nodup := by decide
  rw [horder] at hnodup
  have hbefore : ∀ other ∈ before, (other != pass) = true := by
    intro other hmem
    rw [bne_iff_ne]
    rintro rfl
    exact (List.nodup_append.mp hnodup).2.2 other hmem other List.mem_cons_self rfl
  rw [earlier, horder, List.takeWhile_append_of_pos hbefore, List.takeWhile_cons_of_neg (by simp),
    List.append_nil]

namespace Draft

variable {source : Source} {registries : Registries}

theorem runPasses_cons_eq_ok {pass : Pass} {passes : List Pass} {draft final : Draft}
    (hrun : (runPasses source registries (pass :: passes) draft).2 = .ok final) :
    ∃ next notices, pass.run source registries draft = .ok (next, notices) ∧
      (runPasses source registries passes next).2 = .ok final := by
  rw [runPasses] at hrun
  split at hrun
  next => cases hrun
  next next notices hnext => exact ⟨next, notices, hnext, hrun⟩

theorem runPasses_append_eq_ok {passes others : List Pass} {draft final : Draft}
    (hrun : (runPasses source registries (passes ++ others) draft).2 = .ok final) :
    ∃ middle, (runPasses source registries passes draft).2 = .ok middle ∧
      (runPasses source registries others middle).2 = .ok final := by
  induction passes generalizing draft with
  | nil => exact ⟨draft, rfl, hrun⟩
  | cons pass passes ih =>
      obtain ⟨next, notices, hnext, hrest⟩ := runPasses_cons_eq_ok hrun
      obtain ⟨middle, hmiddle, hothers⟩ := ih hrest
      exact ⟨middle, by rw [runPasses, hnext]; exact hmiddle, hothers⟩

theorem runPasses_cons_outcome {pass : Pass} {draft next : Draft} {notices : List Notice}
    (hrun : pass.run source registries draft = .ok (next, notices)) (passes : List Pass) :
    (runPasses source registries (pass :: passes) draft).2 =
      (runPasses source registries passes next).2 := by
  rw [runPasses, hrun]

/-- A run that goes on ends as what is left of it does. -/
theorem runPasses_append_outcome {passes : List Pass} {draft middle : Draft}
    (hmiddle : (runPasses source registries passes draft).2 = .ok middle) (others : List Pass) :
    (runPasses source registries (passes ++ others) draft).2 =
      (runPasses source registries others middle).2 := by
  induction passes generalizing draft with
  | nil =>
      cases hmiddle
      rfl
  | cons pass passes ih =>
      obtain ⟨next, notices, hnext, hrest⟩ := runPasses_cons_eq_ok hmiddle
      rw [List.cons_append, runPasses_cons_outcome hnext]
      exact ih hrest

/-- What every one of the passes keeps holds at the end if it holds at the start. -/
theorem runPasses_invariant {P : Draft → Prop} {passes : List Pass} {draft final : Draft}
    (hstep : ∀ pass ∈ passes, ∀ draft next notices, P draft →
      pass.run source registries draft = .ok (next, notices) → P next)
    (hrun : (runPasses source registries passes draft).2 = .ok final) (hdraft : P draft) :
    P final := by
  induction passes generalizing draft with
  | nil =>
      cases hrun
      exact hdraft
  | cons pass passes ih =>
      obtain ⟨hpass, hpasses⟩ := List.forall_mem_cons.mp hstep
      obtain ⟨next, notices, hnext, hrest⟩ := runPasses_cons_eq_ok hrun
      exact ih hpasses hrest (hpass draft next notices hdraft hnext)

/-- A page that passes the check goes on as it is. -/
theorem validate_eq_ok {draft next : Draft} {notices : List Notice}
    (hrun : Pass.validate.run source registries draft = .ok (next, notices)) :
    draft.body.check = .ok () ∧ next = draft ∧ notices = [] := by
  simp only [Pass.run] at hrun
  cases hcheck : draft.body.check <;> rw [hcheck] at hrun <;> cases hrun
  exact ⟨rfl, rfl, rfl⟩

/-- What the lift leaves of a page that passes the check. -/
theorem eq_of_lifted {draft lifted : Draft}
    (hrun : (runPasses source registries [.validate, .prune, .directives] draft).2 =
      .ok lifted) :
    draft.body.check = .ok () ∧
      lifted =
        { draft with
          body := Directive.body source draft.body.pruneEmpty.1
          directives := ⟨Directive.ofForest source draft.body.pruneEmpty.1⟩ } := by
  obtain ⟨checked, _, hchecked, hrun⟩ := runPasses_cons_eq_ok hrun
  obtain ⟨pruned, _, hpruned, hrun⟩ := runPasses_cons_eq_ok hrun
  obtain ⟨found, _, hfound, hrun⟩ := runPasses_cons_eq_ok hrun
  obtain ⟨hcheck, rfl, -⟩ := validate_eq_ok hchecked
  cases hpruned
  cases hfound
  cases hrun
  exact ⟨hcheck, rfl⟩

/-- The title is read from the first of its directives. -/
theorem title_eq_ok {draft next : Draft} {notices : List Notice}
    (hrun : Pass.title.run source registries draft = .ok (next, notices)) :
    ∃ first others, draft.directives.named PageTitle.directive = first :: others ∧
      next =
        { draft with
          title := some (.ofDirective draft.flags.centerTitle first)
          directives := draft.directives.without PageTitle.directive } ∧
      notices =
        others.map (fun other => ⟨.titleRepeated, some other.offset⟩) ++
          if first.argument.isEmpty then [⟨.titleEmpty, some first.offset⟩] else [] := by
  simp only [Pass.run, readTitle] at hrun
  cases hfound : draft.directives.named PageTitle.directive with
  | nil =>
      rw [hfound] at hrun
      cases hrun
  | cons first others =>
      rw [hfound] at hrun
      cases hrun
      exact ⟨first, others, rfl, rfl, rfl⟩

/-- The notes are resolved from their definitions, which are then used up. -/
theorem notes_eq_ok {draft next : Draft} {notices : List Notice}
    (hrun : Pass.notes.run source registries draft = .ok (next, notices)) :
    next =
        { draft with
          body := (Note.resolve (draft.directives.named Directive.noteName) draft.body).1
          directives := draft.directives.without Directive.noteName } ∧
      notices = (Note.resolve (draft.directives.named Directive.noteName) draft.body).2 :=
  have hnoted := Except.ok.inj hrun
  ⟨(congrArg Prod.fst hnoted).symm, (congrArg Prod.snd hnoted).symm⟩

/-- A pass leaves the title alone or reads it from a directive. -/
theorem title_run {pass : Pass} {draft next : Draft} {notices : List Notice}
    (hrun : pass.run source registries draft = .ok (next, notices)) :
    next.title = draft.title ∨
      ∃ centered directive, next.title = some (.ofDirective centered directive) := by
  cases pass with
  | validate =>
      obtain ⟨-, rfl, -⟩ := validate_eq_ok hrun
      exact .inl rfl
  | title =>
      obtain ⟨first, others, -, rfl, -⟩ := title_eq_ok hrun
      exact .inr ⟨_, _, rfl⟩
  | _ =>
      cases hrun
      exact .inl rfl

theorem finish_eq_ok {draft : Draft} {document : Document} (hfinish : draft.finish = .ok document) :
    draft.title = some document.title ∧ document.body = draft.body ∧
      document.headings = draft.headings := by
  unfold finish at hfinish
  split at hfinish
  next => cases hfinish
  next title htitle =>
    cases hfinish
    exact ⟨htitle, rfl, rfl⟩

/-- A title that a run ends with is that of a directive. -/
theorem title_runPasses {passes : List Pass} {draft final : Draft}
    (hrun : (runPasses source registries passes draft).2 = .ok final) (hdraft : draft.title = none)
    {title : PageTitle} (htitle : final.title = some title) :
    ∃ centered directive, title = .ofDirective centered directive := by
  refine runPasses_invariant (P := fun draft => ∀ title, draft.title = some title →
    ∃ centered directive, title = .ofDirective centered directive) ?_ hrun ?_ title htitle
  · rintro pass - draft next notices hdraft hnext title htitle
    rcases title_run hnext with hsame | ⟨centered, directive, hread⟩
    · exact hdraft title (hsame ▸ htitle)
    · rw [hread] at htitle
      exact ⟨centered, directive, (Option.some.inj htitle).symm⟩
  · intro title htitle
    rw [hdraft] at htitle
    cases htitle

end Draft

namespace Source

/-- A compiled page comes from a forest that the lexemes nest into and a run of all passes.
What happens is that run, with the forest before it and the page after it. -/
theorem compile_eq_ok {source : Source} {registries : Registries} {document : Document}
    (hcompile : (source.compile registries).2 = .ok document) :
    ∃ body draft, Forest.ofLexemes source.lexemes = .ok body ∧
      (Draft.runPasses source registries Pass.inOrder { body }).2 = .ok draft ∧
      draft.finish = .ok document ∧
      (source.compile registries).1 =
        .noted ⟨.treeBuilt (body.size + 1), none⟩ ::
            (Draft.runPasses source registries Pass.inOrder { body }).1 ++
          [Happening.noted ⟨.pageParsed document.title.text, none⟩] := by
  unfold compile at hcompile ⊢
  split at hcompile
  next => cases hcompile
  next hempty =>
    rw [if_neg hempty]
    split at hcompile
    next => cases hcompile
    next body hbody =>
      rw [hbody]
      generalize hrun : Draft.runPasses source registries Pass.inOrder { body } = run at hcompile
      obtain ⟨happenings, outcome⟩ := run
      dsimp only at hcompile
      split at hcompile
      next => cases hcompile
      next found hfinish =>
        cases hcompile
        cases outcome with
        | error fault => cases hfinish
        | ok draft =>
            have hfinish : draft.finish = .ok document := hfinish
            refine ⟨body, draft, rfl, by rw [hrun], hfinish, ?_⟩
            simp only [hrun, Except.bind, hfinish]

end Source

end PageMarkup
