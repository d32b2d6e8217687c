import PageMarkup.Proofs.Directive.Lifting
import PageMarkup.Proofs.Likeness.Pages

/-! # Likeness of whole runs

Two sources whose lexemes are alike, and stand at the same places, are compiled side by
side. Each pass says the same on both sides, or finds the same fault, and leaves drafts
that are alike. So the same happens in both compilations, and they end alike.
-/

namespace PageMarkup

open Node

/-- Sources with lexemes that are alike, at the same places, and with the same directives. -/
structure Source.Like (L : Likeness) (source other : Source) : Prop where
  placed : L.placed
  isEmpty : source.isEmpty = other.isEmpty
  lexemes : List.Forall₂ (Lexeme.Like L) source.lexemes other.lexemes
  directives : source.directives = other.directives
  arguments : ∀ directive ∈ source.directives, L.text directive.argument directive.argument

/-- Drafts whose bodies and headings are alike and that hold the same directives and metadata.
Contents of the bodies are related by `C`, texts of headings by `D`. -/
structure Draft.Like (L : Likeness) (D C : String → String → Prop) (draft other : Draft) :
    Prop where
  body : Forest.Like L C draft.body other.body
  directives : draft.directives = other.directives
  arguments : ∀ directive ∈ draft.directives.directives,
    L.text directive.argument directive.argument
  flags : draft.flags = other.flags
  commands : draft.commands = other.commands
  title : draft.title = other.title
  contributors : draft.contributors = other.contributors
  headings : List.Forall₂ (Heading.Like D) draft.headings other.headings

/-- Documents whose bodies and headings are alike and that say the same otherwise. -/
structure Document.Like (L : Likeness) (C : String → String → Prop) (document other : Document) :
    Prop where
  body : Forest.Like L C document.body other.body
  title : document.title = other.title
  contributors : document.contributors = other.contributors
  flags : document.flags = other.flags
  commands : document.commands = other.commands
  headings : List.Forall₂ (Heading.Like C) document.headings other.headings
  unresolved : document.unresolved = other.unresolved

namespace Draft

variable {L : Likeness} {C D : String → String → Prop} {source other : Source}
  {registries : Registries}

/-! ## Side by side -/

/-- A pass on two drafts, each of its own source. -/
def Answers (L : Likeness) (source other : Source) (registries : Registries)
    (R : Draft → Draft → Prop) (pass : Pass) (draft draft' : Draft) : Prop :=
  Fault.Outcome L (fun answer answer' => R answer.1 answer'.1 ∧ answer.2 = answer'.2)
    (pass.run source registries draft) (pass.run other registries draft')

/-- Passes that lead from drafts related by one relation to drafts related by another. -/
inductive Carries (L : Likeness) (source other : Source) (registries : Registries) :
    List Pass → (Draft → Draft → Prop) → (Draft → Draft → Prop) → Prop where
  | nil {R : Draft → Draft → Prop} : Carries L source other registries [] R R
  | cons {pass : Pass} {passes : List Pass} {R R' R'' : Draft → Draft → Prop} :
      (∀ draft draft', R draft draft' → Answers L source other registries R' pass draft draft') →
      Carries L source other registries passes R' R'' →
      Carries L source other registries (pass :: passes) R R''

/-- The same happens in two runs, and they end alike. -/
def RunsAlike (L : Likeness) (R : Draft → Draft → Prop)
    (run run' : List Happening × Except (Fault Nat) Draft) : Prop :=
  run.1 = run'.1 ∧ Fault.Outcome L R run.2 run'.2

namespace Carries

variable {R R' R'' : Draft → Draft → Prop}

theorem append {passes others : List Pass} (hfirst : Carries L source other registries passes R R')
    (hsecond : Carries L source other registries others R' R'') :
    Carries L source other registries (passes ++ others) R R'' := by
  induction hfirst with
  | nil => exact hsecond
  | cons hpass _ ih => exact .cons hpass (ih hsecond)

/-- A relation that every one of the passes keeps. -/
theorem of_forall {passes : List Pass} (hpasses : ∀ pass ∈ passes, ∀ draft draft',
    R draft draft' → Answers L source other registries R pass draft draft') :
    Carries L source other registries passes R R := by
  induction passes with
  | nil => exact .nil
  | cons pass passes ih =>
      obtain ⟨hpass, hrest⟩ := List.forall_mem_cons.mp hpasses
      exact .cons hpass (ih hrest)

theorem runsAlike {passes : List Pass} (hcarries : Carries L source other registries passes R R')
    {draft draft' : Draft} (hrelated : R draft draft') :
    RunsAlike L R' (runPasses source registries passes draft)
      (runPasses other registries passes draft') := by
  induction hcarries generalizing draft draft' with
  | nil => exact ⟨rfl, .ok hrelated⟩
  | @cons pass passes _ _ _ hpass _ ih =>
      have hanswers := hpass draft draft' hrelated
      unfold Answers at hanswers
      simp only [runPasses]
      generalize pass.run source registries draft = answer,
        pass.run other registries draft' = answer' at hanswers
      cases hanswers with
      | ok hboth =>
          obtain ⟨hhappenings, houtcome⟩ := ih hboth.1
          refine ⟨?_, houtcome⟩
          simp only [hboth.2, hhappenings]
      | error hfault => exact ⟨rfl, .error hfault⟩

end Carries

/-! ## The passes -/

namespace Like

variable {draft draft' : Draft}

/-- Drafts from which the directives of a name have been taken. -/
theorem without (hlike : draft.Like L D C draft') (name : String) :
    Draft.Like L D C { draft with directives := draft.directives.without name }
      { draft' with directives := draft'.directives.without name } :=
  { hlike with
    directives := by rw [hlike.directives]
    arguments := fun directive hmem => hlike.arguments directive (List.mem_filter.mp hmem).1 }

/-- The passes that arrange the body and read directives say the same of drafts that are
alike. -/
theorem rearranging (hlike : draft.Like L D C draft') {pass : Pass} (hpass : pass ∈ rearranging) :
    Answers L source other registries (Draft.Like L D C) pass draft draft' := by
  unfold Answers
  cases pass with
  | blockquotes => exact .ok ⟨{ hlike with body := hlike.body.mergeQuotes }, rfl⟩
  | trim => exact .ok ⟨{ hlike with body := hlike.body.trimNewlines }, rfl⟩
  | paragraphs => exact .ok ⟨{ hlike with body := hlike.body.paragraphs }, rfl⟩
  | flags =>
      have hkept : ∀ directive ∈ draft.directives.withoutFlags.directives,
          L.text directive.argument directive.argument := by
        intro directive hmem
        refine hlike.arguments directive ?_
        simp only [DirectiveTable.withoutFlags, Flag.all, List.foldl_cons, List.foldl_nil,
          DirectiveTable.without, List.mem_filter] at hmem
        exact hmem.1.1.1.1
      exact .ok ⟨{ hlike with
        flags := congrArg PageFlags.ofTable hlike.directives
        directives := congrArg DirectiveTable.withoutFlags hlike.directives
        arguments := hkept },
        congrArg (fun table => Flag.all.flatMap (Flag.notices table)) hlike.directives⟩
  | commands =>
      have hfound : draft.directives.named Command.directive =
          draft'.directives.named Command.directive := by rw [hlike.directives]
      exact .ok ⟨{ hlike.without Command.directive with
        commands := congrArg Command.ofDirectives hfound }, congrArg Command.notices hfound⟩
  | title =>
      have hfound : PageTitle.ofDirectives? draft.flags.centerTitle
            (draft.directives.named PageTitle.directive) =
          PageTitle.ofDirectives? draft'.flags.centerTitle
            (draft'.directives.named PageTitle.directive) := by
        rw [hlike.directives, hlike.flags]
      simp only [Pass.run, readTitle]
      rw [hfound]
      split
      next => exact .error fun _ => rfl
      next => exact .ok ⟨{ hlike.without PageTitle.directive with title := rfl }, rfl⟩
  | contributors =>
      have hfound : Contributor.ofDirectives registries []
            (draft.directives.named Contributor.directive) =
          Contributor.ofDirectives registries []
            (draft'.directives.named Contributor.directive) := by rw [hlike.directives]
      have hnotices : (Contributor.ofDirectives registries []
            (draft.directives.named Contributor.directive)).2 =
          (Contributor.ofDirectives registries []
            (draft'.directives.named Contributor.directive)).2 := congrArg Prod.snd hfound
      exact .ok ⟨{ hlike.without Contributor.directive with
        contributors := congrArg Prod.fst hfound }, hnotices⟩
  | _ => simp [Draft.rearranging] at hpass

theorem resolveNotes (hplaced : L.placed) (hlike : draft.Like L D L.text draft')
    (hbody : draft.body.Obeys PlainName) :
    Answers L source other registries (Draft.Like L D L.text) .notes draft draft' := by
  have hdefinitions : List.Forall₂ (Directive.Like L)
      (draft.directives.named Directive.noteName) (draft'.directives.named Directive.noteName) := by
    rw [← hlike.directives]
    refine List.forall₂_same.mpr fun directive hmem => ⟨rfl, rfl, rfl, ?_, fun _ => rfl⟩
    exact hlike.arguments directive (List.mem_filter.mp hmem).1
  obtain ⟨hresolved, hnotices⟩ := Note.like_resolve hdefinitions hbody hlike.body
  exact .ok ⟨{ hlike.without Directive.noteName with body := hresolved }, hnotices hplaced⟩

theorem resolveLinks (hplaced : L.placed) (hlike : draft.Like L D L.text draft') :
    Answers L source other registries (Draft.Like L D L.text) .externalLinks draft draft' := by
  obtain ⟨hresolved, hnotices⟩ := Link.like_resolveExternals hlike.body
  exact .ok ⟨{ hlike with body := hresolved }, hnotices hplaced⟩

theorem resolveEmbeds (hplaced : L.placed) (hC : ∀ a b, L.text a b → C a b)
    (hmedia : Embed.Registered C registries) (hlike : draft.Like L D L.text draft') :
    Answers L source other registries (Draft.Like L D C) .embeddedFiles draft draft' := by
  obtain ⟨hresolved, hnotices⟩ := Embed.like_resolveAll hC hmedia hlike.body
  exact .ok ⟨{ hlike with body := hresolved }, hnotices hplaced⟩

theorem lower (hplaced : L.placed) (hC : ∀ a b, L.text a b → C a b)
    (hshown : ∀ a b, C a b → L.Shown a b) (hlike : draft.Like L C C draft') :
    Answers L source other registries (Draft.Like L C C) .lowering draft draft' := by
  obtain ⟨hkept, hnotices⟩ := hlike.body.dropBlankHeadings
  obtain ⟨hslugged, hheadings⟩ := Forest.Like.slugHeadings hC hshown hkept
  exact .ok ⟨{ hlike with body := Tree.forestLike_lower hslugged, headings := hheadings },
    hnotices hplaced⟩

theorem residual (hlike : draft.Like L D C draft') :
    Answers L source other registries (Draft.Like L D C) .residualDirectives draft draft' :=
  .ok ⟨hlike, congrArg DirectiveTable.unknownNotices hlike.directives⟩

end Like

/-- What the passes after the lifting of directives do on both sides. -/
theorem carries_lifted (hplaced : L.placed) (hC : ∀ a b, L.text a b → C a b)
    (hshown : ∀ a b, C a b → L.Shown a b) (hmedia : Embed.Registered C registries) :
    Carries L source other registries (rearranging ++ .notes :: afterNotes)
      (fun draft draft' => draft.Like L C L.text draft' ∧ draft.body.Obeys PlainName)
      (Draft.Like L C C) := by
  refine Carries.append (.of_forall fun pass hpass draft draft' hrelated => ?_) ?_
  · have hanswers : Answers L source other registries (Draft.Like L C L.text) pass draft draft' :=
      hrelated.1.rearranging hpass
    unfold Answers at hanswers ⊢
    generalize hrun : pass.run source registries draft = answer at hanswers ⊢
    generalize pass.run other registries draft' = answer' at hanswers ⊢
    cases hanswers with
    | error hfault => exact .error hfault
    | @ok answer answer' hboth =>
        exact .ok ⟨⟨hboth.1, run_rearranging Rule.stable_plainName hpass hrelated.2 hrun⟩, hboth.2⟩
  · exact .cons (fun _ _ hrelated => hrelated.1.resolveNotes hplaced hrelated.2) <|
      .cons (fun _ _ => Like.resolveLinks hplaced) <|
      .cons (fun _ _ => Like.resolveEmbeds hplaced hC hmedia) <|
      .cons (fun _ _ => Like.lower hplaced hC hshown) <|
      .cons (fun _ _ => Like.residual) .nil

/-! ## Lifting directives -/

/-- What is done to a nested page before its directives are read. -/
def lifted (source : Source) (body : Forest) : Draft :=
  { body := Directive.body source body.pruneEmpty.1
    directives := ⟨Directive.ofForest source body.pruneEmpty.1⟩ }

theorem runPasses_of_error {body : Forest} {fault : Fault Nat} (hcheck : body.check = .error fault)
    (passes : List Pass) :
    runPasses source registries (.validate :: passes) { body } = ([], .error fault) := by
  simp [runPasses, Pass.run, hcheck, Except.map]

theorem runPasses_of_ok {body : Forest} (hcheck : body.check = .ok ()) (passes : List Pass) :
    runPasses source registries (.validate :: .prune :: .directives :: passes) { body } =
      (.passed .validate :: (body.pruneEmpty.2.map .noted ++ Happening.passed .prune ::
          ((Directive.ofForest source body.pruneEmpty.1).map (fun directive =>
            Happening.noted ⟨.directiveFound directive.name, some directive.offset⟩) ++
          Happening.passed .directives :: (runPasses source registries passes (lifted source body)).1)),
        (runPasses source registries passes (lifted source body)).2) := by
  simp [runPasses, Pass.run, hcheck, Except.map, prune, liftDirectives, lifted]

end Draft

namespace Source.Like

open Draft

variable {L : Likeness} {C : String → String → Prop} {source other : Source}
  {registries : Registries}

theorem lifted (hlike : source.Like L other) {body body' : Forest}
    (hbody : Forest.ofLexemes source.lexemes = .ok body)
    (hbody' : Forest.ofLexemes other.lexemes = .ok body') (hcheck : body.check = .ok ())
    (hcheck' : body'.check = .ok ()) (hbodies : Forest.Like L L.text body body') :
    (Draft.lifted source body).Like L C L.text (Draft.lifted other body') := by
  have hdirectives := Source.directives_eq_ofForest hbody hcheck
  have hdirectives' := Source.directives_eq_ofForest hbody' hcheck'
  refine ⟨?_, ?_, ?_, rfl, rfl, rfl, rfl, .nil⟩
  · simp only [Draft.lifted, Forest.body_eq_lifted hbody, Forest.body_eq_lifted hbody']
    exact hbodies.lifted
  · simp only [Draft.lifted, ← hdirectives, ← hdirectives', hlike.directives]
  · simp only [Draft.lifted, ← hdirectives]
    exact hlike.arguments

/-- The passes say the same and lead to drafts that are alike. -/
theorem runsAlike (hlike : source.Like L other) (hC : ∀ a b, L.text a b → C a b)
    (hshown : ∀ a b, C a b → L.Shown a b) (hmedia : Embed.Registered C registries)
    {body body' : Forest} (hbody : Forest.ofLexemes source.lexemes = .ok body)
    (hbody' : Forest.ofLexemes other.lexemes = .ok body')
    (hbodies : Forest.Like L L.text body body') :
    RunsAlike L (Draft.Like L C C) (runPasses source registries Pass.inOrder { body })
      (runPasses other registries Pass.inOrder { body := body' }) := by
  have horder : Pass.inOrder =
      Pass.validate :: .prune :: .directives :: (rearranging ++ Pass.notes :: afterNotes) := rfl
  rw [horder]
  have hchecks := hbodies.check
  generalize hcheck : body.check = check, hcheck' : body'.check = check' at hchecks
  cases hchecks with
  | error hfault =>
      rw [runPasses_of_error hcheck, runPasses_of_error hcheck']
      exact ⟨rfl, .error hfault⟩
  | ok =>
      have hlifted := hlike.lifted (C := C) hbody hbody' hcheck hcheck' hbodies
      have hcarries : Carries L source other registries _ _ (Draft.Like L C C) :=
        carries_lifted hlike.placed hC hshown hmedia
      obtain ⟨hhappenings, houtcome⟩ :=
        hcarries.runsAlike ⟨hlifted, Forest.plainName_body hbody hcheck⟩
      have hpruned := (Tree.forestLike_pruneEmpty hbodies).2 hlike.placed
      have hfound : Directive.ofForest source body.pruneEmpty.1 =
          Directive.ofForest other body'.pruneEmpty.1 :=
        congrArg DirectiveTable.directives hlifted.directives
      rw [runPasses_of_ok hcheck, runPasses_of_ok hcheck']
      refine ⟨?_, houtcome⟩
      rw [hhappenings, hfound, Forest.pruneEmpty, Forest.pruneEmpty, hpruned]

theorem finish {draft draft' : Draft} (hlike : draft.Like L C C draft') :
    Fault.Outcome L (Document.Like L C) draft.finish draft'.finish := by
  unfold Draft.finish
  rw [← hlike.title]
  cases draft.title with
  | none => exact .error fun _ => rfl
  | some title =>
      exact .ok ⟨hlike.body, rfl, hlike.contributors, hlike.flags, hlike.commands, hlike.headings,
        hlike.directives⟩

/-- The same happens in the compilations of sources that are alike, and they end alike. -/
theorem compile (hlike : source.Like L other) (hC : ∀ a b, L.text a b → C a b)
    (hshown : ∀ a b, C a b → L.Shown a b) (hmedia : Embed.Registered C registries) :
    (source.compile registries).1 = (other.compile registries).1 ∧
      Fault.Outcome L (Document.Like L C) (source.compile registries).2
        (other.compile registries).2 := by
  unfold Source.compile
  rw [← hlike.isEmpty]
  split
  next => exact ⟨rfl, .error fun _ => rfl⟩
  next =>
    have hnested := Forest.like_ofLexemes (C := L.text) hlike.lexemes
    generalize hbody : Forest.ofLexemes source.lexemes = nested,
      hbody' : Forest.ofLexemes other.lexemes = nested' at hnested
    cases hnested with
    | error hfault => exact ⟨rfl, .error hfault⟩
    | @ok body body' hbodies =>
        have hsize : body.size = body'.size := (Tree.forestLike_preorder hbodies).length_eq
        obtain ⟨hhappenings, houtcome⟩ := hlike.runsAlike hC hshown hmedia hbody hbody' hbodies
        dsimp only
        rw [hhappenings, hsize]
        generalize (runPasses source registries Pass.inOrder { body }).2 = outcome,
          (runPasses other registries Pass.inOrder { body := body' }).2 = outcome' at houtcome
        cases houtcome with
        | error hfault => exact ⟨rfl, .error hfault⟩
        | @ok draft draft' hdrafts =>
            have hfinished := finish hdrafts
            simp only [Except.bind]
            generalize draft.finish = finished, draft'.finish = finished' at hfinished
            cases hfinished with
            | error hfault => exact ⟨rfl, .error hfault⟩
            | ok hdocuments => exact ⟨by simp only [hdocuments.title], .ok hdocuments⟩

end Source.Like

end PageMarkup
