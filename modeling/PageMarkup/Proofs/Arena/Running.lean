import PageMarkup.Arena.Passes
import PageMarkup.Proofs.Arena.Building
import PageMarkup.Proofs.Arena.Checking
import PageMarkup.Proofs.Arena.Grouping
import PageMarkup.Proofs.Arena.Lowering
import PageMarkup.Proofs.Arena.Pruning
import PageMarkup.Proofs.Arena.Resolving
import PageMarkup.Proofs.Arena.WellFormed
import PageMarkup.Proofs.Page.Fronted

/-! # Runs of the passes in an arena

A pass does in an arena what it does to a forest: it ends in the same way, leaves the same
notices, and the arena holds the page that the pass made of the forest. So does a run, as
long as every pass finds what the passes before it leave. No pass ever asks for a number
that no node has, and the arena is well-formed after each of them.
-/

namespace PageMarkup

open Forest Node

/-- Two computations end in the same way: with the same fault, or with results that match. -/
inductive Agree {α β : Type} (matching : α → β → Prop) :
    Except (Fault Nat) α → Except (Fault Nat) β → Prop where
  | ok {first : α} {second : β} : matching first second → Agree matching (.ok first) (.ok second)
  | error (fault : Fault Nat) : Agree matching (.error fault) (.error fault)

namespace ArenaDraft

/-- A draft in an arena says what a draft says. -/
structure Mirrors (numbered : ArenaDraft) (draft : Draft) : Prop where
  page : ∃ forest, numbered.arena.Holds forest ∧ NumberedForest.erase forest = draft.page
  title : numbered.title.map NumberedTitle.text = draft.title.map PageTitle.text
  directives : numbered.directives = draft.directives
  flags : numbered.flags = draft.flags
  commands : numbered.commands = draft.commands
  contributors : numbered.contributors = draft.contributors
  headings : numbered.headings = draft.headings

/-- Drafts after a pass and the notices that it left. -/
def Answers (first : ArenaDraft × List Notice) (second : Draft × List Notice) : Prop :=
  first.1.Mirrors second.1 ∧ first.2 = second.2

/-- What a pass relies on: up to that for the title there is none, and later passes find only
kinds that the passes before them leave. -/
def Prepared (draft : Draft) : Pass → Prop
  | .validate | .prune | .directives | .blockquotes | .trim | .paragraphs | .title =>
    draft.title = none
  | .notes => draft.Titled ∧ draft.body.Obeys (Sound liftedKinds)
  | .externalLinks => draft.Titled ∧ draft.body.Obeys (Sound resolvedKinds)
  | .embeddedFiles => draft.Titled ∧ draft.body.Obeys (Sound linkedKinds)
  | .lowering => draft.Titled
  | .flags | .commands | .contributors | .residualDirectives => True

variable {source : Source} {registries : Registries} {numbered : ArenaDraft} {draft : Draft}

/-! ## The passes one by one -/

namespace Mirrors

/-- The body, where there is no title, is what is in the arena. -/
theorem body (hmirrors : numbered.Mirrors draft) (huntitled : draft.title = none) :
    ∃ forest, numbered.arena.Holds forest ∧ NumberedForest.erase forest = draft.body := by
  obtain ⟨forest, hholds, herase⟩ := hmirrors.page
  exact ⟨forest, hholds, herase.trans (Draft.page_of_untitled huntitled)⟩

/-- Another body in another arena. -/
theorem withArena (hmirrors : numbered.Mirrors draft) {arena : Arena} {body : Forest}
    (hpage : ∃ forest, arena.Holds forest ∧
      NumberedForest.erase forest = Draft.page { draft with body }) :
    Mirrors { numbered with arena } { draft with body } :=
  { hmirrors with page := hpage }

/-- Another body in another arena before there is a title. -/
theorem withBody (hmirrors : numbered.Mirrors draft) (huntitled : draft.title = none)
    {arena : Arena} {body : Forest}
    (hpage : ∃ forest, arena.Holds forest ∧ NumberedForest.erase forest = body) :
    Mirrors { numbered with arena } { draft with body } := by
  refine hmirrors.withArena ?_
  have hbody : Draft.page { draft with body } = body := Draft.page_of_untitled huntitled
  rwa [hbody]

theorem validate (hmirrors : numbered.Mirrors draft) (huntitled : draft.title = none) :
    ∃ outcome, numbered.run source registries .validate = .ok outcome ∧
      Agree Answers outcome (Pass.run source registries draft .validate) := by
  obtain ⟨forest, hholds, herase⟩ := hmirrors.body huntitled
  simp only [ArenaDraft.run, ArenaDraft.validate, hholds.check, herase, Arena.ok_bind, Pass.run,
    Forest.check]
  cases Tree.forestFaults true draft.body with
  | nil => exact ⟨_, rfl, .ok ⟨hmirrors, rfl⟩⟩
  | cons fault faults => exact ⟨_, rfl, .error fault⟩

theorem prune (hmirrors : numbered.Mirrors draft) (huntitled : draft.title = none) :
    ∃ outcome, numbered.run source registries .prune = .ok outcome ∧
      Agree Answers outcome (Pass.run source registries draft .prune) := by
  obtain ⟨forest, hholds, herase⟩ := hmirrors.body huntitled
  obtain ⟨arena, kept, hnext, hkept, hholds⟩ := hholds.pruneEmpty
  rw [herase] at hnext hkept
  refine ⟨_, by rw [ArenaDraft.run, hnext]; rfl, .ok ⟨?_, rfl⟩⟩
  exact hmirrors.withBody huntitled ⟨kept, hholds, hkept⟩

theorem liftDirectives (hmirrors : numbered.Mirrors draft) (huntitled : draft.title = none) :
    ∃ outcome, numbered.run source registries .directives = .ok outcome ∧
      Agree Answers outcome (Pass.run source registries draft .directives) := by
  obtain ⟨forest, hholds, herase⟩ := hmirrors.body huntitled
  obtain ⟨arena, kept, hnext, hkept, hholds⟩ := hholds.liftDirectives source
  rw [herase] at hnext hkept
  refine ⟨_, by rw [ArenaDraft.run, ArenaDraft.liftDirectives, hnext]; rfl, .ok ⟨?_, rfl⟩⟩
  exact { hmirrors.withBody huntitled ⟨kept, hholds, hkept⟩ with directives := rfl }

/-- A pass that rearranges the body. -/
theorem rearrange (hmirrors : numbered.Mirrors draft) (huntitled : draft.title = none)
    {rearranged : Except ArenaFault Arena} {body : Forest}
    (hrearranged : ∀ forest, numbered.arena.Holds forest → NumberedForest.erase forest = draft.body →
      ∃ next kept, rearranged = .ok next ∧ NumberedForest.erase kept = body ∧ next.Holds kept) :
    ∃ outcome, (do return numbered.withArena (← rearranged, [])) = Except.ok outcome ∧
      Agree Answers outcome (.ok ({ draft with body }, [])) := by
  obtain ⟨forest, hholds, herase⟩ := hmirrors.body huntitled
  obtain ⟨next, kept, hnext, hkept, hholds⟩ := hrearranged forest hholds herase
  exact ⟨_, by rw [hnext]; rfl, .ok ⟨hmirrors.withBody huntitled ⟨kept, hholds, hkept⟩, rfl⟩⟩

/-- The heading of the title comes in front. -/
theorem readTitle (hmirrors : numbered.Mirrors draft) (huntitled : draft.title = none) :
    ∃ outcome, numbered.run source registries .title = .ok outcome ∧
      Agree Answers outcome (Pass.run source registries draft .title) := by
  obtain ⟨forest, hholds, herase⟩ := hmirrors.body huntitled
  simp only [ArenaDraft.run, ArenaDraft.readTitle, Pass.run, Draft.readTitle, hmirrors.directives,
    hmirrors.flags]
  cases hfound : PageTitle.ofDirectives? draft.flags.centerTitle
      (draft.directives.named PageTitle.directive) with
  | none => exact ⟨_, rfl, .error _⟩
  | some found =>
      obtain ⟨title, notices⟩ := found
      obtain ⟨directive, rfl⟩ := PageTitle.exists_directive hfound
      obtain ⟨id, stored, hstored, hstores⟩ :=
        hholds.alloc (PageTitle.ofDirective draft.flags.centerTitle directive).heading.data
      obtain ⟨next, hnext, hholds⟩ := hstores.prepend
      have hnext : stored.prepend Arena.root id = .ok next := hnext
      dsimp only
      rw [hstored]
      dsimp only
      rw [hnext, Arena.ok_bind]
      refine ⟨_, rfl, .ok ⟨⟨⟨_, hholds, ?_⟩, rfl, rfl, rfl, hmirrors.commands,
        hmirrors.contributors, hmirrors.headings⟩, rfl⟩⟩
      rw [NumberedForest.erase_cons, NumberedForest.erase_nil, herase]
      rfl

theorem resolveNotes (hmirrors : numbered.Mirrors draft) (htitled : draft.Titled)
    (hsound : draft.body.Obeys (Sound liftedKinds)) :
    ∃ outcome, numbered.run source registries .notes = .ok outcome ∧
      Agree Answers outcome (Pass.run source registries draft .notes) := by
  obtain ⟨forest, hholds, herase⟩ := hmirrors.page
  have hpage := Draft.page_map htitled (Note.resolve draft.definitions)
    fun tree body hinert _ => Note.resolve_cons hinert _ body
  obtain ⟨next, kept, hnext, hkept, hholds⟩ := hholds.resolveNotes
    List.not_mem_nil (herase ▸ Draft.page_sound htitled hsound) draft.definitions
  rw [herase, hpage] at hnext hkept
  have hresolved := hmirrors.withArena ⟨kept, hholds, hkept⟩
  refine ⟨.ok ({ numbered with
      arena := next, directives := draft.directives.without Directive.noteName },
      (Note.resolve draft.definitions draft.body).2), ?_,
    .ok ⟨{ hresolved with directives := rfl }, rfl⟩⟩
  rw [ArenaDraft.run, ArenaDraft.resolveNotes, hmirrors.directives,
    show draft.directives.named Directive.noteName = draft.definitions from rfl, hnext]
  rfl

theorem resolveLinks (hmirrors : numbered.Mirrors draft) (htitled : draft.Titled)
    (hsound : draft.body.Obeys (Sound resolvedKinds)) :
    ∃ outcome, numbered.run source registries .externalLinks = .ok outcome ∧
      Agree Answers outcome (Pass.run source registries draft .externalLinks) := by
  obtain ⟨forest, hholds, herase⟩ := hmirrors.page
  have hpage := Draft.page_map htitled Link.resolveExternals
    fun tree body hinert _ => Link.resolveExternals_cons hinert body
  obtain ⟨next, kept, hnext, hkept, hholds⟩ :=
    hholds.resolveLinks (herase ▸ Draft.page_sound htitled hsound)
  rw [herase, hpage] at hnext hkept
  refine ⟨_, by rw [ArenaDraft.run, hnext]; rfl, .ok ⟨?_, rfl⟩⟩
  exact hmirrors.withArena ⟨kept, hholds, hkept⟩

theorem resolveEmbeds (hmirrors : numbered.Mirrors draft) (htitled : draft.Titled)
    (hsound : draft.body.Obeys (Sound linkedKinds)) :
    ∃ outcome, numbered.run source registries .embeddedFiles = .ok outcome ∧
      Agree Answers outcome (Pass.run source registries draft .embeddedFiles) := by
  obtain ⟨forest, hholds, herase⟩ := hmirrors.page
  have hpage := Draft.page_map htitled (Embed.resolveAll registries)
    fun tree body hinert _ => Embed.resolveAll_cons hinert registries body
  obtain ⟨next, kept, hnext, hkept, hholds⟩ :=
    Arena.Holds.resolveEmbeds registries (herase ▸ Draft.page_sound htitled hsound) hholds
  rw [herase, hpage] at hnext hkept
  refine ⟨_, by rw [ArenaDraft.run, hnext]; rfl, .ok ⟨?_, rfl⟩⟩
  exact hmirrors.withArena ⟨kept, hholds, hkept⟩

theorem lower (hmirrors : numbered.Mirrors draft) (htitled : draft.Titled) :
    ∃ outcome, numbered.run source registries .lowering = .ok outcome ∧
      Agree Answers outcome (Pass.run source registries draft .lowering) := by
  obtain ⟨forest, hholds, herase⟩ := hmirrors.page
  obtain ⟨next, kept, hnext, hkept, hholds⟩ := hholds.lower
  have hdropped := Draft.page_map htitled dropBlankHeadings
    fun tree body hinert _ => dropBlankHeadings_cons hinert body
  have hslugged := Draft.page_map (htitled.withBody draft.body.dropBlankHeadings.1) slugHeadings
    fun tree body hinert hid => slugHeadings_cons hinert hid body
  have hlowered := Draft.page_map (htitled.withBody draft.body.dropBlankHeadings.1.slugHeadings.1)
    (fun body => (body.lower, ())) fun tree body hinert _ => by rw [lower_cons hinert]
  rw [herase, hdropped, hslugged] at hnext hkept
  refine ⟨_, by rw [ArenaDraft.run, ArenaDraft.lower, hnext]; rfl, .ok ⟨?_, rfl⟩⟩
  exact { hmirrors.withArena ⟨kept, hholds, hkept.trans (congrArg Prod.fst hlowered)⟩ with
    headings := rfl }

/-- Every pass does in an arena what it does to the page in it. -/
theorem run (hmirrors : numbered.Mirrors draft) {pass : Pass} (hprepared : Prepared draft pass) :
    ∃ outcome, numbered.run source registries pass = .ok outcome ∧
      Agree Answers outcome (pass.run source registries draft) := by
  cases pass with
  | validate => exact hmirrors.validate hprepared
  | prune => exact hmirrors.prune hprepared
  | directives => exact hmirrors.liftDirectives hprepared
  | blockquotes =>
      refine hmirrors.rearrange hprepared fun forest hholds herase => ?_
      rw [← herase]
      exact hholds.mergeQuotes
  | trim =>
      refine hmirrors.rearrange hprepared fun forest hholds herase => ?_
      rw [← herase]
      exact hholds.trimNewlines
  | paragraphs =>
      refine hmirrors.rearrange hprepared fun forest hholds herase => ?_
      rw [← herase]
      exact hholds.paragraphs
  | flags =>
      refine ⟨_, rfl, .ok ⟨{ hmirrors with directives := ?_, flags := ?_ }, ?_⟩⟩
      all_goals simp only [hmirrors.directives]; rfl
  | commands =>
      refine ⟨_, rfl, .ok ⟨{ hmirrors with directives := ?_, commands := ?_ }, ?_⟩⟩
      all_goals simp only [hmirrors.directives]; rfl
  | title => exact hmirrors.readTitle hprepared
  | contributors =>
      refine ⟨_, rfl, .ok ⟨{ hmirrors with directives := ?_, contributors := ?_ }, ?_⟩⟩
      all_goals simp only [hmirrors.directives]; rfl
  | notes => exact hmirrors.resolveNotes hprepared.1 hprepared.2
  | externalLinks => exact hmirrors.resolveLinks hprepared.1 hprepared.2
  | embeddedFiles => exact hmirrors.resolveEmbeds hprepared.1 hprepared.2
  | lowering => exact hmirrors.lower hprepared
  | residualDirectives => exact ⟨_, rfl, .ok ⟨hmirrors, by rw [hmirrors.directives]⟩⟩

/-- The arena is well-formed, whatever page is in it. -/
theorem wellFormed (hmirrors : numbered.Mirrors draft) : numbered.arena.WellFormed := by
  obtain ⟨forest, hholds, -⟩ := hmirrors.page
  exact hholds.wellFormed

end Mirrors

/-! ## Runs -/

/-- What a pass finds is what it relies on. -/
theorem prepared_of_run {body : Forest} (hbody : Forest.ofLexemes source.lexemes = .ok body)
    {passes others : List Pass} {pass : Pass} (horder : Pass.inOrder = passes ++ pass :: others)
    (hrun : (Draft.runPasses source registries passes { body }).2 = .ok draft) :
    Prepared draft pass := by
  have hpasses : passes = Pass.inOrder.takeWhile (· != pass) := by
    have hnodup : (passes ++ pass :: others).Nodup := horder ▸ by decide
    have hnot : ∀ earlier ∈ passes, (earlier != pass) = true := fun earlier hmem =>
      bne_iff_ne.mpr fun heq => (List.nodup_append.mp hnodup).2.2 earlier hmem pass
        List.mem_cons_self heq
    rw [horder, List.takeWhile_append_of_pos hnot]
    simp
  subst hpasses
  have htitled := Draft.titled_runPasses hrun
  cases pass with
  | validate | prune | directives | blockquotes | trim | paragraphs | title =>
      exact Draft.untitled_runPasses (by decide) hrun
  | notes => exact ⟨htitled, (Draft.sound_before_notes hbody hrun).1⟩
  | externalLinks => exact ⟨htitled, Draft.sound_before_links hbody hrun⟩
  | embeddedFiles => exact ⟨htitled, Draft.sound_before_embeds hbody hrun⟩
  | lowering => exact htitled
  | flags | commands | contributors | residualDirectives => exact trivial

/-- A run in an arena goes as the run goes, and ends as it ends. -/
theorem Mirrors.runPasses (registries : Registries) {body : Forest}
    (hbody : Forest.ofLexemes source.lexemes = .ok body)
    {done passes : List Pass} (horder : done ++ passes <+: Pass.inOrder)
    (hdone : (Draft.runPasses source registries done { body }).2 = .ok draft)
    (hmirrors : numbered.Mirrors draft) :
    ∃ outcome, numbered.runPasses source registries passes =
        .ok ((Draft.runPasses source registries passes draft).1, outcome) ∧
      Agree Mirrors outcome (Draft.runPasses source registries passes draft).2 := by
  induction passes generalizing done numbered draft with
  | nil => exact ⟨_, rfl, .ok hmirrors⟩
  | cons pass passes ih =>
      obtain ⟨others, hothers⟩ := horder
      have hprepared : Prepared draft pass :=
        prepared_of_run hbody (by rw [← hothers, List.append_assoc]; rfl) hdone
      obtain ⟨outcome, hrun, hagree⟩ : ∃ outcome, numbered.run source registries pass = .ok outcome ∧
          Agree Answers outcome (pass.run source registries draft) := hmirrors.run hprepared
      rw [ArenaDraft.runPasses, hrun, Arena.ok_bind, Draft.runPasses]
      generalize hnext : pass.run source registries draft = answer at hagree ⊢
      cases hagree with
      | error fault => exact ⟨_, rfl, .error fault⟩
      | @ok first second hanswers =>
          obtain ⟨first, notices⟩ := first
          obtain ⟨second, _⟩ := second
          obtain ⟨hmirrors, rfl⟩ : first.Mirrors second ∧ notices = _ := hanswers
          have hdone : (Draft.runPasses source registries (done ++ [pass]) { body }).2 =
              .ok second := by
            rw [Draft.runPasses_append_outcome hdone, Draft.runPasses_cons_outcome hnext]
            rfl
          have horder : done ++ [pass] ++ passes <+: Pass.inOrder :=
            ⟨others, by rw [← hothers]; simp⟩
          obtain ⟨outcome, hpasses, hagree⟩ := ih horder hdone hmirrors
          refine ⟨outcome, ?_, hagree⟩
          dsimp only
          rw [hpasses, Arena.ok_bind]
          rfl

/-- A draft that went through all passes in an arena shows a document. -/
structure Shows (numbered : ArenaDraft) (document : Document) : Prop where
  page : ∃ forest, numbered.arena.Holds forest ∧
    NumberedForest.erase forest = document.tree.children
  title : numbered.title.map NumberedTitle.text = some document.title.text
  unresolved : numbered.directives = document.unresolved
  flags : numbered.flags = document.flags
  commands : numbered.commands = document.commands
  contributors : numbered.contributors = document.contributors
  headings : numbered.headings = document.headings

/-- A run that ends with a document in the one ends with it in the other. -/
theorem Mirrors.finish (hmirrors : numbered.Mirrors draft) :
    Agree (fun answer document => answer.1 = document.title.text ∧ answer.2.Shows document)
      numbered.finish draft.finish := by
  have htitle := hmirrors.title
  rw [ArenaDraft.finish, Draft.finish]
  cases hdraft : draft.title with
  | none =>
      rw [hdraft, Option.map_none, Option.map_eq_none_iff] at htitle
      rw [htitle]
      exact .error _
  | some title =>
      rw [hdraft, Option.map_some, Option.map_eq_some_iff] at htitle
      obtain ⟨found, hfound, htext⟩ := htitle
      rw [hfound]
      refine .ok ⟨htext, ?_, by rw [hfound]; exact congrArg some htext, hmirrors.directives,
        hmirrors.flags, hmirrors.commands, hmirrors.contributors, hmirrors.headings⟩
      obtain ⟨forest, hholds, herase⟩ := hmirrors.page
      refine ⟨forest, hholds, ?_⟩
      rw [herase, Draft.page, hdraft]
      rfl

end ArenaDraft

/-! ## Compiling -/

theorem NumberedForest.length_ids (forest : NumberedForest) :
    forest.ids.length = forest.erase.size := by
  induction forest using NumberedForest.induction with
  | nil => simp [Forest.size, Forest.preorder, Tree.forestPreorder]
  | cons id data children rest ihchildren ihrest =>
      rw [ids_cons, List.length_cons, List.length_append, ihchildren, ihrest, erase_cons,
        Forest.size, Forest.size, Forest.size, Forest.preorder, Forest.preorder, Forest.preorder,
        Tree.forestPreorder, Tree.preorder]
      simp

/-- An arena has one node more than the page in it, the root. -/
theorem Arena.Holds.size {arena : Arena} {forest : NumberedForest} (hholds : arena.Holds forest) :
    arena.size = forest.erase.size + 1 := by
  rw [Stores.size hholds, ← NumberedForest.length_ids]
  simp [Place.plug_cons, Arena.top]

namespace Source

variable {source : Source} {registries : Registries}

/-- A page that is nested in an arena is the page that is nested. -/
theorem mirrors_build {arena : Arena} {forest : NumberedForest} (hholds : arena.Holds forest) :
    ArenaDraft.Mirrors { arena } { body := forest.erase } :=
  ⟨⟨forest, hholds, rfl⟩, rfl, rfl, rfl, rfl, rfl, rfl⟩

/-- What passes leave in an arena is what they leave of the page. -/
theorem exists_mirrors_of_runPasses {arena : Arena}
    (hbuild : Arena.build source.lexemes = .ok (.ok arena)) {passes : List Pass}
    (hpasses : passes <+: Pass.inOrder) {happenings : List Happening} {numbered : ArenaDraft}
    (hrun : ArenaDraft.runPasses source registries passes { arena } =
      .ok (happenings, .ok numbered)) :
    ∃ body draft, Forest.ofLexemes source.lexemes = .ok body ∧
      (Draft.runPasses source registries passes { body }).2 = .ok draft ∧
      numbered.Mirrors draft := by
  rcases Arena.build_eq source.lexemes with ⟨fault, -, hfault⟩ | ⟨built, forest, hbody, hbuilt, hholds⟩
  · rw [hbuild] at hfault
    cases hfault
  · rw [hbuild] at hbuilt
    cases hbuilt
    have hpasses : [] ++ passes <+: Pass.inOrder := hpasses
    obtain ⟨outcome, hrun', hagree⟩ :=
      (mirrors_build hholds).runPasses registries hbody hpasses rfl
    rw [hrun] at hrun'
    cases hrun'
    refine ⟨forest.erase, ?_⟩
    generalize (Draft.runPasses source registries passes { body := forest.erase }).2 = answer
      at hagree
    cases hagree with
    | ok hmirrors => exact ⟨_, hbody, rfl, hmirrors⟩

/-- Compiling in an arena never asks for a number that no node has. It ends as compiling
does, with the same fault or the same document, and the same happens on the way. -/
theorem compileInArena_eq (source : Source) (registries : Registries) :
    ∃ outcome, source.compileInArena registries = .ok ((source.compile registries).1, outcome) ∧
      Agree ArenaDraft.Shows outcome (source.compile registries).2 := by
  rw [compileInArena, compile]
  split
  next => exact ⟨_, rfl, .error _⟩
  next =>
    rcases Arena.build_eq source.lexemes with
      ⟨fault, hbody, hbuild⟩ | ⟨arena, forest, hbody, hbuild, hholds⟩
    · rw [hbody, hbuild]
      exact ⟨_, rfl, .error fault⟩
    · obtain ⟨outcome, hrun, hagree⟩ := (mirrors_build hholds).runPasses registries hbody
        (List.prefix_refl ([] ++ Pass.inOrder)) rfl
      rw [hbody, hbuild, Arena.ok_bind]
      dsimp only
      rw [hrun, Arena.ok_bind, hholds.size]
      dsimp only
      generalize Draft.runPasses source registries Pass.inOrder { body := forest.erase } = run
        at hagree ⊢
      obtain ⟨happenings, answer⟩ := run
      dsimp only at hagree ⊢
      cases hagree with
      | error fault => exact ⟨_, rfl, .error fault⟩
      | @ok numbered draft hmirrors =>
          have hfinish := hmirrors.finish
          simp only [Except.bind]
          generalize numbered.finish = first at hfinish ⊢
          generalize draft.finish = second at hfinish ⊢
          cases hfinish with
          | error fault => exact ⟨_, rfl, .error fault⟩
          | @ok answer document hshows =>
              obtain ⟨title, shown⟩ := answer
              obtain ⟨rfl, hshows⟩ := hshows
              exact ⟨_, rfl, .ok hshows⟩

/-- The arena in which a page is compiled stays well-formed. Nesting never misuses it, it is
well-formed once the page is nested and after every pass that does not fail, and no pass asks
for a number that no node has; so compiling ends, as it ends without an arena. -/
theorem compileInArena_wellFormed (source : Source) (registries : Registries) :
    (∃ outcome, source.compileInArena registries = .ok ((source.compile registries).1, outcome) ∧
      Agree ArenaDraft.Shows outcome (source.compile registries).2) ∧
    ∃ built, Arena.build source.lexemes = .ok built ∧ ∀ arena, built = .ok arena →
      arena.WellFormed ∧ ∀ passes, passes <+: Pass.inOrder → ∃ happenings outcome,
        ArenaDraft.runPasses source registries passes { arena } = .ok (happenings, outcome) ∧
        ∀ draft, outcome = .ok draft → draft.arena.WellFormed := by
  refine ⟨compileInArena_eq source registries, ?_⟩
  rcases Arena.build_eq source.lexemes with
    ⟨fault, -, hbuild⟩ | ⟨arena, forest, hbody, hbuild, hholds⟩
  · exact ⟨_, hbuild, nofun⟩
  · refine ⟨_, hbuild, ?_⟩
    rintro _ ⟨⟩
    refine ⟨hholds.wellFormed, fun passes hpasses => ?_⟩
    obtain ⟨outcome, hrun, hagree⟩ := (mirrors_build hholds).runPasses registries hbody
      (show [] ++ passes <+: Pass.inOrder from hpasses) rfl
    refine ⟨_, outcome, hrun, ?_⟩
    rintro draft rfl
    generalize (Draft.runPasses source registries passes { body := forest.erase }).2 = answer
      at hagree
    cases hagree with
    | ok hmirrors => exact hmirrors.wellFormed

/-- A page in which an unknown note is all that a heading in an emphasis holds, and in which
the numbers of the directives are free when the quote and the paragraphs are made. -/
def recycledExample : Source := .ofText "!title T
!noten x
*==\x7bu\x7d==* y
> q
> r
==h\x7bn\x7d== [[l]] [[[m]]]"

/-- It goes through all the passes in an arena, which is well-formed before and after. -/
theorem compileInArena_wellFormed_recycled :
    ∃ arena happenings draft, Arena.build recycledExample.lexemes = .ok (.ok arena) ∧
      arena.WellFormed ∧
      ArenaDraft.runPasses recycledExample Registries.empty Pass.inOrder { arena } =
        .ok (happenings, .ok draft) ∧
      draft.arena.WellFormed ∧ draft.arena.free ≠ [] := by
  have hends : ((Arena.build recycledExample.lexemes).toOption.bind (·.toOption)).any
      (fun arena =>
        (ArenaDraft.runPasses recycledExample Registries.empty Pass.inOrder
          { arena }).toOption.any fun run =>
            run.2.toOption.any fun draft => !draft.arena.free.isEmpty) = true := by
    decide +kernel
  obtain ⟨-, built, hbuild, hbuilt⟩ := compileInArena_wellFormed recycledExample Registries.empty
  rw [hbuild] at hends
  cases built with
  | error fault => cases hends
  | ok arena =>
      obtain ⟨hwell, hruns⟩ := hbuilt arena rfl
      obtain ⟨happenings, outcome, hrun, hkept⟩ := hruns Pass.inOrder (List.prefix_refl _)
      simp only [Except.toOption, Option.bind_some, Option.any_some, hrun] at hends
      cases outcome with
      | error fault => cases hends
      | ok draft =>
          refine ⟨arena, happenings, draft, hbuild, hwell, hrun, hkept draft rfl, fun hfree => ?_⟩
          rw [Option.any_some, hfree] at hends
          cases hends

end Source

end PageMarkup
