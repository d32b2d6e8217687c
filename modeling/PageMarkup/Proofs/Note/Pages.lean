import PageMarkup.Proofs.Note.Resolution
import PageMarkup.Proofs.Page.Remarks

/-! # Notes of pages

On every page that compiles, the pass for notes finds references and definitions, and
resolves them completely. No other pass warns about notes.
-/

namespace PageMarkup

open Node Forest

/-- The warning about a note that a happening is. -/
def Happening.noteWarning? : Happening → Option Notice
  | .noted notice => if notice.remark.isNoteWarning then some notice else none
  | .passed _ => none

namespace Draft

variable {source : Source} {registries : Registries}

theorem filterMap_noted (notices : List Notice) :
    (notices.map Happening.noted).filterMap Happening.noteWarning? =
      notices.filter (·.remark.isNoteWarning) := by
  rw [List.filterMap_map, ← List.filterMap_eq_filter]
  rfl

/-- Only the pass for notes warns about notes. -/
theorem filter_noteWarning_eq_nil {pass : Pass} {notices : List Notice}
    (hnotices : pass.Notes notices) (hpass : pass ≠ .notes) :
    notices.filter (·.remark.isNoteWarning) = [] := by
  refine List.filter_eq_nil_iff.mpr fun notice hmem hwarning => ?_
  have hmay := hnotices notice hmem
  cases hremark : notice.remark <;> rw [hremark] at hmay hwarning <;>
    cases pass <;> simp_all [Pass.mayNote, Remark.isNoteWarning]

theorem noteWarnings_of_notes_not_mem {passes : List Pass} (hpasses : .notes ∉ passes)
    (draft : Draft) :
    (runPasses source registries passes draft).1.filterMap Happening.noteWarning? = [] := by
  induction passes generalizing draft with
  | nil => rfl
  | cons pass passes ih =>
      rw [List.mem_cons, not_or] at hpasses
      obtain ⟨hpass, hpasses⟩ := hpasses
      rw [runPasses]
      split
      next => rfl
      next next notices hrun =>
        have hnone := filter_noteWarning_eq_nil (Pass.notes_run hrun) (Ne.symm hpass)
        dsimp only
        rw [List.filterMap_append, filterMap_noted, hnone, List.nil_append,
          List.filterMap_cons_none rfl, ih hpasses]

/-- What happens in two runs in a row happens in the first and then in the second. -/
theorem runPasses_append_happenings {passes : List Pass} {draft middle : Draft}
    (hmiddle : (runPasses source registries passes draft).2 = .ok middle) (others : List Pass) :
    (runPasses source registries (passes ++ others) draft).1 =
      (runPasses source registries passes draft).1 ++
        (runPasses source registries others middle).1 := by
  induction passes generalizing draft with
  | nil =>
      cases hmiddle
      rfl
  | cons pass passes ih =>
      obtain ⟨next, notices, hnext, hrest⟩ := runPasses_cons_eq_ok hmiddle
      rw [List.cons_append, runPasses, runPasses, hnext]
      simp [ih hrest]

/-- The directives that define notes. -/
def definitions (draft : Draft) : List Directive := draft.directives.named Directive.noteName

theorem named_without (table : DirectiveTable)
    {name other : String} (hne : name ≠ other) :
    (table.without other).named name = table.named name := by
  simp only [DirectiveTable.named, DirectiveTable.without, List.filter_filter]
  refine List.filter_congr fun directive _ => ?_
  by_cases hname : directive.name = name <;> simp [hname, hne]

/-- The passes before that for notes leave the definitions of notes alone. -/
theorem definitions_rearranging {pass : Pass} (hpass : pass ∈ rearranging) {draft next : Draft}
    {notices : List Notice} (hrun : pass.run source registries draft = .ok (next, notices)) :
    next.definitions = draft.definitions := by
  cases pass with
  | blockquotes | trim | paragraphs =>
      cases hrun
      rfl
  | flags =>
      cases hrun
      simp only [definitions, DirectiveTable.withoutFlags, Flag.all, List.foldl_cons,
        List.foldl_nil]
      rw [named_without _ (by decide), named_without _ (by decide),
        named_without _ (by decide), named_without _ (by decide)]
  | commands | contributors =>
      cases hrun
      exact named_without _ (by decide)
  | title =>
      obtain ⟨first, others, -, rfl, -⟩ := title_eq_ok hrun
      exact named_without _ (by decide)
  | _ => simp [rearranging] at hpass

/-- The passes before that for notes. -/
def beforeNotes : List Pass := [.validate, .prune, .directives] ++ rearranging

/-- The passes after that for notes. -/
def afterNotes : List Pass := [.externalLinks, .embeddedFiles, .lowering, .residualDirectives]

theorem inOrder_eq : Pass.inOrder = beforeNotes ++ .notes :: afterNotes := rfl

/-- The page is checked, pruned and rid of its directives before it is rearranged. -/
theorem inOrder_eq_lift : Pass.inOrder =
    [Pass.validate, .prune, .directives] ++ (rearranging ++ Pass.notes :: afterNotes) := rfl

/-- The pass for notes finds a page without elements, and all definitions of the page. -/
theorem sound_before_notes {body : Forest} {draft : Draft}
    (hbody : Forest.ofLexemes source.lexemes = .ok body)
    (hrun : (runPasses source registries beforeNotes { body }).2 = .ok draft) :
    draft.body.Obeys (Sound liftedKinds) ∧
      draft.definitions = (Directive.ofForest source body.pruneEmpty.1).filter
        (·.name == Directive.noteName) := by
  obtain ⟨lifted, hlifted, hrearranged⟩ := runPasses_append_eq_ok hrun
  have hbuilt : Obeys (Built source) (Draft.body { body }) := built_ofLexemes hbody
  obtain ⟨hsound, -⟩ := sound_of_lifted hbuilt hlifted
  have hdefinitions : lifted.definitions = (Directive.ofForest source body.pruneEmpty.1).filter
      (·.name == Directive.noteName) := by
    obtain ⟨-, rfl⟩ := eq_of_lifted hlifted
    rfl
  refine runPasses_invariant (P := fun other => other.body.Obeys (Sound liftedKinds) ∧
    other.definitions = (Directive.ofForest source body.pruneEmpty.1).filter
      (·.name == Directive.noteName)) ?_ hrearranged ⟨hsound, hdefinitions⟩
  rintro pass hpass draft next notices ⟨hdraft, hsame⟩ hnext
  exact ⟨run_rearranging (.sound (by decide)) hpass hdraft hnext,
    (definitions_rearranging hpass hnext).trans hsame⟩

/-- A run, cut at the pass for notes. -/
theorem cut_at_notes {body : Forest} {final : Draft}
    (hbody : Forest.ofLexemes source.lexemes = .ok body)
    (hrun : (runPasses source registries Pass.inOrder { body }).2 = .ok final) :
    ∃ draft next notices,
      (runPasses source registries beforeNotes { body }).2 = .ok draft ∧
      Pass.notes.run source registries draft = .ok (next, notices) ∧
      (runPasses source registries afterNotes next).2 = .ok final ∧
      draft.body.Obeys (Sound liftedKinds) ∧
      Note.resolve draft.definitions draft.body = (next.body, notices) := by
  obtain ⟨draft, hbefore, hafter⟩ := runPasses_append_eq_ok (inOrder_eq ▸ hrun)
  obtain ⟨next, notices, hnotes, hfinal⟩ := runPasses_cons_eq_ok hafter
  obtain ⟨hsound, -⟩ := sound_before_notes hbody hbefore
  obtain ⟨rfl, rfl⟩ := notes_eq_ok hnotes
  exact ⟨draft, _, _, hbefore, hnotes, hfinal, hsound, rfl⟩

end Draft

open Draft

/-- Notes are resolved completely on every page that compiles. With `draft` the page that
the pass for notes finds and `next` the page that it leaves, the names of the references
in `draft` are resolved against the definitions of notes in source order. What the whole
compilation warns about notes is what that resolution says. -/
theorem Source.compile_resolves_notes {source : Source} {registries : Registries}
    {document : Document} (hcompile : (source.compile registries).2 = .ok document) :
    ∃ body draft next notices notes final,
      Forest.ofLexemes source.lexemes = .ok body ∧
      (runPasses source registries beforeNotes { body }).2 = .ok draft ∧
      Pass.notes.run source registries draft = .ok (next, notices) ∧
      (runPasses source registries afterNotes next).2 = .ok final ∧
      final.finish = .ok document ∧
      draft.definitions = (Directive.ofForest source body.pruneEmpty.1).filter
        (·.name == "note") ∧
      Note.Resolution draft.definitions draft.body next.body notices notes ∧
      (source.compile registries).1.filterMap Happening.noteWarning? =
        notices.filter (·.remark.isNoteWarning) := by
  obtain ⟨body, final, hbody, hrun, hfinish, hcompiled⟩ := compile_eq_ok hcompile
  obtain ⟨draft, next, notices, hbefore, hnotes, hfinal, hsound, hresolved⟩ :=
    cut_at_notes hbody hrun
  have hdefinitions := (sound_before_notes hbody hbefore).2
  have hresolution := Note.resolution_resolve draft.definitions hsound
  rw [hresolved] at hresolution
  refine ⟨body, draft, next, notices, _, final, hbody, hbefore, hnotes, hfinal, hfinish,
    hdefinitions, hresolution, ?_⟩
  rw [hcompiled, List.cons_append, List.filterMap_cons_none rfl, List.filterMap_append, inOrder_eq,
    runPasses_append_happenings hbefore, List.filterMap_append,
    noteWarnings_of_notes_not_mem (by decide), List.nil_append, runPasses, hnotes]
  dsimp only
  rw [List.filterMap_append, filterMap_noted, List.filterMap_cons_none rfl,
    noteWarnings_of_notes_not_mem (by decide), List.append_nil]
  exact List.append_nil _

/-- A page that refers twice to a note that it defines, and once to one that it does not. -/
def Note.sharedExample : Source :=
  ⟨#["!", "t", "i", "t", "l", "e", " ", "T", "\n", "a", "\x7b", "n", "\x7d", "\x7b", "n",
    "\x7d", "\x7b", "m", "\x7d", "\n", "!", "n", "o", "t", "e", "n", " ", "x"]⟩

theorem Source.compile_resolves_shared_note :
    ∃ (document : Document) (body : Forest) (draft next : Draft) (notices : List Notice)
      (notes : List Note),
      (Note.sharedExample.compile Registries.empty).2 = .ok document ∧
      Forest.ofLexemes Note.sharedExample.lexemes = .ok body ∧
      (runPasses Note.sharedExample Registries.empty beforeNotes { body }).2 = .ok draft ∧
      Pass.notes.run Note.sharedExample Registries.empty draft = .ok (next, notices) ∧
      Note.Resolution draft.definitions draft.body next.body notices notes := by
  have hok : (Note.sharedExample.compile Registries.empty).2.isOk = true := by decide +kernel
  cases hcompile : (Note.sharedExample.compile Registries.empty).2 with
  | error fault =>
      rw [hcompile] at hok
      cases hok
  | ok document =>
      obtain ⟨body, draft, next, notices, notes, -, hbody, hbefore, hnotes, -, -, -,
        hresolution, -⟩ := Source.compile_resolves_notes hcompile
      exact ⟨document, body, draft, next, notices, notes, rfl, hbody, hbefore, hnotes,
        hresolution⟩

end PageMarkup
