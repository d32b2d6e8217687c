import PageMarkup.Proofs.Link.Answers
import PageMarkup.Proofs.Page.Runs
import PageMarkup.Proofs.Tree.Removal

/-! # Which pass says what

Every pass has remarks of its own. Only the warning that a node was removed because it
was empty comes from several of them.
-/

namespace PageMarkup

/-- Whether the pass may leave the remark. -/
def Pass.mayNote : Pass → Remark → Bool
  | .prune, .emptyRemoved _ => true
  | .directives, .directiveFound _ => true
  | .flags, .flagRepeated _ => true
  | .commands, .commandEmpty => true
  | .title, .titleRepeated | .title, .titleEmpty => true
  | .contributors, .contributorUnknown _ | .contributors, .contributorRepeated _ => true
  | .notes, .noteUnreferenced _ | .notes, .noteRepeated _ | .notes, .noteUndefined _ => true
  | .notes, .notesResolved _ | .notes, .emptyRemoved _ => true
  | .externalLinks, .linkWithoutTarget => true
  | .embeddedFiles, .mediaUnknown _ | .embeddedFiles, .widthOutOfRange _ _ _ => true
  | .lowering, .emptyRemoved _ => true
  | .residualDirectives, .directiveUnknown _ => true
  | _, _ => false

/-- All notices are ones that the pass may leave. -/
def Pass.Notes (pass : Pass) (notices : List Notice) : Prop :=
  ∀ notice ∈ notices, pass.mayNote notice.remark = true

namespace Pass

variable {pass : Pass}

theorem notes_nil : pass.Notes [] := nofun

theorem notes_cons {notice : Notice} {rest : List Notice} :
    pass.Notes (notice :: rest) ↔ pass.mayNote notice.remark = true ∧ pass.Notes rest :=
  List.forall_mem_cons

theorem notes_append {first second : List Notice} :
    pass.Notes (first ++ second) ↔ pass.Notes first ∧ pass.Notes second :=
  List.forall_mem_append

theorem notes_map {α : Type} {f : α → Notice} (hf : ∀ a, pass.mayNote (f a).remark = true)
    (list : List α) : pass.Notes (list.map f) := by
  intro notice hmem
  obtain ⟨a, -, rfl⟩ := List.mem_map.mp hmem
  exact hf a

theorem notes_flatMap {α : Type} {f : α → List Notice} (hf : ∀ a, pass.Notes (f a))
    (list : List α) : pass.Notes (list.flatMap f) := by
  intro notice hmem
  obtain ⟨a, -, hnotice⟩ := List.mem_flatMap.mp hmem
  exact hf a notice hnotice

theorem notes_removal (hpass : ∀ kind, pass.mayNote (.emptyRemoved kind) = true)
    (removal : Removal) : pass.Notes removal.notices := by
  intro notice hmem
  obtain ⟨node, -, hnotice⟩ := List.mem_filterMap.mp hmem
  unfold Node.emptiedNotice? at hnotice
  split at hnotice
  next =>
    cases hnotice
    exact hpass _
  next => cases hnotice

end Pass

open Pass

namespace Tree

mutual

theorem notes_pruneEmpty (tree : Tree) : Pass.prune.Notes tree.pruneEmpty.2 := by
  obtain ⟨data, children⟩ := tree
  have hchildren := notes_forestPruneEmpty children
  rw [pruneEmpty]
  dsimp only
  split
  next => exact notes_append.mpr ⟨hchildren, notes_cons.mpr ⟨rfl, notes_nil⟩⟩
  next => exact hchildren

theorem notes_forestPruneEmpty (forest : Forest) :
    Pass.prune.Notes (forestPruneEmpty forest).2 := by
  cases forest with
  | nil => exact notes_nil
  | cons tree rest =>
      exact notes_append.mpr ⟨notes_forestPruneEmpty rest, notes_pruneEmpty tree⟩

end

mutual

theorem notes_expand {pass : Pass} {f : Tree → Option (Forest × List Notice)}
    (hf : ∀ tree answer, f tree = some answer → pass.Notes answer.2) (tree : Tree) :
    pass.Notes (expand f tree).2 := by
  obtain ⟨data, children⟩ := tree
  have hchildren := notes_forestExpand hf children
  rw [expand]
  split
  next answer hanswer => exact hf _ answer hanswer
  next => exact hchildren

theorem notes_forestExpand {pass : Pass} {f : Tree → Option (Forest × List Notice)}
    (hf : ∀ tree answer, f tree = some answer → pass.Notes answer.2) (forest : Forest) :
    pass.Notes (forestExpand f forest).2 := by
  cases forest with
  | nil => exact notes_nil
  | cons tree rest =>
      exact notes_append.mpr ⟨notes_expand hf tree, notes_forestExpand hf rest⟩

end

end Tree

namespace Contributor

theorem notes_ofDirectives (registries : Registries) (known : List Contributor)
    (directives : List Directive) :
    Pass.contributors.Notes (ofDirectives registries known directives).2 := by
  induction directives generalizing known with
  | nil => exact notes_nil
  | cons directive rest ih =>
      rw [ofDirectives]
      dsimp only
      split
      next => exact notes_append.mpr ⟨notes_cons.mpr ⟨rfl, notes_nil⟩, ih _⟩
      next =>
        split
        next => exact notes_append.mpr ⟨notes_cons.mpr ⟨rfl, notes_nil⟩, ih _⟩
        next => exact ih _

end Contributor

namespace Note

theorem notes_selectDefinitions (names known : List String) (definitions : List Directive) :
    Pass.notes.Notes (selectDefinitions names known definitions).2 := by
  induction definitions generalizing known with
  | nil => exact notes_nil
  | cons definition rest ih =>
      rw [selectDefinitions]
      dsimp only
      split
      next => exact notes_cons.mpr ⟨rfl, ih known⟩
      next =>
        split
        next => exact notes_cons.mpr ⟨rfl, ih known⟩
        next => exact ih _

theorem notes_dropUndefined (names : List String) (forest : Forest) :
    Pass.notes.Notes (dropUndefined names forest).2 := by
  induction names generalizing forest with
  | nil => exact notes_nil
  | cons name names ih =>
      refine notes_append.mpr ⟨notes_cons.mpr ⟨rfl, ?_⟩, ih _⟩
      exact notes_flatMap (fun removal => notes_removal (fun _ => rfl) removal) _

theorem notes_resolve (definitions : List Directive) (forest : Forest) :
    Pass.notes.Notes (resolve definitions forest).2 := by
  have hdefinitions := notes_selectDefinitions (referenceNames forest).eraseDups [] definitions
  unfold resolve
  dsimp only
  split
  next => exact notes_append.mpr ⟨hdefinitions, notes_dropUndefined _ _⟩
  next =>
    exact notes_append.mpr
      ⟨notes_append.mpr ⟨hdefinitions, notes_dropUndefined _ _⟩, notes_cons.mpr ⟨rfl, notes_nil⟩⟩

end Note

theorem Link.notes_resolveExternals (forest : Forest) :
    Pass.externalLinks.Notes (resolveExternals forest).2 := by
  refine Tree.notes_forestExpand (fun tree answer hanswer => ?_) _
  cases (answers_of_resolveExternal? hanswer).2 with
  | removed => exact notes_cons.mpr ⟨rfl, notes_nil⟩
  | leaf => exact notes_nil

theorem Embed.notes_resolveAll (registries : Registries) (forest : Forest) :
    Pass.embeddedFiles.Notes (resolveAll registries forest).2 := by
  refine Tree.notes_forestExpand (fun tree answer hanswer => ?_) _
  cases (answers_of_resolve? hanswer).2 with
  | removed => exact notes_cons.mpr ⟨rfl, notes_nil⟩
  | figure =>
      intro notice hmem
      obtain ⟨width, -, rfl⟩ := eq_of_mem_usedWidth hmem
      rfl

namespace Pass

/-- Every pass leaves remarks of its own only. -/
theorem notes_run {source : Source} {registries : Registries} {pass : Pass}
    {draft next : Draft} {notices : List Notice}
    (hrun : pass.run source registries draft = .ok (next, notices)) : pass.Notes notices := by
  cases pass with
  | validate =>
      obtain ⟨-, -, rfl⟩ := Draft.validate_eq_ok hrun
      exact notes_nil
  | prune =>
      cases hrun
      exact Tree.notes_forestPruneEmpty _
  | directives =>
      cases hrun
      exact notes_map (fun _ => rfl) _
  | blockquotes | trim | paragraphs =>
      cases hrun
      exact notes_nil
  | flags =>
      cases hrun
      exact notes_flatMap (fun _ => notes_map (fun _ => rfl) _) _
  | commands =>
      cases hrun
      exact notes_map (fun _ => rfl) _
  | title =>
      obtain ⟨first, others, -, -, rfl⟩ := Draft.title_eq_ok hrun
      refine notes_append.mpr ⟨notes_map (fun _ => rfl) _, ?_⟩
      split
      next => exact notes_cons.mpr ⟨rfl, notes_nil⟩
      next => exact notes_nil
  | contributors =>
      cases hrun
      exact Contributor.notes_ofDirectives _ _ _
  | notes =>
      obtain ⟨-, rfl⟩ := Draft.notes_eq_ok hrun
      exact Note.notes_resolve _ _
  | externalLinks =>
      cases hrun
      exact Link.notes_resolveExternals _
  | embeddedFiles =>
      cases hrun
      exact Embed.notes_resolveAll registries _
  | lowering =>
      cases hrun
      refine notes_flatMap (fun removal => notes_append.mpr ⟨?_, ?_⟩) _
      · cases removal.removed with
        | none => exact notes_nil
        | some node => exact notes_cons.mpr ⟨rfl, notes_nil⟩
      · exact notes_removal (fun _ => rfl) removal
  | residualDirectives =>
      cases hrun
      exact notes_flatMap (fun _ => notes_map (fun _ => rfl) _) _

end Pass

end PageMarkup
