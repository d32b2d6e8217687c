import PageMarkup.Proofs.Arena.Running
import PageMarkup.Proofs.Page.Quotes
import PageMarkup.Proofs.Tree.Groups

/-! # Paragraphs as runs of inline nodes

Grouping takes the children of the root one after the other and keeps those passed since the
last newline or block. Seen from the list, newlines are gone, blocks stand as they stood, and
every longest run of other nodes is gone if it is blank, or is what a new paragraph in its
place was made from. Taking the newlines away at both ends before that makes no difference
to the outcome.
-/

namespace PageMarkup

open NumberedForest Node

namespace Arena

variable {arena : Arena} {forest grouped run lines rest added : NumberedForest}
  {tree : NumberedTree}

/-- Whether the tree belongs into a paragraph. -/
def isInline (tree : NumberedTree) : Bool := !isNewline tree && !tree.data.kind.isBlock

theorem isInline_iff : isInline tree ↔ ¬ isNewline tree ∧ ¬ tree.data.kind.isBlock := by
  simp [isInline]

/-- What grouping leaves of a longest run of inline nodes, or of another node. -/
inductive GroupedRun : NumberedForest → NumberedForest → Prop where
  | newline {tree : NumberedTree} : isNewline tree → GroupedRun [tree] []
  | block {tree : NumberedTree} : ¬ isNewline tree → tree.data.kind.isBlock →
    GroupedRun [tree] [tree]
  | inline {run outcome : NumberedForest} : (∀ tree ∈ run, isInline tree) → Flushed run outcome →
    GroupedRun run outcome

/-! ## One run -/

theorem Flushed.nil : Flushed [] [] := .blank nofun

theorem Flushed.of_nil (hadded : Flushed [] added) : added = [] := by
  cases hadded with
  | blank => rfl
  | paragraph id hfull => exact absurd (fun _ => nofun) hfull

/-- Inline nodes are added to the run. -/
theorem Groups.of_inline (hlines : ∀ tree ∈ lines, isInline tree)
    (hgroups : Groups run (lines ++ rest) grouped) : Groups (run ++ lines) rest grouped := by
  induction lines generalizing run with
  | nil => simpa using hgroups
  | cons tree lines ih =>
      obtain ⟨htree, hlines⟩ := List.forall_mem_cons.mp hlines
      obtain ⟨hnewline, hblock⟩ := isInline_iff.mp htree
      cases hgroups with
      | newline h => exact absurd h hnewline
      | block _ h => exact absurd h hblock
      | inline _ _ hgroups => simpa using ih hlines hgroups

/-- The run ends before a node that is not inline. -/
theorem Groups.of_not_inline (hrest : ∀ next ∈ rest.head?, isInline next = false)
    (hgroups : Groups run rest grouped) :
    ∃ added others, grouped = added ++ others ∧ Flushed run added ∧ Groups [] rest others := by
  cases hgroups with
  | done hadded => exact ⟨_, [], (List.append_nil _).symm, hadded, .done .nil⟩
  | newline htree hadded hgroups => exact ⟨_, _, rfl, hadded, .newline htree .nil hgroups⟩
  | block htree hblock hadded hgroups =>
      exact ⟨_, _, rfl, hadded, .block htree hblock .nil hgroups⟩
  | inline htree hblock =>
      have hinline := isInline_iff.mpr ⟨htree, hblock⟩
      rw [hrest _ rfl] at hinline
      cases hinline

/-! ## All of them -/

/-- The groups are what is left of the longest runs and of the other nodes, in order. -/
theorem Groups.groupedRuns (hgroups : Groups [] forest grouped) :
    ∃ outcomes, List.Forall₂ GroupedRun (groupsBy isInline forest) outcomes ∧
      grouped = outcomes.flatten := by
  induction forest using groupsBy_induction isInline generalizing grouped with
  | hnil =>
      cases hgroups with
      | done hadded => exact ⟨[], .nil, hadded.of_nil⟩
  | hother tree rest htree ih =>
      rw [groupsBy_cons_of_not htree]
      cases hgroups with
      | newline hnewline hadded hgroups =>
          obtain ⟨outcomes, hruns, rfl⟩ := ih hgroups
          exact ⟨[] :: outcomes, .cons (.newline hnewline) hruns, by rw [hadded.of_nil]; rfl⟩
      | block hnewline hblock hadded hgroups =>
          obtain ⟨outcomes, hruns, rfl⟩ := ih hgroups
          exact ⟨[tree] :: outcomes, .cons (.block hnewline hblock) hruns,
            by rw [hadded.of_nil]; rfl⟩
      | inline hnewline hblock =>
          rw [isInline_iff.mpr ⟨hnewline, hblock⟩] at htree
          cases htree
  | hrun first lines rest hlines hrest ih =>
      obtain ⟨added, others, rfl, hadded, hothers⟩ := (hgroups.of_inline hlines).of_not_inline hrest
      obtain ⟨outcomes, hruns, rfl⟩ := ih hothers
      rw [groupsBy_run hlines hrest]
      exact ⟨added :: outcomes, .cons (.inline hlines hadded) hruns, rfl⟩

/-! ## Newlines at the ends -/

theorem Groups.cons_newlines {front : NumberedForest} (hfront : ∀ tree ∈ front, isNewline tree)
    (hgroups : Groups [] forest grouped) : Groups [] (front ++ forest) grouped := by
  induction front with
  | nil => exact hgroups
  | cons tree front ih =>
      obtain ⟨htree, hfront⟩ := List.forall_mem_cons.mp hfront
      exact .newline htree .nil (ih hfront)

theorem Groups.append_newlines {back : NumberedForest} (hback : ∀ tree ∈ back, isNewline tree)
    (hgroups : Groups run forest grouped) : Groups run (forest ++ back) grouped := by
  induction hgroups with
  | @done run added hadded =>
      cases back with
      | nil => exact .done hadded
      | cons tree back =>
          -- The run ends at the first of the newlines, and no other starts.
          obtain ⟨htree, hback⟩ := List.forall_mem_cons.mp hback
          have hnone := Groups.cons_newlines hback (.done .nil)
          rw [List.append_nil] at hnone
          simpa using Groups.newline htree hadded hnone
  | newline htree hadded _ ih => exact .newline htree hadded ih
  | block htree hblock hadded _ ih => exact .block htree hblock hadded ih
  | inline htree hblock _ ih => exact .inline htree hblock ih

theorem exists_trimmedNewlines (forest : NumberedForest) :
    ∃ front back, forest = front ++ trimmedNewlines forest ++ back ∧
      (∀ tree ∈ front, isNewline tree) ∧ ∀ tree ∈ back, isNewline tree := by
  have hsplit : ∀ siblings : NumberedForest, siblings =
      (siblings.reverse.dropWhile isNewline).reverse ++
        (siblings.reverse.takeWhile isNewline).reverse := by
    intro siblings
    rw [← List.reverse_append, List.takeWhile_append_dropWhile, List.reverse_reverse]
  refine ⟨forest.takeWhile isNewline,
    ((forest.dropWhile isNewline).reverse.takeWhile isNewline).reverse, ?_, ?_, ?_⟩
  · rw [List.append_assoc, trimmedNewlines, ← hsplit, List.takeWhile_append_dropWhile]
  · exact List.all_eq_true.mp List.all_takeWhile
  · intro tree hmem
    exact List.all_eq_true.mp List.all_takeWhile tree (List.mem_reverse.mp hmem)

/-- Taking the newlines away at both ends and grouping what is between them is grouping. -/
theorem Holds.groupedRuns (hholds : Holds arena forest) :
    ∃ middle next outcomes, arena.trimNewlines = .ok middle ∧ middle.paragraphs = .ok next ∧
      Holds next outcomes.flatten ∧
      List.Forall₂ GroupedRun (groupsBy isInline forest) outcomes := by
  obtain ⟨middle, hmiddle, hholds⟩ := hholds.trimmedNewlines
  obtain ⟨next, grouped, hnext, hgroups, hholds⟩ := hholds.exists_groups
  obtain ⟨front, back, hforest, hfront, hback⟩ := exists_trimmedNewlines forest
  have hwhole := (hgroups.cons_newlines hfront).append_newlines hback
  rw [← hforest] at hwhole
  obtain ⟨outcomes, hruns, rfl⟩ := hwhole.groupedRuns
  exact ⟨middle, next, outcomes, hmiddle, hnext, hholds, hruns⟩

/-! ## What is under the root -/

/-- On a page without its directives only a blank run has nothing left between its edges. -/
theorem trimEdges_ne_nil (hsound : run.erase.Obeys (Sound Forest.liftedKinds))
    (hfull : ¬ ∀ tree ∈ run, isBlank tree) : run.trimEdges ≠ [] := by
  intro hnil
  have herase : run.erase.trimEdges = [] := by rw [← erase_trimEdges, hnil, erase_nil]
  refine hfull fun tree hmem => ?_
  have hmem : tree.erase ∈ run.erase := by
    rw [erase_eq_map]
    exact List.mem_map_of_mem hmem
  rw [isBlank, ← Forest.isBlankLeaf_eq (Forest.obeys_iff.mp hsound _ hmem)]
  exact Forest.trimEdges_eq_nil_iff.mp herase _ hmem

/-- What grouping leaves of a run is a block or a paragraph with something in it. -/
theorem GroupedRun.stays {outcome : NumberedForest} (hrun : GroupedRun run outcome)
    (hsound : run.erase.Obeys (Sound Forest.liftedKinds)) : ∀ tree ∈ outcome,
      tree.data.kind.isBlock ∨ tree.data.kind = .paragraph ∧ tree.children ≠ [] := by
  intro tree hmem
  cases hrun with
  | newline => cases hmem
  | block _ hblock =>
      obtain rfl := List.mem_singleton.mp hmem
      exact .inl hblock
  | inline _ hadded =>
      cases hadded with
      | blank => cases hmem
      | paragraph id hfull =>
          obtain rfl := List.mem_singleton.mp hmem
          exact .inr ⟨rfl, trimEdges_ne_nil hsound hfull⟩

/-- What is left of a run was told by the run. -/
theorem exists_run_of_mem {outcomes : List NumberedForest} {outcome : NumberedForest}
    (hruns : List.Forall₂ GroupedRun (groupsBy isInline forest) outcomes)
    (hmem : outcome ∈ outcomes) : ∃ run ⊆ forest, GroupedRun run outcome := by
  obtain ⟨run, hrun, hgrouped⟩ : ∃ run ∈ groupsBy isInline forest, GroupedRun run outcome := by
    generalize groupsBy isInline forest = runs at hruns ⊢
    induction hruns with
    | nil => cases hmem
    | cons hfirst _ ih =>
        rcases List.mem_cons.mp hmem with rfl | hmem
        · exact ⟨_, List.mem_cons_self, hfirst⟩
        · exact (ih hmem).imp fun _ => And.imp_left (List.mem_cons_of_mem _)
  refine ⟨run, fun tree htree => ?_, hgrouped⟩
  rw [← List.flatten_splitBy (fun first second => isInline first && isInline second) forest]
  exact List.mem_flatten_of_mem hrun htree

/-- What the pass that trims newlines finds on a page is sound. -/
theorem sound_before_trim {source : Source} {registries : Registries} {body : Forest} {draft : Draft}
    (hbody : Forest.ofLexemes source.lexemes = .ok body)
    (hrun : (Draft.runPasses source registries Pass.trim.earlier { body }).2 = .ok draft) :
    draft.body.Obeys (Sound Forest.liftedKinds) := by
  have hearlier : Pass.trim.earlier = [.validate, .prune, .directives] ++ [.blockquotes] := by decide
  rw [hearlier] at hrun
  obtain ⟨lifted, hlifted, hmerged⟩ := Draft.runPasses_append_eq_ok hrun
  obtain ⟨hsound, -⟩ := Draft.sound_of_lifted (Forest.built_ofLexemes hbody) hlifted
  refine Draft.runPasses_invariant (P := fun other => other.body.Obeys (Sound Forest.liftedKinds)) ?_
    hmerged hsound
  intro pass hpass draft next notices hdraft hnext
  have hrearranging : pass ∈ Draft.rearranging := List.mem_append_left _ hpass
  exact Draft.run_rearranging (.sound (by decide)) hrearranging hdraft hnext

/-- On every page that comes so far, what is under the root is split at the newlines and at the
blocks. Newlines are gone, blocks are as they were, and of each other run there is left what
`Flushed` says: nothing if all of it is white space, or one paragraph with what is in the run, in
order and trimmed at the edges, and with the span from its first node to its last. So there is
nothing under the root but blocks and paragraphs, and each of the paragraphs has a child. -/
theorem paragraphs_groupedRuns {source : Source} {registries : Registries}
    {happenings : List Happening} {numbered : ArenaDraft}
    (hbuild : Arena.build source.lexemes = .ok (.ok arena))
    (hrun : ArenaDraft.runPasses source registries Pass.trim.earlier { arena } =
      .ok (happenings, .ok numbered)) :
    ∃ forest middle next outcomes, numbered.arena.Holds forest ∧
      numbered.arena.trimNewlines = .ok middle ∧ middle.paragraphs = .ok next ∧
      next.Holds outcomes.flatten ∧
      List.Forall₂ GroupedRun (groupsBy isInline forest) outcomes ∧
      ∀ tree ∈ outcomes.flatten,
        tree.data.kind.isBlock ∨ tree.data.kind = .paragraph ∧ tree.children ≠ [] := by
  obtain ⟨body, draft, hbody, hdraft, hmirrors⟩ :=
    Source.exists_mirrors_of_runPasses hbuild (List.takeWhile_prefix _) hrun
  obtain ⟨forest, hholds, herase⟩ := hmirrors.body (Draft.untitled_runPasses (by decide) hdraft)
  have hsound : forest.erase.Obeys (Sound Forest.liftedKinds) :=
    herase ▸ sound_before_trim hbody hdraft
  obtain ⟨middle, next, outcomes, hmiddle, hnext, hgrouped, hruns⟩ := hholds.groupedRuns
  refine ⟨forest, middle, next, outcomes, hholds, hmiddle, hnext, hgrouped, hruns, ?_⟩
  intro tree hmem
  obtain ⟨outcome, houtcome, htree⟩ := List.mem_flatten.mp hmem
  obtain ⟨run, hsubset, hleft⟩ := exists_run_of_mem hruns houtcome
  refine hleft.stays (hsound.subset ?_) tree htree
  rw [erase_eq_map, erase_eq_map]
  exact List.map_subset _ hsubset

/-- A page with a blank line, a heading between two texts on a line, and a quote. -/
def groupedExample : Source := .ofText "!title T

a
 
b ==h== c
> q"

/-- The page comes as far as that. -/
theorem paragraphs_groupedRuns_example : ∃ arena happenings numbered,
    Arena.build groupedExample.lexemes = .ok (.ok arena) ∧
    ArenaDraft.runPasses groupedExample Registries.empty Pass.trim.earlier { arena } =
      .ok (happenings, .ok numbered) ∧
    ∃ forest middle next outcomes, numbered.arena.Holds forest ∧
      numbered.arena.trimNewlines = .ok middle ∧ middle.paragraphs = .ok next ∧
      next.Holds outcomes.flatten ∧
      List.Forall₂ GroupedRun (groupsBy isInline forest) outcomes ∧
      ∀ tree ∈ outcomes.flatten,
        tree.data.kind.isBlock ∨ tree.data.kind = .paragraph ∧ tree.children ≠ [] := by
  have hends : ((Arena.build groupedExample.lexemes).toOption.bind (·.toOption)).any
      (fun arena =>
        (ArenaDraft.runPasses groupedExample Registries.empty Pass.trim.earlier
          { arena }).toOption.any fun run => run.2.toOption.isSome) = true := by
    decide +kernel
  rcases hbuild : Arena.build groupedExample.lexemes with _ | _ | arena
  · rw [hbuild] at hends
    cases hends
  · rw [hbuild] at hends
    cases hends
  rcases hrun : ArenaDraft.runPasses groupedExample Registries.empty Pass.trim.earlier { arena } with
    _ | ⟨happenings, _ | numbered⟩
  · simp [hbuild, hrun, Except.toOption] at hends
  · simp [hbuild, hrun, Except.toOption] at hends
  exact ⟨arena, happenings, numbered, rfl, hrun, paragraphs_groupedRuns hbuild hrun⟩

/-- What is under the root of the example when its paragraphs are grouped. -/
example : (do
      let arena ← (Arena.build groupedExample.lexemes).toOption.bind (·.toOption)
      let run ← (ArenaDraft.runPasses groupedExample Registries.empty Pass.trim.earlier
        { arena }).toOption
      let middle ← (← run.2.toOption).arena.trimNewlines.toOption
      let next ← middle.paragraphs.toOption
      let cells ← ((next.children root).bind (·.mapM next.get)).toOption
      return cells.map (·.data.kind)) =
    some [.paragraph, .paragraph, .aggregate (.style (.heading .two)), .paragraph,
      .aggregate (.line .blockquote)] := by
  decide +kernel

end Arena

end PageMarkup
