import PageMarkup.Proofs.Page.Shown

/-! # Promises that are kept

A page that compiles without a warning shows every aggregate of the forest that its
lexemes nest into, in the order of the source, if the aggregate must have children. Quoted
lines are shown once for each longest run of them, with the directives away, unless the run
holds nothing but white space: such a run disappears without a warning.
-/

namespace PageMarkup

open Node Forest

/-! ## Pruning -/

namespace Tree

mutual

theorem pruneEmpty_of_quiet {tree : Tree} (hquiet : ∀ notice ∈ tree.pruneEmpty.2, notice.IsQuiet) :
    tree.pruneEmpty.1 = [tree] := by
  obtain ⟨data, children⟩ := tree
  rw [pruneEmpty] at hquiet ⊢
  dsimp only at hquiet ⊢
  split at hquiet
  next => cases hquiet data.emptyNotice (List.mem_append_right _ (List.mem_singleton_self _))
  next hkept =>
    have hchildren := forestPruneEmpty_of_quiet hquiet
    rw [if_neg hkept, hchildren]

/-- If nothing is said about empty aggregates there are none. -/
theorem forestPruneEmpty_of_quiet {forest : Forest}
    (hquiet : ∀ notice ∈ (forestPruneEmpty forest).2, notice.IsQuiet) :
    (forestPruneEmpty forest).1 = forest := by
  cases forest with
  | nil => rfl
  | cons tree rest =>
      obtain ⟨hrest, htree⟩ := List.forall_mem_append.mp hquiet
      rw [forestPruneEmpty]
      dsimp only
      rw [pruneEmpty_of_quiet htree, forestPruneEmpty_of_quiet hrest]
      rfl

/-- What may stand at the root only is nowhere below the trees that passed the check. -/
theorem obeys_placed {tree : Tree} (htree : tree.Obeys Checked)
    (hkind : tree.kind.rootOnly = false) : tree.Obeys fun data _ => data.kind.rootOnly = false := by
  obtain ⟨data, children⟩ := tree
  obtain ⟨hdata, hchildren⟩ := obeys_node.mp htree
  exact obeys_node.mpr ⟨hkind, forestObeys_placed hchildren hdata.placed⟩

theorem forestObeys_placed {forest : Forest} (hforest : forest.Obeys Checked)
    (hkinds : ∀ kind ∈ forest.kinds, kind.rootOnly = false) :
    forest.Obeys fun data _ => data.kind.rootOnly = false := by
  cases forest with
  | nil => exact obeys_nil
  | cons tree rest =>
      obtain ⟨htree, hrest⟩ := obeys_cons.mp hforest
      obtain ⟨hkind, hothers⟩ := List.forall_mem_cons.mp hkinds
      exact obeys_cons.mpr ⟨obeys_placed htree hkind, forestObeys_placed hrest hothers⟩

end

end Tree

/-! ## Promises of a nested page -/

namespace Node

/-- Whether something is promised or shown for a quote. -/
def isOfQuote (entry : Span × String) : Bool := entry.2 == Html.quoteTag

theorem Aggregate.tag_eq_quoteTag_iff {aggregate : Aggregate} :
    aggregate.tag = Html.quoteTag ↔ aggregate = .line .blockquote := by
  refine ⟨fun htag => ?_, fun hline => by rw [hline]; rfl⟩
  cases aggregate with
  | style style =>
      cases style with
      | heading level => cases level <;> exact absurd htag (by decide)
      | _ => exact absurd htag (by decide)
  | bracket bracket => cases bracket <;> exact absurd htag (by decide)
  | line line =>
      cases line with
      | blockquote => rfl
      | directive => exact absurd htag (by decide)

theorem isOfQuote_of_mem_promise {data : Node} {entry : Span × String}
    (hmem : entry ∈ data.promise) :
    isOfQuote entry = (data.kind == .aggregate (.line .blockquote)) := by
  unfold promise at hmem
  split at hmem
  next aggregate hkind =>
    split at hmem
    next =>
      obtain ⟨opener, -, rfl⟩ := List.mem_map.mp hmem
      rw [isOfQuote, Bool.eq_iff_iff, beq_iff_eq, beq_iff_eq, Aggregate.tag_eq_quoteTag_iff, hkind,
        Kind.aggregate.injEq]
    next => cases hmem
  next => cases hmem

end Node

/-- An aggregate that lexemes nest into has its opening marker. -/
theorem Tree.Grammatical.opened {tree : Tree} (htree : tree.Grammatical) :
    tree.Obeys fun data _ => data.kind.aggregate?.isSome = true → data.opener.isSome = true := by
  induction htree with
  | leaf lexeme haggregate _ =>
      refine obeys_leafOf fun hsome => ?_
      rw [show (Nesting.leafOf lexeme).data.kind.aggregate? = none from haggregate] at hsome
      cases hsome
  | aggregate aggregate opener closer children _ _ ih =>
      exact obeys_node.mpr ⟨fun _ => rfl, obeys_iff.mpr ih⟩

/-- So every aggregate that must have children makes one promise. -/
theorem Forest.exists_promise {source : Source} {body : Forest}
    (hbody : ofLexemes source.lexemes = .ok body) {tree : Tree} (hmem : tree ∈ body.subtrees)
    {aggregate : Aggregate} (hkind : tree.kind = .aggregate aggregate)
    (hneeds : aggregate.needsChildren = true) :
    ∃ opener, tree.data.opener = some opener ∧ tree.data.promise = [(opener, aggregate.tag)] := by
  have hgrammatical := ((ofLexemes_eq_ok_iff source.isRaw_lexemes body).mp hbody).1
  have hopened := Tree.forestObeys_of_mem_subtrees
    (obeys_iff.mpr fun tree htree => (hgrammatical tree htree).opened) hmem
  obtain ⟨opener, hopener⟩ := Option.isSome_iff_exists.mp
    (hopened.data (by rw [show tree.data.kind = _ from hkind]; rfl))
  refine ⟨opener, hopener, ?_⟩
  rw [promise_of_aggregate hkind hneeds, hopener]
  rfl

namespace Forest

variable {body : Forest}

/-- What the quotes of a page promise: for every run of quoted lines with anything to
show, what the first of them promises. -/
def quotePromises (body : Forest) : List (Span × String) :=
  body.shownGroups.flatMap fun group => group.head?.toList.flatMap (·.data.promise)

/-- No node keeps anything before it gets an element. -/
theorem trace_eq_promise (hbody : body.Obeys (Sound liftedKinds)) :
    ∀ tree ∈ body.subtrees, tree.data.trace = tree.data.promise := fun _ hmem =>
  trace_of_bare (Tree.forestObeys_of_mem_subtrees hbody hmem).data.element_eq_none

theorem filter_census {α : Type} (f : Tree → List α) (p : α → Bool) (forest : Forest) :
    (census f forest).filter p = census (fun tree => (f tree).filter p) forest :=
  List.filter_flatMap

theorem Trims.filter {α : Type} {f : Tree → List α} (hf : Trims f) (p : α → Bool) :
    Trims fun tree => (f tree).filter p where
  blank tree hleaf hblank := congrArg (List.filter p) (hf.blank tree hleaf hblank)
  front tree hleaf := congrArg (List.filter p) (hf.front tree hleaf)
  back tree hleaf := congrArg (List.filter p) (hf.back tree hleaf)

/-- There are no promises in a directive. -/
theorem promises_below_directive {source : Source} {tree : Tree} (hbuilt : tree.Obeys (Built source))
    (hchecked : tree.Obeys Checked) (hline : Directive.isLine tree = true) :
    tree.children.promises = [] := by
  have hflat := hchecked.data.flat (by
    rw [show tree.data.kind = _ from beq_iff_eq.mp hline]
    rfl)
  rw [promises, census_eq_flatMap, List.flatMap_eq_nil_iff]
  intro child hchild
  have hleaf := hflat child.kind (List.mem_map_of_mem hchild)
  have hdata := (obeys_iff.mp hbuilt.children child hchild).data
  obtain ⟨data, children⟩ := child
  rw [show children = [] from List.map_eq_nil_iff.mp (hdata.childless hleaf), census_leaf]
  exact promise_of_childless hleaf

theorem promises_without_directives {source : Source} (hbuilt : body.Obeys (Built source))
    (hchecked : body.Obeys Checked) :
    promises (body.filter (!Directive.isLine ·)) = body.promises := by
  refine census_filter fun tree hmem hline => ?_
  have hline : Directive.isLine tree = true := by simpa using hline
  have hchildren := promises_below_directive (obeys_iff.mp hbuilt tree hmem)
    (obeys_iff.mp hchecked tree hmem) hline
  obtain ⟨data, children⟩ := tree
  have hkind : data.kind = .aggregate (.line .directive) := beq_iff_eq.mp hline
  rw [census_cons, show census _ children = [] from hchildren, census_nil, List.append_nil,
    List.append_nil, promise, Tree.data_node, hkind]
  rfl

/-- Arranging a page keeps all promises but those of quotes. -/
theorem traces_arranged_others (hbody : body.Obeys (Sound liftedKinds)) :
    body.arranged.traces.filter (!isOfQuote ·) = body.promises.filter (!isOfQuote ·) := by
  have hstable : Rule.Stable (Sound liftedKinds) := .sound (by decide)
  rw [arranged, traces_paragraphs (hbody.mergeQuotes hstable), traces, filter_census,
    census_mergeQuotes (trims_trace.filter _) (fun _ _ => rfl) ?_ hstable hbody, ← filter_census]
  · exact congrArg (List.filter _) (List.flatMap_congr (trace_eq_promise hbody))
  · intro data kinds span children hdata hkind
    refine List.filter_eq_nil_iff.mpr fun entry hmem => ?_
    have hbare : (Tree.node { data with span } children).data.element = none :=
      hdata.element_eq_none
    rw [trace_of_bare hbare] at hmem
    rw [isOfQuote_of_mem_promise hmem, show (Tree.node { data with span } children).data.kind = _
      from hkind]
    decide

theorem mem_subtrees_of_mem {tree : Tree} (hmem : tree ∈ body) :
    tree ∈ body.subtrees ∧ ∀ below ∈ tree.children.subtrees, below ∈ body.subtrees := by
  have hsubtrees : tree.subtrees = tree :: tree.children.subtrees := by
    obtain ⟨data, children⟩ := tree
    exact Tree.subtrees_node data children
  have hbody : ∀ below ∈ tree.subtrees, below ∈ body.subtrees := fun _ hbelow =>
    mem_subtrees.mpr ⟨tree, hmem, hbelow⟩
  rw [hsubtrees] at hbody
  exact List.forall_mem_cons.mp hbody

theorem mem_of_mem_shownGroups {group : Forest} (hgroup : group ∈ body.shownGroups) {line : Tree}
    (hline : line ∈ group) : line ∈ body ∧ isQuote line = true := by
  obtain ⟨hmem, hquotes⟩ := List.mem_filter.mp (List.mem_of_mem_filter hgroup)
  refine ⟨?_, List.all_eq_true.mp hquotes line hline⟩
  rw [← List.flatten_splitBy (fun first second => isQuote first && isQuote second) body]
  exact List.mem_flatten_of_mem hmem hline

/-- Arranging a page keeps the promises of all runs of quoted lines but the blank ones. -/
theorem traces_arranged_quotes (hbody : body.Obeys (Sound liftedKinds))
    (hchecked : body.Obeys Checked) :
    body.arranged.traces.filter isOfQuote = body.quotePromises := by
  have hstable : Rule.Stable (Sound liftedKinds) := .sound (by decide)
  have hkept : ∀ tree ∈ body.subtrees, ∀ entry ∈ tree.data.trace,
      isOfQuote entry = isQuote tree := by
    intro tree hmem entry hentry
    rw [trace_eq_promise hbody tree hmem] at hentry
    exact isOfQuote_of_mem_promise hentry
  have hnone : ∀ tree ∈ body.subtrees, isQuote tree = false →
      tree.data.trace.filter isOfQuote = [] := fun tree hmem hquote =>
    List.filter_eq_nil_iff.mpr fun entry hentry => by
      rw [hkept tree hmem entry hentry, hquote]
      exact Bool.false_ne_true
  -- Quoted lines stand at the root.
  have hbelow : ∀ tree ∈ body,
      census (fun tree => tree.data.trace.filter isOfQuote) tree.children = [] := by
    intro tree hmem
    have htree := obeys_iff.mp hchecked tree hmem
    have hplaced := Tree.forestObeys_placed htree.children htree.data.placed
    refine List.flatMap_eq_nil_iff.mpr fun below hbelow =>
      hnone below ((mem_subtrees_of_mem hmem).2 below hbelow) ?_
    refine beq_eq_false_iff_ne.mpr fun hquote => ?_
    have hroot := (Tree.forestObeys_of_mem_subtrees hplaced hbelow).data
    rw [show below.data.kind = _ from hquote] at hroot
    cases hroot
  rw [arranged, traces_paragraphs (hbody.mergeQuotes hstable), traces, filter_census,
    census_mergeQuotes_groups (trims_trace.filter _) (fun _ _ => rfl) (fun _ _ _ => rfl) hbody
      (fun tree hmem => hnone tree (mem_subtrees_of_mem hmem).1) hbelow, quotePromises]
  refine List.flatMap_congr fun group hgroup => List.flatMap_congr fun line hline => ?_
  obtain ⟨hmem, hquote⟩ := mem_of_mem_shownGroups hgroup
    (List.mem_of_mem_head? (Option.mem_toList.mp hline))
  have hmem := (mem_subtrees_of_mem hmem).1
  rw [trace_eq_promise hbody line hmem, List.filter_eq_self]
  exact fun entry hentry => (isOfQuote_of_mem_promise hentry).trans hquote

end Forest

/-! ## Pages -/

namespace Draft

variable {source : Source} {registries : Registries}

/-- Lifting the directives without a warning takes nothing else away. -/
theorem lifted_of_quiet {body : Forest} (hbody : ofLexemes source.lexemes = .ok body)
    {lifted : Draft}
    (hquiet : RunsQuietly source registries [.validate, .prune, .directives] { body } lifted) :
    body.check = .ok () ∧ lifted.body = body.filter (!Directive.isLine ·) := by
  obtain ⟨hcheck, hlifted⟩ := body_of_lifted hquiet.outcome
  obtain ⟨checked, _, hvalidate, -, hquiet⟩ := hquiet.uncons
  obtain ⟨pruned, notices, hprune, hnotices, -⟩ := hquiet.uncons
  simp only [Pass.run, hcheck] at hvalidate
  cases hvalidate
  cases hprune
  refine ⟨hcheck, ?_⟩
  rw [hlifted, body_eq_lifted hbody, Forest.lifted]
  exact congrArg (List.filter _) (Tree.forestPruneEmpty_of_quiet hnotices)

/-- What a page without warnings goes through from the pass for notes on: no pass says
anything, and no heading is taken out. -/
theorem quiet_after_notes {draft final : Draft}
    (hquiet : RunsQuietly source registries (.notes :: afterNotes) draft final) :
    (∀ notice ∈ (Note.resolve draft.definitions draft.body).2, notice.IsQuiet) ∧
      (∀ notice ∈ (Link.resolveExternals (Note.resolve draft.definitions draft.body).1).2,
        notice.IsQuiet) ∧
      (∀ notice ∈ (Embed.resolveAll registries
        (Link.resolveExternals (Note.resolve draft.definitions draft.body).1).1).2,
        notice.IsQuiet) ∧
      final.body = (Tree.forestTrimHeadings (Embed.resolveAll registries
        (Link.resolveExternals
          (Note.resolve draft.definitions draft.body).1).1).1).slugHeadings.1.lower := by
  obtain ⟨noted, notices, hrun, hnotices, hquiet⟩ := hquiet.uncons
  obtain ⟨hnoted, rfl⟩ := notes_eq_ok hrun
  have hnoted : noted.body = (Note.resolve draft.definitions draft.body).1 := congrArg body hnoted
  have hfinal := (body_after_notes hquiet.outcome).1
  obtain ⟨linked, notices, hrun, hsaid, hquiet⟩ := hquiet.uncons
  have hlinked : (Link.resolveExternals noted.body).1 = linked.body :=
    congrArg (·.1.body) (Except.ok.inj hrun)
  have hsilent : (Link.resolveExternals noted.body).2 = notices :=
    congrArg Prod.snd (Except.ok.inj hrun)
  have hlinks := hsilent ▸ hsaid
  obtain ⟨embedded, notices, hrun, hsaid, hquiet⟩ := hquiet.uncons
  have hembedded : (Embed.resolveAll registries linked.body).1 = embedded.body :=
    congrArg (·.1.body) (Except.ok.inj hrun)
  have hsilent : (Embed.resolveAll registries linked.body).2 = notices :=
    congrArg Prod.snd (Except.ok.inj hrun)
  have hembeds := hsilent ▸ hsaid
  obtain ⟨lowered, notices, hrun, hsaid, -⟩ := hquiet.uncons
  have hsilent : embedded.body.dropBlankHeadings.2 = notices :=
    congrArg Prod.snd (Except.ok.inj hrun)
  have htrimmed := dropBlankHeadings_of_quiet (hsilent ▸ hsaid)
  rw [← hnoted, hlinked, hembedded]
  refine ⟨hnotices, hlinks, hembeds, ?_⟩
  rw [hfinal, unlowered, hlinked, hembedded, htrimmed]

/-- From the pass for notes on a page without warnings keeps all promises. -/
theorem shown_after_notes {draft final : Draft} (hsound : draft.body.Obeys (Sound liftedKinds))
    (hmute : draft.body.Obeys (Mute Html.headingTags)) (hraw : draft.body.Obeys Raw)
    (hquiet : RunsQuietly source registries (.notes :: afterNotes) draft final) :
    final.body.displays = draft.body.traces := by
  obtain ⟨hnotes, hlinks, hembeds, hfinal⟩ := quiet_after_notes hquiet
  have hfinished : final.body.Obeys Finished := by
    obtain ⟨noted, _, hrun, -, hquiet⟩ := hquiet.uncons
    cases hrun
    exact finished_after_notes (Note.sound_resolve draft.definitions hsound) hquiet.outcome
  have hresolved := Note.traces_resolve hsound hraw hnotes
  have hsound := Note.sound_resolve draft.definitions hsound
  have hmute := Note.mute_resolve (by decide) draft.definitions hmute
  have hraw := Note.raw_resolve draft.definitions hraw
  have hlinked := Link.traces_resolveExternals hsound hraw hlinks
  have hsound := Link.sound_resolveExternals hsound
  have hmute := hmute.mute_resolveExternals (by decide)
  have hraw := Link.raw_resolveExternals hraw
  have hembedded := Embed.traces_resolveAll hsound hraw hembeds
  have hsound := Embed.sound_resolveAll registries hsound
  have hmute := hmute.mute_resolveAll registries
  have hraw : Forest.Obeys Raw (Embed.resolveAll registries _).1 := Embed.raw_resolveAll hraw
  have hstable : Rule.Stable (Sound embeddedKinds) := .sound (by decide)
  have hkept := Tree.forestObeys_trimHeadings hstable.wears (fun hdata _ => hstable.fewer hdata)
    hsound
  have hmute := Tree.forestObeys_trimHeadings stable_mute.wears (fun hdata _ _ => hdata) hmute
  have hraw := Tree.forestObeys_trimHeadings stable_raw.wears (fun hdata _ => stable_raw.fewer hdata)
    hraw
  rw [displays_eq_traces hfinished, hfinal, traces_finished hkept hmute hraw,
    traces_forestTrimHeadings, hembedded, hlinked, hresolved]

end Draft

open Draft

namespace Source

/-- Without a warning a page shows all that it promises: every aggregate that must have
children keeps its element, in the order of the source. Runs of quoted lines that hold
nothing but white space are the exception, nobody is told that they are gone. -/
theorem compile_shows {source : Source} {registries : Registries} {document : Document}
    (hcompile : (source.compile registries).2 = .ok document)
    (hquiet : ∀ happening ∈ (source.compile registries).1, happening.isQuiet = true) :
    ∃ body, Forest.ofLexemes source.lexemes = .ok body ∧
      (∀ tree ∈ body.subtrees, ∀ aggregate, tree.kind = .aggregate aggregate →
        aggregate.needsChildren = true → ∃ opener, tree.data.opener = some opener ∧
          tree.data.promise = [(opener, aggregate.tag)]) ∧
      document.body.displays.filter (!isOfQuote ·) = body.promises.filter (!isOfQuote ·) ∧
      document.body.displays.filter isOfQuote =
        quotePromises (body.filter (!Directive.isLine ·)) := by
  obtain ⟨body, final, hbody, hrun, hfinish, hhappenings⟩ := compile_eq_ok hcompile
  have hquiet : RunsQuietly source registries Pass.inOrder { body } final := by
    refine ⟨hrun, fun happening hmem => hquiet happening ?_⟩
    rw [hhappenings]
    exact List.mem_append_left _ (List.mem_cons_of_mem _ hmem)
  have horder : Pass.inOrder =
      [.validate, .prune, .directives] ++ (rearranging ++ .notes :: afterNotes) := rfl
  rw [horder] at hquiet
  obtain ⟨lifted, hlift, hquiet⟩ := hquiet.split
  obtain ⟨arranged, harrange, hquiet⟩ := hquiet.split
  obtain ⟨hcheck, hlifted⟩ := lifted_of_quiet hbody hlift
  have hbuilt := built_ofLexemes hbody
  have hchecked := checked_of_check hcheck
  have hsound := (sound_of_lifted hbuilt hlift.outcome).1
  have hsubset : lifted.body ⊆ body := hlifted ▸ List.filter_sublist.subset
  have hmute : lifted.body.Obeys (Mute Html.headingTags) := (mute_ofLexemes hbody).subset hsubset
  have hplain : lifted.body.Obeys fun data _ => data.kind ≠ .paragraph :=
    Tree.forestObeys_mono (fun _ _ hdata => hdata.ne_paragraph) (hbuilt.subset hsubset)
  have harranged := body_of_rearranging harrange.outcome
  have hshown : document.body.displays = lifted.body.arranged.traces := by
    rw [(finish_eq_ok hfinish).2.1, ← harranged]
    refine shown_after_notes ?_ ?_ ?_ hquiet <;> rw [harranged]
    · exact hsound.arranged (.sound (by decide))
    · exact hmute.mute_arranged
    · exact (hsound.raw hplain).arranged stable_raw
  refine ⟨body, hbody, fun tree hmem aggregate => exists_promise hbody hmem, ?_, ?_⟩
  · rw [hshown, traces_arranged_others hsound, hlifted,
      promises_without_directives hbuilt hchecked]
  · rw [hshown, traces_arranged_quotes hsound (hchecked.subset hsubset), hlifted]

/-- A page with every aggregate that must have children, and two runs of quoted lines. -/
def shownExample : Source := .ofText "!title T
==a *b*==
> c
!noten d
> **e** ***f*** ##g##

> h
[[x]] [[[m]]] \x7bn\x7d
"

/-- Registries with one file. -/
def shownRegistries : Registries := .ofLists [] [⟨"m", "l", "d"⟩]

/-- It is compiled without a warning and shows all that it promises. -/
theorem compile_shows_example :
    ∃ document body, (shownExample.compile shownRegistries).2 = .ok document ∧
      Forest.ofLexemes shownExample.lexemes = .ok body ∧
      (∀ happening ∈ (shownExample.compile shownRegistries).1,
        happening.isQuiet = true) ∧
      document.body.displays.filter (!isOfQuote ·) = body.promises.filter (!isOfQuote ·) ∧
      document.body.displays.map Prod.snd =
        ["h2", "i", "blockquote", "b", "i", "s", "blockquote", "a", "figure", "sup"] := by
  have hquiet : ∀ happening ∈ (shownExample.compile shownRegistries).1,
      happening.isQuiet = true := by
    decide +kernel
  have htags : (shownExample.compile shownRegistries).2.toOption.map
      (fun document => document.body.displays.map Prod.snd) =
        some ["h2", "i", "blockquote", "b", "i", "s", "blockquote", "a", "figure", "sup"] := by
    decide +kernel
  cases hcompile : (shownExample.compile shownRegistries).2 with
  | error fault =>
      rw [hcompile] at htags
      cases htags
  | ok document =>
      rw [hcompile] at htags
      obtain ⟨body, hbody, -, hshown, -⟩ := compile_shows hcompile hquiet
      exact ⟨document, body, rfl, hbody, hquiet, hshown, Option.some.inj htags⟩

/-- A page whose only quoted line holds nothing but spaces. -/
def blankQuoteExample : Source := .ofText "!title T\n>  "

/-- The quote is gone, and there is no warning. -/
theorem compile_blank_quote :
    ∃ document body, (blankQuoteExample.compile Registries.empty).2 = .ok document ∧
      Forest.ofLexemes blankQuoteExample.lexemes = .ok body ∧
      (∀ happening ∈ (blankQuoteExample.compile Registries.empty).1, happening.isQuiet = true) ∧
      (quoteGroups (body.filter (!Directive.isLine ·))).length = 1 ∧
      document.body.displays = [] := by
  have hquiet : ∀ happening ∈ (blankQuoteExample.compile Registries.empty).1,
      happening.isQuiet = true := by
    decide +kernel
  have hgroups : (Forest.ofLexemes blankQuoteExample.lexemes).toOption.map
      (fun body => (quoteGroups (body.filter (!Directive.isLine ·))).length) = some 1 := by
    decide +kernel
  have hshown : (blankQuoteExample.compile Registries.empty).2.toOption.map
      (fun document => document.body.displays) = some [] := by
    decide +kernel
  cases hcompile : (blankQuoteExample.compile Registries.empty).2 with
  | error fault =>
      rw [hcompile] at hshown
      cases hshown
  | ok document =>
      cases hbody : Forest.ofLexemes blankQuoteExample.lexemes with
      | error fault =>
          rw [hbody] at hgroups
          cases hgroups
      | ok body =>
          rw [hcompile] at hshown
          rw [hbody] at hgroups
          exact ⟨document, body, rfl, rfl, hquiet, Option.some.inj hgroups,
            Option.some.inj hshown⟩

end Source

end PageMarkup
