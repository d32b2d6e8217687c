import PageMarkup.Link.Embed

/-! # What links and embeds become

A link without a target and an embed of an unknown file are taken out with a warning. Any other
link becomes a leaf that is ready, and any other embed a figure, which may come with a warning
about its width. Nothing else has an answer.
-/

namespace PageMarkup

/-! ## Links -/

namespace Link

/-- What takes the place of a tree that is a link. -/
inductive Answers (tree : Tree) : Forest × List Notice → Prop
  | removed (hempty : (targetAndLabel tree.textContent).1.isEmpty = true) :
      Answers tree ([], [⟨.linkWithoutTarget, some tree.data.offset⟩])
  | leaf {target label : String} (htarget : targetAndLabel tree.textContent = (target, label))
      (hfull : target.isEmpty = false) :
      Answers tree
        ([.leaf
          { tree.data with
            kind := .ready
            element := some
              { tag := "a", attributes := newContextAttributes target, content := some label } }],
          [])

variable {tree : Tree} {answer : Forest × List Notice}

/-- A tree that has an answer is a link, and that is what becomes of it. -/
theorem answers_of_resolveExternal? (hsome : resolveExternal? tree = some answer) :
    tree.kind = .aggregate (.bracket .externalLink) ∧ Answers tree answer := by
  unfold resolveExternal? at hsome
  dsimp only at hsome
  split at hsome
  next hkind =>
    refine ⟨hkind, ?_⟩
    split at hsome
    next hempty =>
      cases hsome
      exact .removed hempty
    next hfull =>
      cases hsome
      exact .leaf (Prod.eta _).symm (Bool.eq_false_iff.mpr hfull)
  next => cases hsome

theorem resolveExternal?_eq_none_iff :
    resolveExternal? tree = none ↔ tree.kind ≠ .aggregate (.bracket .externalLink) := by
  unfold resolveExternal?
  dsimp only
  split
  next hkind => split <;> simp [hkind]
  next hkind => simp [hkind]

end Link

/-! ## Embeds -/

namespace Embed

/-- What takes the place of a tree that is an embed. -/
inductive Answers (registries : Registries) (tree : Tree) : Forest × List Notice → Prop
  | removed (hunknown : registries.media? (parse tree.textContent).name = none) :
      Answers registries tree
        ([], [⟨.mediaUnknown (parse tree.textContent).name, some tree.data.offset⟩])
  | figure {embed : Embed} {media : Media} (hembed : parse tree.textContent = embed)
      (hmedia : registries.media? embed.name = some media) :
      Answers registries tree
        ([embed.figure media (embed.usedWidth tree.data.offset).1 tree.data],
          (embed.usedWidth tree.data.offset).2)

variable {registries : Registries} {tree : Tree} {answer : Forest × List Notice}

/-- A tree that has an answer is an embed, and that is what becomes of it. -/
theorem answers_of_resolve? (hsome : resolve? registries tree = some answer) :
    tree.kind = .aggregate (.bracket .embeddedFile) ∧ Answers registries tree answer := by
  unfold resolve? at hsome
  dsimp only at hsome
  split at hsome
  next hkind =>
    refine ⟨hkind, ?_⟩
    split at hsome
    next hunknown =>
      cases hsome
      exact .removed hunknown
    next media hmedia =>
      cases hsome
      exact .figure rfl hmedia
  next => cases hsome

theorem resolve?_eq_none_iff :
    resolve? registries tree = none ↔ tree.kind ≠ .aggregate (.bracket .embeddedFile) := by
  unfold resolve?
  dsimp only
  split
  next hkind => split <;> simp [hkind]
  next hkind => simp [hkind]

/-- The only thing there is to say about the width of an embed is that it had to be changed. -/
theorem eq_of_mem_usedWidth {embed : Embed} {offset : Nat} {notice : Notice}
    (hmem : notice ∈ (embed.usedWidth offset).2) :
    ∃ width, embed.width = some width ∧
      notice = ⟨.widthOutOfRange width embed.name (min (max width 1) 100), some offset⟩ := by
  unfold usedWidth at hmem
  split at hmem
  next => cases hmem
  next width hwidth =>
    dsimp only at hmem
    split at hmem
    next => cases hmem
    next => exact ⟨width, hwidth, List.mem_singleton.mp hmem⟩

end Embed

end PageMarkup
