import PageMarkup.Proofs.Likeness.Notes

/-! # Likeness under links and embeds

What takes the place of a bracket is found from its text. Brackets that are alike are
replaced by trees that are alike. The caption of an embed may come from the registry, so
that from then on contents are related in a way that also relates what the registry says.
-/

namespace PageMarkup

variable {L : Likeness} {C C' : String → String → Prop}

/-- Answers that are alike. -/
def Forest.AnswersLike (L : Likeness) (C : String → String → Prop)
    (answer other : Forest × List Notice) : Prop :=
  Forest.Like L C answer.1 other.1 ∧ Notice.Like L answer.2 other.2

namespace Tree

variable {f : Tree → Option (Forest × List Notice)}

mutual

/-- Replacing alike trees alike gives trees that are alike. -/
theorem Like.expand (hC : ∀ a b, C a b → C' a b)
    (hf : ∀ tree other : Tree, tree.Like L C other →
      Option.Rel (Forest.AnswersLike L C') (f tree) (f other))
    {tree other : Tree} (hlike : tree.Like L C other) :
    Forest.AnswersLike L C' (expand f tree) (Tree.expand f other) := by
  obtain ⟨data, children⟩ := tree
  obtain ⟨data', children'⟩ := other
  have hanswer := hf _ _ hlike
  rw [Tree.expand, Tree.expand]
  generalize f (.node data children) = answer, f (.node data' children') = answer' at hanswer
  cases hanswer with
  | some hanswer => exact hanswer
  | none =>
      obtain ⟨hinner, hnotices⟩ := forestLike_expand hC hf hlike.children
      exact ⟨.cons (.node (hlike.data.mono hC) hinner) .nil, hnotices⟩

theorem forestLike_expand (hC : ∀ a b, C a b → C' a b)
    (hf : ∀ tree other : Tree, tree.Like L C other →
      Option.Rel (Forest.AnswersLike L C') (f tree) (f other))
    {forest other : Forest} (hlike : Forest.Like L C forest other) :
    Forest.AnswersLike L C' (forestExpand f forest) (forestExpand f other) := by
  cases forest with
  | nil =>
      cases hlike
      exact ⟨.nil, Notice.like_nil⟩
  | cons tree rest =>
      cases hlike with
      | cons htree hrest =>
          obtain ⟨hfirst, hnotices⟩ := htree.expand hC hf
          obtain ⟨hothers, hmore⟩ := forestLike_expand hC hf hrest
          exact ⟨hfirst.append hothers, hnotices.append hmore⟩

end

end Tree

namespace Link

theorem shown_newContextAttributes {href other : String} (hlike : L.Shown href other) :
    List.Forall₂
      (fun first second : String × String => first.1 = second.1 ∧ L.Shown first.2 second.2 ∧
        (first.1 = "id" → first.2 = second.2))
      (newContextAttributes href) (newContextAttributes other) :=
  .cons ⟨rfl, hlike, by simp⟩ (.cons ⟨rfl, .inl rfl, by simp⟩ (.cons ⟨rfl, .inl rfl, by simp⟩ .nil))

/-- Links that are alike have targets and labels that stand for each other. -/
theorem like_resolveExternal? {tree other : Tree} (hlike : tree.Like L L.text other) :
    Option.Rel (Forest.AnswersLike L L.text) (resolveExternal? tree) (resolveExternal? other) := by
  obtain ⟨htarget, hlabel⟩ := L.link hlike.textContent
  unfold resolveExternal?
  dsimp only
  rw [← hlike.kind, ← L.isEmpty htarget]
  split_ifs
  · refine .some ⟨.nil, fun hplaced => ?_⟩
    rw [hlike.data.offset hplaced]
  · refine .some ⟨.cons (.leaf (hlike.data.withElement (by simp) ?_)) .nil, Notice.like_nil⟩
    exact ⟨rfl, shown_newContextAttributes (.inr htarget), .some hlabel⟩
  · exact .none

theorem like_resolveExternals {forest other : Forest} (hlike : Forest.Like L L.text forest other) :
    Forest.AnswersLike L L.text (resolveExternals forest) (resolveExternals other) :=
  Tree.forestLike_expand (fun _ _ => id) (fun _ _ => like_resolveExternal?) hlike

end Link

namespace Embed

variable {embed other : Embed}

/-- Embeds that say the same have the same width, wherever they stand. -/
theorem usedWidth_congr (hwidth : embed.width = other.width) (offset offset' : Nat) :
    (embed.usedWidth offset).1 = (other.usedWidth offset').1 := by
  unfold usedWidth
  rw [hwidth]
  cases other.width with
  | none => rfl
  | some width =>
      dsimp only
      split <;> rfl

/-- Figures of one file whose captions stand for each other. -/
theorem like_figure (hC : ∀ a b, L.text a b → C a b) {media : Media}
    (hmedia : C media.description media.description) (halign : embed.align = other.align)
    (hcaption : Option.Rel L.text embed.caption other.caption) (width : Nat)
    {data data' : Node} (hdata : data.Like L C data') :
    (embed.figure media width data).Like L C (other.figure media width data') := by
  obtain ⟨hshown, hcaption⟩ : L.Shown (embed.caption.getD media.description)
        (other.caption.getD media.description) ∧
      C (embed.caption.getD media.description) (other.caption.getD media.description) := by
    generalize embed.caption = caption, other.caption = caption' at hcaption
    cases hcaption with
    | none => exact ⟨.inl rfl, hmedia⟩
    | some htext => exact ⟨.inr htext, hC _ _ htext⟩
  unfold figure
  rw [halign]
  have himage : Element.Like L C
      { tag := "img"
        attributes := [("src", media.link), ("alt", embed.caption.getD media.description)] }
      { tag := "img"
        attributes := [("src", media.link), ("alt", other.caption.getD media.description)] } :=
    ⟨rfl, .cons ⟨rfl, .inl rfl, fun _ => rfl⟩ (.cons ⟨rfl, hshown, by simp⟩ .nil), .none⟩
  have hcaption : Element.Like L C
      { tag := "figcaption", content := some (embed.caption.getD media.description) }
      { tag := "figcaption", content := some (other.caption.getD media.description) } :=
    ⟨rfl, .nil, .some hcaption⟩
  have hleaf : ∀ {element element' : Element}, element.Like L C element' →
      (Tree.elementLeaf element).Like L C (.elementLeaf element') :=
    fun helement => .leaf ⟨rfl, L.empty, .some helement, by simp, fun _ => ⟨rfl, rfl⟩⟩
  have hlink : Node.Like L C
      { kind := .container
        element := some { tag := "a", attributes := Link.newContextAttributes media.link } }
      { kind := .container
        element := some { tag := "a", attributes := Link.newContextAttributes media.link } } :=
    ⟨rfl, L.empty, .some (.same nofun), by simp, fun _ => ⟨rfl, rfl⟩⟩
  exact .node (hdata.withElement (by simp) (.same nofun))
    (.cons (.node hlink (.cons (hleaf himage) .nil)) (.cons (hleaf hcaption) .nil))

/-- What a registry says about its files is related to itself. -/
def Registered (C : String → String → Prop) (registries : Registries) : Prop :=
  ∀ name media, registries.media? name = some media → C media.description media.description

theorem registered_shown (registries : Registries) : Registered L.Shown registries :=
  fun _ _ _ => .inl rfl

/-- Embeds that are alike show the same file with captions that stand for each other. -/
theorem like_resolve? (hC : ∀ a b, L.text a b → C a b) {registries : Registries}
    (hmedia : Registered C registries) {tree other : Tree} (hlike : tree.Like L L.text other) :
    Option.Rel (Forest.AnswersLike L C) (resolve? registries tree)
      (resolve? registries other) := by
  obtain ⟨hname, hwidth, halign, hcaption⟩ := L.embed hlike.textContent
  unfold resolve?
  dsimp only
  rw [← hlike.kind, ← hname]
  split
  next =>
    cases hfound : registries.media? (parse tree.textContent).name with
    | none =>
        refine .some ⟨.nil, fun hplaced => ?_⟩
        rw [hlike.data.offset hplaced]
    | some media =>
        refine .some ⟨.cons ?_ .nil, fun hplaced => ?_⟩
        · rw [usedWidth_congr hwidth tree.data.offset other.data.offset]
          exact like_figure hC (hmedia _ media hfound) halign hcaption _ (hlike.data.mono hC)
        · dsimp only
          rw [hlike.data.offset hplaced]
          unfold usedWidth
          rw [hname, hwidth]
  next => exact .none

theorem like_resolveAll (hC : ∀ a b, L.text a b → C a b) {registries : Registries}
    (hmedia : Registered C registries) {forest other : Forest}
    (hlike : Forest.Like L L.text forest other) :
    Forest.AnswersLike L C (resolveAll registries forest) (resolveAll registries other) :=
  Tree.forestLike_expand hC (fun _ _ => like_resolve? hC hmedia) hlike

end Embed

end PageMarkup
