import PageMarkup.Proofs.Directive.Accounts
import PageMarkup.Proofs.Link.Widths
import PageMarkup.Proofs.Page.Hollows
import PageMarkup.Proofs.Page.Letters

/-! # The figures of a page

Every embed of a known file becomes a figure around an image with a caption, and nothing else
on a page has one of these three elements. The figures stay as they are and where they are until
the page is written, and only the pass that draws them warns about widths.
-/

namespace PageMarkup

open Node Forest Html

/-- The tags of what an embed is drawn with. -/
def Html.figureTags : List String := ["figure", "img", "figcaption"]

/-- The elements that an embed is drawn with, apart from the link around the image. -/
def Embed.elements (embed : Embed) (media : Media) (width : Nat) : List Element :=
  [ { tag := "figure"
      attributes :=
        [ ("class", "embedded-file float-" ++ embed.align.name)
        , ("style", "width:" ++ toString width ++ "%") ] }
  , { tag := "img"
      attributes := [("src", media.link), ("alt", embed.caption.getD media.description)] }
  , { tag := "figcaption", content := some (embed.caption.getD media.description) } ]

/-- Whether the remark is about a width that is no percentage. -/
def Remark.isAboutWidth : Remark → Bool
  | .widthOutOfRange _ _ _ => true
  | _ => false

theorem Embed.isAboutWidth_usedWidth {embed : Embed} {offset : Nat} {notice : Notice}
    (hmem : notice ∈ (embed.usedWidth offset).2) : notice.remark.isAboutWidth = true := by
  obtain ⟨width, -, rfl⟩ := eq_of_mem_usedWidth hmem
  rfl

namespace Tree

/-- The element of the node, if embeds are drawn with such elements. -/
def drawn (tree : Tree) : List Element :=
  tree.data.element.toList.filter (·.tag ∈ figureTags)

/-- The embed that the tree is, if its file is known. -/
def knownEmbed? (registries : Registries) (tree : Tree) : Option (Embed × Media) :=
  if tree.kind = .aggregate (.bracket .embeddedFile) then
    (registries.media? (Embed.parse tree.textContent).name).map (Embed.parse tree.textContent, ·)
  else none

/-- What an embed of a known file is drawn with. -/
def figureElements (registries : Registries) (tree : Tree) : List Element :=
  match tree.knownEmbed? registries with
  | some (embed, media) => embed.elements media (embed.usedWidth tree.data.offset).1
  | none => []

/-- What there is to say about the width of an embed of a known file. -/
def widthNotices (registries : Registries) (tree : Tree) : List Notice :=
  match tree.knownEmbed? registries with
  | some (embed, _) => (embed.usedWidth tree.data.offset).2
  | none => []

variable {gone : List Kind} {registries : Registries}

theorem knownEmbed?_of_ne {tree : Tree} (hkind : tree.kind ≠ .aggregate (.bracket .embeddedFile)) :
    tree.knownEmbed? registries = none := if_neg hkind

theorem eq_parse_of_knownEmbed? {tree : Tree} {embed : Embed} {media : Media}
    (hknown : tree.knownEmbed? registries = some (embed, media)) :
    embed = Embed.parse tree.textContent := by
  unfold knownEmbed? at hknown
  split at hknown
  next =>
    obtain ⟨_, -, hpair⟩ := Option.map_eq_some_iff.mp hknown
    exact (Prod.mk.inj hpair).1.symm
  next => cases hknown

/-- Besides an embed itself there is no embed in it. -/
theorem census_of_embed {α : Type} {f : Tree → List α}
    (hf : ∀ tree : Tree, tree.kind ≠ .aggregate (.bracket .embeddedFile) → f tree = [])
    {tree : Tree} (htree : tree.Obeys (Sound gone))
    (hkind : tree.kind = .aggregate (.bracket .embeddedFile)) : census f [tree] = f tree := by
  have hleaves := leaves_of_flat htree (by rw [hkind]; rfl)
  -- brackets are flat: there are only leaves in them
  have hbelow : census f tree.children = [] := by
    rw [census_eq_flatMap]
    refine List.flatMap_eq_nil_iff.mpr fun child hmem => ?_
    obtain ⟨hchildren, hleaf⟩ := hleaves child hmem
    obtain ⟨data, children⟩ := child
    obtain rfl : children = [] := hchildren
    rw [census_leaf]
    refine hf _ fun hembed => ?_
    rw [hembed] at hleaf
    cases hleaf
  obtain ⟨data, children⟩ := tree
  rw [census_cons, show census f children = [] from hbelow, census_nil]
  exact List.append_nil _

/-! ## What the pass for embeds leaves -/

theorem census_drawn_figure (embed : Embed) (media : Media) (width : Nat) (data : Node) :
    census drawn [embed.figure media width data] = embed.elements media width := by
  simp [Embed.figure, container, elementLeaf, leaf, census_cons, drawn, figureTags, Embed.elements]

/-- What takes the place of an embed shows it and says what there is to say about its width. -/
theorem answer_eq_of_resolve? {tree : Tree} {answer : Forest × List Notice}
    (hsome : Embed.resolve? registries tree = some answer) :
    census drawn answer.1 = tree.figureElements registries ∧
      answer.2.filter (·.remark.isAboutWidth) = tree.widthNotices registries := by
  obtain ⟨hkind, hanswers⟩ := Embed.answers_of_resolve? hsome
  cases hanswers with
  | removed hunknown =>
      have hnone : tree.knownEmbed? registries = none := by
        rw [knownEmbed?, if_pos hkind, hunknown]
        rfl
      rw [figureElements, widthNotices, hnone, census_nil]
      exact ⟨rfl, rfl⟩
  | @figure embed media hembed hmedia =>
      have hknown : tree.knownEmbed? registries = some (embed, media) := by
        rw [knownEmbed?, if_pos hkind, hembed, hmedia]
        rfl
      rw [figureElements, widthNotices, hknown]
      dsimp only
      exact ⟨census_drawn_figure .., List.filter_eq_self.mpr fun _ => Embed.isAboutWidth_usedWidth⟩

section Expand

variable {h : Tree → Option (Forest × List Notice)} {p : Notice → Bool} {f : Tree → List Notice}
  {rule : Rule}

mutual

theorem filter_expand
    (hanswer : ∀ tree answer, tree.Obeys rule → h tree = some answer →
      answer.2.filter p = census f [tree])
    (hnone : ∀ tree, h tree = none → f tree = []) {tree : Tree} (htree : tree.Obeys rule) :
    (expand h tree).2.filter p = census f [tree] := by
  obtain ⟨data, children⟩ := tree
  rw [expand]
  split
  next answer hsome => exact hanswer _ answer htree hsome
  next hempty =>
    have hchildren : (forestExpand h children).2.filter p = census f children :=
      filter_forestExpand hanswer hnone htree.children
    rw [census_cons, hnone _ hempty, census_nil, List.append_nil]
    exact hchildren

/-- The notices that come with the answers are those of the trees that get one. -/
theorem filter_forestExpand
    (hanswer : ∀ tree answer, tree.Obeys rule → h tree = some answer →
      answer.2.filter p = census f [tree])
    (hnone : ∀ tree, h tree = none → f tree = []) {forest : Forest} (hforest : forest.Obeys rule) :
    (forestExpand h forest).2.filter p = census f forest := by
  cases forest with
  | nil => simp [forestExpand]
  | cons tree rest =>
      obtain ⟨htree, hrest⟩ := obeys_cons.mp hforest
      rw [census_singleton_append, ← filter_expand hanswer hnone htree,
        ← filter_forestExpand hanswer hnone hrest, ← List.filter_append]
      rfl

end

end Expand

/-- The pass for embeds draws those of known files, in the order in which they stand. -/
theorem census_resolveAll {body : Forest} (hsound : body.Obeys (Sound gone))
    (hmute : body.Obeys (Mute figureTags)) :
    (Embed.resolveAll registries body).1.census drawn = body.census (figureElements registries) ∧
      (Embed.resolveAll registries body).2.filter (·.remark.isAboutWidth) =
        body.census (widthNotices registries) := by
  have hfigures : ∀ tree : Tree, tree.kind ≠ .aggregate (.bracket .embeddedFile) →
      tree.figureElements registries = [] := by
    intro tree hkind
    rw [figureElements, knownEmbed?_of_ne hkind]
  have hnotices : ∀ tree : Tree, tree.kind ≠ .aggregate (.bracket .embeddedFile) →
      tree.widthNotices registries = [] := by
    intro tree hkind
    rw [widthNotices, knownEmbed?_of_ne hkind]
  constructor
  · refine census_forestExpand (Q := fun _ => True) (fun tree answer htree hsome _ => ?_)
      (fun data children htree hnone => ?_) (forestObeys_and hsound hmute) fun _ _ => trivial
    · rw [(answer_eq_of_resolve? hsome).1, census_of_embed hfigures
        (htree.mono fun _ _ hdata => hdata.1) (Embed.answers_of_resolve? hsome).1]
    · rw [hfigures _ (Embed.resolve?_eq_none_iff.mp hnone)]
      refine List.filter_eq_nil_iff.mpr fun element hmem => ?_
      simpa using htree.data.2.untagged element (Option.mem_toList.mp hmem)
  · refine filter_forestExpand (fun tree answer htree hsome => ?_)
      (fun tree hnone => hnotices tree (Embed.resolve?_eq_none_iff.mp hnone)) hsound
    rw [(answer_eq_of_resolve? hsome).2, census_of_embed hnotices htree
      (Embed.answers_of_resolve? hsome).1]

/-! ## Lowering -/

theorem drawn_of_bare {data : Node} (hbare : data.element = none) (children : Forest) :
    drawn (.node data children) = [] := by
  rw [drawn, data_node, hbare]
  rfl

/-- Only what is ready or a container is drawn. -/
theorem spares_drawn : Rule.Spares (Sound gone) drawn where
  text tree hleaf := by
    obtain ⟨data, children⟩ := tree
    cases children with
    | nil =>
        rw [isTextLeaf, Bool.and_eq_true, Option.isNone_iff_eq_none] at hleaf
        exact drawn_of_bare hleaf.1 []
    | cons => cases hleaf
  same _ _ _ _ := rfl
  gone data children hdata _ hgoes := by
    refine drawn_of_bare (Option.not_isSome_iff_eq_none.mp fun hsome => ?_) children
    rcases hdata.bare hsome with hkind | hkind <;> rw [hkind] at hgoes <;> cases hgoes
  kept _ _ _ _ _ _ := rfl

theorem census_drawn_dropBlankHeadings {body : Forest} (hsound : body.Obeys (Sound embeddedKinds)) :
    body.dropBlankHeadings.1.census drawn = body.census drawn := by
  have hstable : Rule.Stable (Sound embeddedKinds) := .sound (by decide)
  refine census_dropBlankHeadings hstable.wears (fun hdata _ => hstable.fewer hdata) spares_drawn
    (fun _ _ _ _ => rfl) (fun data hdata hlevel => ?_) hsound
  refine drawn_of_bare (Option.not_isSome_iff_eq_none.mp fun hsome => ?_) []
  rcases hdata.bare hsome with hkind | hkind <;> rw [hkind] at hlevel <;> cases hlevel

theorem census_drawn_slugHeadings {body : Forest} (hsound : body.Obeys (Sound embeddedKinds)) :
    body.slugHeadings.1.census drawn = body.census drawn := by
  refine census_forestSlugHeadings (fun data level slug children others hdata hlevel _ => ?_)
    (fun _ _ _ _ _ _ => rfl) _ hsound
  have hbare : data.element = none := by
    refine Option.not_isSome_iff_eq_none.mp fun hsome => ?_
    rcases hdata.bare hsome with hkind | hkind <;> rw [hkind] at hlevel <;> cases hlevel
  rw [drawn_of_bare hbare]
  cases level <;> rfl

theorem census_drawn_lower {body : Forest} (houtlined : body.Obeys Outlined) :
    body.lower.census drawn = body.census drawn := by
  refine census_forestLower (fun data children lowered hdata _ => ?_) houtlined
  have hbare : data.kind ≠ .container → data.kind ≠ .ready → data.kind.headingLevel? = none →
      drawn (.node data children) = [] := fun hcontainer hready hlevel =>
    drawn_of_bare (hdata.element_eq_none hcontainer hready hlevel) children
  have hsame : ∀ kind, census drawn [.node { data with kind } lowered] =
      drawn (.node data children) ++ census drawn lowered := by
    intro kind
    rw [census_cons, census_nil, List.append_nil]
    rfl
  have htagged : ∀ tag ∈ loweredTags, ∀ inner : Forest,
      census drawn [tagged tag data inner] = census drawn inner := by
    intro tag htag inner
    have hother : ∀ tag ∈ loweredTags, tag ∉ figureTags := by decide
    have hown : drawn (tagged tag data inner) = [] := by simp [drawn, tagged, hother tag htag]
    rw [tagged, census_cons, ← tagged, hown, census_nil, List.append_nil]
    rfl
  have hlowers := lowers_lowerNode data lowered
  generalize lowerNode data lowered = tree at hlowers ⊢
  cases hlowers with
  | done => exact hsame data.kind
  | heading => exact hsame .container
  | tagged htag =>
      rw [htagged _ htag.mem_loweredTags,
        hbare htag.ne_container htag.ne_ready htag.headingLevel?_eq_none, List.nil_append]
  | emBold hkind =>
      have htag := Kind.TakesTag.of_emBold hkind
      rw [htagged _ htag.mem_loweredTags,
        hbare htag.ne_container htag.ne_ready htag.headingLevel?_eq_none, container, census_cons,
        census_nil, List.append_nil]
      rfl
  | text htext =>
      rw [hbare htext.container htext.ready htext.heading, census_cons, census_nil,
        List.append_nil]
      rfl

end Tree

namespace Draft

variable {source : Source} {registries : Registries}

/-- The passes after that for embeds neither draw nor remove a figure, nor move one. -/
theorem census_drawn_after_embeds {draft final : Draft}
    (hsound : draft.body.Obeys (Sound embeddedKinds)) (hmute : draft.body.Obeys (Mute headingTags))
    (hrun : (runPasses source registries [.lowering, .residualDirectives] draft).2 = .ok final) :
    final.body.census Tree.drawn = draft.body.census Tree.drawn := by
  obtain ⟨lowered, _, hlower, hrun⟩ := runPasses_cons_eq_ok hrun
  obtain ⟨last, _, hlast, hrun⟩ := runPasses_cons_eq_ok hrun
  cases hlower
  cases hlast
  cases hrun
  have hstable : Rule.Stable (Sound embeddedKinds) := .sound (by decide)
  have hkept : draft.body.dropBlankHeadings.1.Obeys (Sound embeddedKinds) :=
    hsound.dropBlankHeadings hstable.wears fun hdata _ => hstable.fewer hdata
  have houtlined : draft.body.dropBlankHeadings.1.slugHeadings.1.Obeys Outlined :=
    hkept.outlined hmute.mute_dropBlankHeadings
  calc
    _ = draft.body.dropBlankHeadings.1.slugHeadings.1.census Tree.drawn :=
      Tree.census_drawn_lower houtlined
    _ = draft.body.dropBlankHeadings.1.census Tree.drawn := Tree.census_drawn_slugHeadings hkept
    _ = draft.body.census Tree.drawn := Tree.census_drawn_dropBlankHeadings hsound

theorem earlier_embeddedFiles :
    Pass.embeddedFiles.earlier = beforeNotes ++ [Pass.notes, .externalLinks] := by decide

/-- What the pass for embeds finds has text in leaves only, and no elements but those of notes
and links. -/
theorem mute_before_embeds {tags : List String} (hapart : ∀ tag ∈ noteTags, tag ∉ tags)
    {body : Forest} {draft : Draft} (hbody : Forest.ofLexemes source.lexemes = .ok body)
    (hrun : (runPasses source registries Pass.embeddedFiles.earlier { body }).2 = .ok draft) :
    draft.body.Obeys (Mute tags) := by
  rw [earlier_embeddedFiles] at hrun
  obtain ⟨middle, hbefore, hrun⟩ := runPasses_append_eq_ok hrun
  have hmute : middle.body.Obeys (Mute tags) :=
    obeys_of_runPasses stable_mute (List.Subset.refl _) (mute_ofLexemes hbody) hbefore
  obtain ⟨noted, _, hnotes, hrun⟩ := runPasses_cons_eq_ok hrun
  obtain ⟨linked, _, hlinks, hrun⟩ := runPasses_cons_eq_ok hrun
  cases hnotes
  cases hlinks
  cases hrun
  exact (Note.mute_resolve hapart middle.definitions hmute).mute_resolveExternals hapart

/-- Only the pass for embeds says something about widths. -/
theorem not_isAboutWidth {pass : Pass} (hpass : pass ≠ .embeddedFiles) {remark : Remark}
    (hmay : pass.mayNote remark = true) : remark.isAboutWidth = false := by
  cases remark <;> first | rfl | (cases pass <;> first | exact absurd rfl hpass | cases hmay)

end Draft

open Draft

/-- The figures of a compiled page are those of the embeds of known files, in their order, and
the warnings about widths are theirs. With `draft` the page that the pass for embeds finds, the
width of each of them is a percentage. The last argument that is a numeral up to the limit gives
it, and there is one warning just if it had to be brought into range. A numeral above the limit
is no width but a caption, as is all else that is no word for a side. -/
theorem Source.compile_figures {source : Source} {registries : Registries} {document : Document}
    (hcompile : (source.compile registries).2 = .ok document) :
    ∃ body draft, Forest.ofLexemes source.lexemes = .ok body ∧
      (runPasses source registries Pass.embeddedFiles.earlier { body }).2 = .ok draft ∧
      document.body.census Tree.drawn = draft.body.census (Tree.figureElements registries) ∧
      (source.compile registries).1.filterMap (Happening.noticeOf? Remark.isAboutWidth) =
        draft.body.census (Tree.widthNotices registries) ∧
      ∀ tree ∈ draft.body.subtrees, ∀ embed media,
        tree.knownEmbed? registries = some (embed, media) →
        embed.Sized (Embed.argumentsOf tree.textContent) tree.data.offset := by
  obtain ⟨body, final, hbody, hrun, hfinish, hcompiled⟩ := compile_eq_ok hcompile
  obtain ⟨-, hfinal, -⟩ := finish_eq_ok hfinish
  -- the run is cut before and after the pass for embeds
  have horder : Pass.inOrder =
      Pass.embeddedFiles.earlier ++ .embeddedFiles :: [.lowering, .residualDirectives] := by decide
  rw [horder] at hrun hcompiled
  obtain ⟨draft, hbefore, hrest⟩ := runPasses_append_eq_ok hrun
  obtain ⟨next, notices, hembeds, hlast⟩ := runPasses_cons_eq_ok hrest
  have hsound := sound_before_embeds hbody (earlier_embeddedFiles ▸ hbefore)
  obtain ⟨hdrawn, hnotices⟩ := @Tree.census_resolveAll _ registries _ hsound
    (mute_before_embeds (by decide) hbody hbefore)
  have hmute : draft.body.Obeys (Mute headingTags) :=
    mute_before_embeds (by decide) hbody hbefore
  obtain ⟨hbodyNext, rfl⟩ : next.body = (Embed.resolveAll registries draft.body).1 ∧
      notices = (Embed.resolveAll registries draft.body).2 := by
    cases hembeds
    exact ⟨rfl, rfl⟩
  refine ⟨body, draft, hbody, hbefore, ?_, ?_, fun tree _ embed media hknown => ?_⟩
  · rw [hfinal, ← hdrawn, ← hbodyNext]
    exact census_drawn_after_embeds (hbodyNext ▸ Embed.sound_resolveAll registries hsound)
      (hbodyNext ▸ hmute.mute_resolveAll registries) hlast
  · have hsilent : ∀ {passes : List Pass}, .embeddedFiles ∉ passes →
        ∀ pass ∈ passes, ∀ remark, pass.mayNote remark = true → remark.isAboutWidth = false :=
      fun hpasses pass hmem _ hmay => not_isAboutWidth (fun heq => hpasses (heq ▸ hmem)) hmay
    rw [hcompiled, List.cons_append, List.filterMap_cons_none rfl, List.filterMap_append,
      noticesOf_append (hsilent (by decide)) hbefore, noticesOf_cons hembeds,
      noticesOf_silent (hsilent (by decide)), List.append_nil, hnotices,
      List.filterMap_cons_none rfl, List.filterMap_nil, List.append_nil]
  · rw [Tree.eq_parse_of_knownEmbed? hknown]
    exact Embed.sized_parse tree.textContent tree.data.offset

/-- A registry of one file. -/
def Embed.exampleRegistries : Registries := .ofLists [] [⟨"m", "l", "d"⟩]

/-- A page with an embed that gives two widths, the last of them out of range. -/
def Embed.wideExample : Source := .ofText "!title T\n[[[m|7|A cat|250]]]"

theorem Source.compile_figures_wide :
    ∃ (document : Document) (body : Forest) (draft : Draft),
      (Embed.wideExample.compile Embed.exampleRegistries).2 = .ok document ∧
      Forest.ofLexemes Embed.wideExample.lexemes = .ok body ∧
      (runPasses Embed.wideExample Embed.exampleRegistries Pass.embeddedFiles.earlier
        { body }).2 = .ok draft ∧
      document.body.census Tree.drawn =
        draft.body.census (Tree.figureElements Embed.exampleRegistries) ∧
      draft.body.census (Tree.widthNotices Embed.exampleRegistries) =
        [⟨.widthOutOfRange 250 "m" 100, some 9⟩] := by
  have hrun : ((Embed.wideExample.compile Embed.exampleRegistries).2.isOk,
      (Embed.wideExample.compile Embed.exampleRegistries).1.filterMap
        (Happening.noticeOf? Remark.isAboutWidth)) =
      (true, [⟨.widthOutOfRange 250 "m" 100, some 9⟩]) := by decide +kernel
  obtain ⟨hok, hnotices⟩ := Prod.mk.inj hrun
  cases hcompile : (Embed.wideExample.compile Embed.exampleRegistries).2 with
  | error fault =>
      rw [hcompile] at hok
      cases hok
  | ok document =>
      obtain ⟨body, draft, hbody, hbefore, hdrawn, hwarned, -⟩ := Source.compile_figures hcompile
      exact ⟨document, body, draft, rfl, hbody, hbefore, hdrawn, hwarned.symm.trans hnotices⟩

/-- A page with an embed whose argument is a numeral above the limit. -/
def Embed.overlongExample : Source := .ofText "!title T\n[[[m|4294967296]]]"

/-- The numeral is the caption of its figure, which has the default width, and there is no
warning. -/
theorem Source.compile_overlong_width :
    Embed.argumentsOf "m|4294967296" = ["4294967296"] ∧ Embed.IsDigits "4294967296" ∧
    (Embed.broughtIntoRange "m" (Nat.ofDigitChars 10 "4294967296".toList 0) 9).1 = 100 ∧
    ∃ document, (Embed.overlongExample.compile Embed.exampleRegistries).2 = .ok document ∧
      document.html = "<figure class=\"embedded-file float-right\" style=\"width:30%\">" ++
        "<a href=\"l\" target=\"_blank\" rel=\"noopener noreferrer\">" ++
        "<img src=\"l\" alt=\"4294967296\"/></a><figcaption>4294967296</figcaption></figure>" ∧
      (Embed.overlongExample.compile Embed.exampleRegistries).1.filterMap
        (Happening.noticeOf? Remark.isAboutWidth) = [] := by
  have hdigits : Embed.IsDigits "4294967296" := ⟨by decide, List.all_eq_true.mp (by decide)⟩
  refine ⟨by decide +kernel, hdigits, by decide +kernel, ?_⟩
  have hrun : ((Embed.overlongExample.compile Embed.exampleRegistries).2.toOption.map
        Document.html,
      (Embed.overlongExample.compile Embed.exampleRegistries).1.filterMap
        (Happening.noticeOf? Remark.isAboutWidth)) =
      (some ("<figure class=\"embedded-file float-right\" style=\"width:30%\">" ++
        "<a href=\"l\" target=\"_blank\" rel=\"noopener noreferrer\">" ++
        "<img src=\"l\" alt=\"4294967296\"/></a><figcaption>4294967296</figcaption></figure>"),
        []) := by decide +kernel
  obtain ⟨hhtml, hnotices⟩ := Prod.mk.inj hrun
  cases hcompile : (Embed.overlongExample.compile Embed.exampleRegistries).2 with
  | error fault =>
      rw [hcompile] at hhtml
      cases hhtml
  | ok document =>
      rw [hcompile] at hhtml
      exact ⟨document, rfl, Option.some.inj hhtml, hnotices⟩

end PageMarkup
