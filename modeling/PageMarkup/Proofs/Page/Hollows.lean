import PageMarkup.Proofs.Page.Fullness
import PageMarkup.Proofs.Tree.Census

/-! # Empty containers

Links without a target and embeds of unknown files are taken out of the node that they are
in, and nothing asks whether it has anything left. A heading that is left empty goes after
that; any other node becomes an empty container. There are no empty containers but those.
-/

namespace PageMarkup

open Node Forest

namespace Tree

/-- Whether the tree is a container without children. -/
def isEmptyContainer (tree : Tree) : Bool := tree.kind == .container && tree.isLeaf

/-- Whether the tree is a link without a target or an embed of an unknown file. -/
def vanishes (registries : Registries) (tree : Tree) : Bool :=
  tree.kind == .aggregate (.bracket .externalLink) &&
      (Link.targetAndLabel tree.textContent).1.isEmpty ||
    tree.kind == .aggregate (.bracket .embeddedFile) &&
      (registries.media? (Embed.parse tree.textContent).name).isNone

/-- Whether the node is left empty when links and embeds are resolved and is not removed. -/
def isHollow (registries : Registries) (tree : Tree) : Bool :=
  (tree.kind.goesWhenEmpty && !tree.isHeading) &&
    (!tree.isLeaf && tree.children.all (vanishes registries))

/-- Whether the node has been left empty and is no heading. -/
def isHusk (tree : Tree) : Bool := (tree.kind.goesWhenEmpty && !tree.isHeading) && tree.isLeaf

/-! ## Links and embeds at once -/

/-- What takes the place of a link or an embed. -/
def resolveBracket? (registries : Registries) (tree : Tree) : Option (Forest × List Notice) :=
  (Link.resolveExternal? tree).or (Embed.resolve? registries tree)

section Expanding

variable {f : Tree → Option (Forest × List Notice)}

theorem expand_of_none {data : Node} {children : Forest} (hnone : f (.node data children) = none) :
    (expand f (.node data children)).1 = [.node data (forestExpand f children).1] := by
  rw [expand, hnone]

theorem expand_of_some {tree : Tree} {answer : Forest × List Notice}
    (hsome : f tree = some answer) : (expand f tree).1 = answer.1 := by
  obtain ⟨data, children⟩ := tree
  rw [expand, hsome]

/-- Leaves that get no answer stay as they are. -/
theorem forestExpand_of_leaves {forest : Forest}
    (hleaves : ∀ tree ∈ forest, tree.children = [] ∧ f tree = none) :
    (forestExpand f forest).1 = forest := by
  induction forest with
  | nil => rfl
  | cons tree rest ih =>
      obtain ⟨⟨hchildren, hnone⟩, hrest⟩ := List.forall_mem_cons.mp hleaves
      obtain ⟨data, children⟩ := tree
      obtain rfl : children = [] := hchildren
      rw [forestExpand]
      dsimp only
      rw [expand_of_none hnone, ih hrest]
      rfl

theorem forestExpand_singleton (tree : Tree) : (forestExpand f [tree]).1 = (expand f tree).1 := by
  simp [forestExpand]

theorem forestExpand_eq_nil_iff {forest : Forest} :
    (forestExpand f forest).1 = [] ↔ ∀ tree ∈ forest, (expand f tree).1 = [] := by
  induction forest with
  | nil => simp [forestExpand]
  | cons tree rest ih => simp [forestExpand, ih]

end Expanding

variable {gone : List Kind} {registries : Registries}

/-- What is in a bracket is neither a link nor an embed. -/
theorem leaves_of_flat {tree : Tree} (htree : tree.Obeys (Sound gone))
    (hflat : tree.kind.flat = true) :
    ∀ child ∈ tree.children, child.children = [] ∧ child.kind.canHaveChildren = false := by
  intro child hmem
  have hkind := htree.data.flat hflat child.kind (List.mem_map_of_mem hmem)
  have hchild := (obeys_iff.mp htree.children child hmem).data
  exact ⟨List.map_eq_nil_iff.mp (hchild.childless hkind), hkind⟩

theorem resolveExternal?_of_childless {tree : Tree} (hkind : tree.kind.canHaveChildren = false) :
    Link.resolveExternal? tree = none := by
  refine Link.resolveExternal?_eq_none_iff.mpr fun hlink => ?_
  rw [hlink] at hkind
  cases hkind

theorem resolveEmbed?_of_childless {tree : Tree} (hkind : tree.kind.canHaveChildren = false) :
    Embed.resolve? registries tree = none := by
  refine Embed.resolve?_eq_none_iff.mpr fun hembed => ?_
  rw [hembed] at hkind
  cases hkind

mutual

theorem expand_expand {tree : Tree} (htree : tree.Obeys (Sound gone)) :
    (forestExpand (Embed.resolve? registries) (expand Link.resolveExternal? tree).1).1 =
      (expand (resolveBracket? registries) tree).1 := by
  obtain ⟨data, children⟩ := tree
  cases hlink : Link.resolveExternal? (.node data children) with
  | some answer =>
      have hboth : resolveBracket? registries (.node data children) = some answer := by
        rw [resolveBracket?, hlink]
        rfl
      rw [expand_of_some hlink, expand_of_some hboth]
      refine forestExpand_of_leaves ?_
      cases (Link.answers_of_resolveExternal? hlink).2 with
      | removed => exact List.forall_mem_nil _
      | leaf => exact List.forall_mem_singleton.mpr ⟨rfl, resolveEmbed?_of_childless rfl⟩
  | none =>
      have hboth : resolveBracket? registries (.node data children) =
          Embed.resolve? registries (.node data children) := by
        rw [resolveBracket?, hlink]
        rfl
      rw [expand_of_none hlink, forestExpand_singleton]
      cases hembed : Embed.resolve? registries (.node data children) with
      | some answer =>
          -- There are no links in an embed.
          have hkind := (Embed.answers_of_resolve? hembed).1
          have hleaves := leaves_of_flat htree (by rw [hkind]; rfl)
          have hsame : (forestExpand Link.resolveExternal? children).1 = children :=
            forestExpand_of_leaves fun child hmem =>
              ⟨(hleaves child hmem).1, resolveExternal?_of_childless (hleaves child hmem).2⟩
          rw [hsame, expand_of_some hembed, expand_of_some (hboth.trans hembed)]
      | none =>
          have hkind := Embed.resolve?_eq_none_iff.mp hembed
          have hnone : Embed.resolve? registries
              (.node data (forestExpand Link.resolveExternal? children).1) = none := by
            rw [Embed.resolve?_eq_none_iff]
            exact hkind
          rw [expand_of_none hnone, expand_of_none (hboth.trans hembed),
            forestExpand_forestExpand (obeys_node.mp htree).2]

/-- Links and embeds are resolved at once. -/
theorem forestExpand_forestExpand {forest : Forest} (hforest : forest.Obeys (Sound gone)) :
    (forestExpand (Embed.resolve? registries) (forestExpand Link.resolveExternal? forest).1).1 =
      (forestExpand (resolveBracket? registries) forest).1 := by
  cases forest with
  | nil => rfl
  | cons tree rest =>
      obtain ⟨htree, hrest⟩ := obeys_cons.mp hforest
      rw [forestExpand, forestExpand]
      simp only [forestExpand_append]
      rw [expand_expand htree, forestExpand_forestExpand hrest]

end

theorem resolveBracket?_eq_none_iff {tree : Tree} :
    resolveBracket? registries tree = none ↔
      tree.kind ≠ .aggregate (.bracket .externalLink) ∧
        tree.kind ≠ .aggregate (.bracket .embeddedFile) := by
  rw [resolveBracket?, Option.or_eq_none_iff, Link.resolveExternal?_eq_none_iff,
    Embed.resolve?_eq_none_iff]

/-- What takes the place of a bracket is nothing just if it vanishes. -/
theorem answer_of_resolveBracket? {tree : Tree} {answer : Forest × List Notice}
    (hsome : resolveBracket? registries tree = some answer) :
    (∃ bracket, tree.kind = .aggregate (.bracket bracket)) ∧
      (tree.vanishes registries = true ∧ answer.1 = [] ∨
        tree.vanishes registries = false ∧
          ((∃ data : Node, data.kind = .ready ∧ answer.1 = [.leaf data]) ∨
            ∃ (embed : Embed) (media : Media) (width : Nat),
              answer.1 = [embed.figure media width tree.data])) := by
  rw [resolveBracket?, Option.or_eq_some_iff] at hsome
  rcases hsome with hlink | ⟨-, hembed⟩
  · obtain ⟨hkind, hanswers⟩ := Link.answers_of_resolveExternal? hlink
    refine ⟨⟨_, hkind⟩, ?_⟩
    rw [vanishes, hkind]
    cases hanswers with
    | removed hempty => exact .inl ⟨by rw [hempty]; rfl, rfl⟩
    | leaf htarget hfull => exact .inr ⟨by rw [htarget, hfull]; rfl, .inl ⟨_, rfl, rfl⟩⟩
  · obtain ⟨hkind, hanswers⟩ := Embed.answers_of_resolve? hembed
    refine ⟨⟨_, hkind⟩, ?_⟩
    rw [vanishes, hkind]
    cases hanswers with
    | removed hunknown => exact .inl ⟨by rw [hunknown]; rfl, rfl⟩
    | figure hparse hmedia => exact .inr ⟨by rw [hparse, hmedia]; rfl, .inr ⟨_, _, _, rfl⟩⟩

theorem expand_eq_nil_iff {tree : Tree} :
    (expand (resolveBracket? registries) tree).1 = [] ↔ tree.vanishes registries = true := by
  cases hsome : resolveBracket? registries tree with
  | none =>
      obtain ⟨hlink, hembed⟩ := resolveBracket?_eq_none_iff.mp hsome
      obtain ⟨data, children⟩ := tree
      have hnot : (node data children).vanishes registries = false := by
        rw [vanishes, beq_eq_false_iff_ne.mpr hlink, beq_eq_false_iff_ne.mpr hembed]
        rfl
      rw [expand_of_none hsome, hnot]
      simp
  | some answer =>
      rw [expand_of_some hsome]
      rcases (answer_of_resolveBracket? hsome).2 with ⟨hvanishes, hnil⟩ | ⟨hnot, hanswer⟩
      · simp [hvanishes, hnil]
      · rw [hnot]
        rcases hanswer with ⟨data, -, hleaf⟩ | ⟨embed, media, width, hfigure⟩
        · simp [hleaf]
        · simp [hfigure]

theorem goes_of_isHollow {tree : Tree} (hhollow : tree.isHollow registries = true) :
    tree.kind.goesWhenEmpty = true := by
  simp only [isHollow, Bool.and_eq_true] at hhollow
  exact hhollow.1.1

theorem goes_of_isHusk {tree : Tree} (hhusk : tree.isHusk = true) :
    tree.kind.goesWhenEmpty = true := by
  simp only [isHusk, Bool.and_eq_true] at hhusk
  exact hhusk.1.1

/-- There is nothing hollow in a bracket, and the bracket is not hollow. -/
theorem census_hollow_of_bracket {tree : Tree} {bracket : Bracket}
    (hkind : tree.kind = .aggregate (.bracket bracket)) (hsound : tree.Obeys (Sound gone))
    (hfull : tree.Obeys Full) : census (marks (isHollow registries)) [tree] = [] := by
  have hleaves := leaves_of_flat hsound (by rw [hkind]; rfl)
  have hsome : tree.children ≠ [] := by
    intro hnil
    refine hfull.data ?_ (by rw [hnil]; rfl)
    rw [show tree.data.kind = _ from hkind]
    rfl
  have hown : marks (isHollow registries) tree = [] := by
    refine if_neg fun hhollow => ?_
    obtain ⟨child, rest, hchildren⟩ := List.exists_cons_of_ne_nil hsome
    simp only [isHollow, Bool.and_eq_true] at hhollow
    have hvanishes := List.all_eq_true.mp hhollow.2.2 child (by rw [hchildren]; simp)
    have hleaf := (hleaves child (by rw [hchildren]; simp)).2
    rw [← expand_eq_nil_iff] at hvanishes
    obtain ⟨data, children⟩ := child
    rw [expand_of_none] at hvanishes
    · cases hvanishes
    · refine resolveBracket?_eq_none_iff.mpr ⟨fun hlink => ?_, fun hembed => ?_⟩
      · rw [hlink] at hleaf
        cases hleaf
      · rw [hembed] at hleaf
        cases hleaf
  have hbelow : census (marks (isHollow registries)) tree.children = [] := by
    rw [census_eq_flatMap]
    refine List.flatMap_eq_nil_iff.mpr fun child hmem => ?_
    obtain ⟨hchildren, hchild⟩ := hleaves child hmem
    have hnone : marks (isHollow registries) child = [] :=
      marks_of_not_goes goes_of_isHollow (Kind.goesWhenEmpty_eq_false hchild)
    obtain ⟨data, children⟩ := child
    obtain rfl : children = [] := hchildren
    rw [census_cons, hnone, census_nil]
    rfl
  obtain ⟨data, children⟩ := tree
  rw [census_cons, hown, show census _ children = [] from hbelow, census_nil]
  rfl

/-- Resolving links and embeds leaves every hollow node empty, and no other one. -/
theorem census_resolveBrackets {body : Forest} (hsound : body.Obeys (Sound gone))
    (hfull : body.Obeys Full) :
    census (marks isHusk) (forestExpand (resolveBracket? registries) body).1 =
      census (marks (isHollow registries)) body := by
  refine census_forestExpand (Q := fun _ => True) (fun tree answer htree hsome _ => ?_)
    (fun data children htree _ => ?_) (forestObeys_and hsound hfull) fun _ _ => trivial
  · obtain ⟨⟨bracket, hkind⟩, hanswer⟩ := answer_of_resolveBracket? hsome
    rw [census_hollow_of_bracket hkind (htree.mono fun _ _ hdata => hdata.1)
      (htree.mono fun _ _ hdata => hdata.2)]
    rcases hanswer with ⟨-, hnil⟩ | ⟨-, ⟨data, hready, hleaf⟩ | ⟨embed, media, width, hfigure⟩⟩
    · rw [hnil, census_nil]
    · have hnone : marks isHusk (.node data []) = [] :=
        marks_of_not_goes goes_of_isHusk (by rw [kind_node, hready]; rfl)
      rw [hleaf, leaf, census_cons, hnone, census_nil]
      rfl
    · rw [hfigure]
      rfl
  · have hleaf : (forestExpand (resolveBracket? registries) children).1.isEmpty =
        children.all (vanishes registries) := by
      rw [Bool.eq_iff_iff, List.isEmpty_iff, forestExpand_eq_nil_iff, List.all_eq_true]
      exact forall₂_congr fun _ _ => expand_eq_nil_iff
    have hgoes : data.kind.goesWhenEmpty = true → children.isEmpty = false := by
      intro hgoes
      rw [List.isEmpty_eq_false_iff]
      intro hnil
      exact htree.data.2 hgoes (by rw [hnil]; rfl)
    have hsame : isHusk (.node data (forestExpand (resolveBracket? registries) children).1) =
        isHollow registries (.node data children) := by
      rw [isHusk, isHollow, isLeaf, isLeaf, children_node, children_node, hleaf, kind_node,
        kind_node]
      cases hkind : data.kind.goesWhenEmpty with
      | false => rfl
      | true =>
          rw [hgoes hkind]
          rfl
    rw [marks, marks, hsame]

/-- Resolving links and embeds leaves containers as they are. -/
theorem encloses_resolveBrackets {body : Forest} (hbody : body.Obeys Encloses) :
    Forest.Obeys Encloses (forestExpand (resolveBracket? registries) body).1 := by
  refine forestObeys_expand (fun data children _ hdata hcontainer => ?_)
    (fun tree answer _ hsome => ?_) hbody
  · rw [kinds_forestExpand_of_none]
    · exact hdata hcontainer
    · intro tree hmem
      rcases (hdata hcontainer).2 tree.kind (List.mem_map_of_mem hmem) with hkind | hkind <;>
        exact resolveBracket?_eq_none_iff.mpr (by rw [hkind]; exact ⟨nofun, nofun⟩)
  · rcases (answer_of_resolveBracket? hsome).2 with
      ⟨-, hnil⟩ | ⟨-, ⟨data, hready, hleaf⟩ | ⟨embed, media, width, hfigure⟩⟩
    · rw [hnil]
      exact obeys_nil
    · rw [hleaf]
      exact obeys_cons.mpr ⟨obeys_node.mpr ⟨encloses_of_ne (by rw [hready]; nofun) _, obeys_nil⟩,
        obeys_nil⟩
    · rw [hfigure]
      simp [Embed.figure, container, elementLeaf, leaf, Encloses, kinds]

/-! ## Blank headings -/

theorem not_isHusk_of_heading {tree : Tree} (hheading : tree.isHeading = true) :
    marks isHusk tree = [] := if_neg (by simp [isHusk, hheading])

/-- Taking blank headings out makes no husks and takes none out. -/
theorem countP_husk_dropBlankHeadings (body : Forest) :
    body.dropBlankHeadings.1.subtrees.countP isHusk = body.subtrees.countP isHusk := by
  rw [← length_census_marks, ← length_census_marks]
  have hspares : Rule.Spares (fun _ _ => True) (marks isHusk) :=
    spares_leaves (q := fun kind => kind.goesWhenEmpty && !kind.headingLevel?.isSome)
      (fun _ hkind => (Bool.and_eq_true _ _ ▸ hkind).1) _
  have hwears : Rule.Wears fun _ _ => True := ⟨fun _ _ _ => trivial, fun _ _ _ _ => trivial⟩
  have hnone : ∀ data (inner : Forest), data.kind.headingLevel?.isSome = true →
      marks isHusk (.node data inner) = [] := fun _ _ hlevel => not_isHusk_of_heading hlevel
  refine congrArg List.length (census_dropBlankHeadings hwears (fun _ _ _ => trivial) hspares
    (fun data children others hlevel => ?_) (fun data _ hlevel => hnone data [] hlevel)
    (forestObeys_of_subtrees fun _ _ => trivial))
  rw [hnone data children hlevel, hnone data others hlevel]

/-- No heading is left without content. -/
theorem lacks_dropBlankHeadings (body : Forest) :
    Lacks (fun tree => tree.isHeading && tree.isLeaf) body.dropBlankHeadings.1 := by
  refine lacks_removeWhere ?_ (fun _ => goesWhenEmpty_of_blank)
    (fun tree hblank => (Bool.and_eq_true _ _ ▸ hblank).2) _
  exact spares_leaves (q := fun kind => kind.headingLevel?.isSome)
    (fun _ => Kind.goesWhenEmpty_of_heading) _

/-! ## Lowering -/

/-- Slugging a page keeps the number of husks. -/
theorem countP_husk_slugHeadings (body : Forest) :
    body.slugHeadings.1.subtrees.countP isHusk = body.subtrees.countP isHusk := by
  rw [← length_census_marks, ← length_census_marks, Forest.slugHeadings]
  have hsame : ∀ data element (children others : Forest), others.kinds = children.kinds →
      marks isHusk (.node { data with element } others) = marks isHusk (.node data children) := by
    intro data element children others hkinds
    have hempty : others.isEmpty = children.isEmpty := by
      cases children <;> cases others <;> first | rfl | cases hkinds
    simp [marks, isHusk, isHeading, isLeaf, kind, hempty]
  have hall : body.Obeys fun _ _ => True := forestObeys_of_subtrees fun _ _ => trivial
  exact congrArg _ (census_forestSlugHeadings
    (fun data _ _ children others _ _ hkinds => hsame data _ children others hkinds)
    (fun data children others _ _ hkinds => hsame data data.element children others hkinds) _ hall)

/-- A husk becomes an empty container, and nothing else does. -/
theorem countP_emptyContainer_lower {body : Forest} (hslugged : body.Obeys Slugged)
    (hencloses : body.Obeys Encloses)
    (hheading : body.Obeys fun data kinds => data.kind.headingLevel?.isSome = true → kinds ≠ []) :
    body.lower.subtrees.countP isEmptyContainer = body.subtrees.countP isHusk := by
  rw [← length_census_marks, ← length_census_marks]
  refine congrArg _ (census_forestLower (fun data children lowered hdata hempty => ?_)
    (forestObeys_and hslugged (forestObeys_and hencloses hheading)))
  obtain ⟨hslugged, hencloses, hheading⟩ := hdata
  have hleaf : lowered.isEmpty = children.isEmpty := by
    rw [Bool.eq_iff_iff, List.isEmpty_iff, List.isEmpty_iff]
    exact hempty.symm
  have hframe : ∀ (other : Node) (inner : Forest), other.kind = .container →
      census (marks isEmptyContainer) [.node other inner] =
        (if inner.isEmpty then [()] else []) ++ census (marks isEmptyContainer) inner := by
    intro other inner hkind
    simp [census_cons, marks, isEmptyContainer, isLeaf, hkind]
  have hnode : ∀ (other : Node) (inner : Forest), other.kind = .ready →
      census (marks isEmptyContainer) [.node other inner] =
        census (marks isEmptyContainer) inner := by
    intro other inner hkind
    simp [census_cons, marks, isEmptyContainer, hkind]
  have hgoes : data.kind.goesWhenEmpty = true → data.kind.headingLevel? = none →
      marks isHusk (.node data children) = if children.isEmpty then [()] else [] := by
    intro hgoes hlevel
    simp [marks, isHusk, isHeading, isLeaf, hgoes, hlevel]
  have hstays : data.kind.goesWhenEmpty = false → marks isHusk (.node data children) = [] :=
    fun hnot => marks_of_not_goes goes_of_isHusk hnot
  have hlowers := lowers_lowerNode data lowered
  generalize lowerNode data lowered = tree at hlowers ⊢
  cases hlowers with
  | done hkind =>
      rcases hkind with hkind | hkind
      · rw [hnode _ _ hkind, hstays (by rw [hkind]; rfl), List.nil_append]
      · have hsome : children.isEmpty = false := by
          rw [List.isEmpty_eq_false_iff]
          exact fun hnil => (hencloses hkind).1 (by rw [hnil]; rfl)
        rw [hframe _ _ hkind, hleaf, hsome, hstays (by rw [hkind]; rfl)]
        rfl
  | heading level hkind =>
      have hlevel : data.kind.headingLevel?.isSome = true := by
        rw [hkind]
        rfl
      have hsome : children.isEmpty = false := by
        rw [List.isEmpty_eq_false_iff]
        exact fun hnil => hheading hlevel (by rw [hnil]; rfl)
      have hnone : marks isHusk (.node data children) = [] := not_isHusk_of_heading hlevel
      rw [hframe _ _ rfl, hleaf, hsome, hnone]
      rfl
  | tagged htag =>
      rw [hgoes htag.goesWhenEmpty htag.headingLevel?_eq_none, tagged, hframe _ _ rfl, hleaf]
  | emBold hkind =>
      have htag := Kind.TakesTag.of_emBold hkind
      rw [tagged, hframe _ _ rfl, container, hframe _ _ rfl, hleaf,
        hgoes htag.goesWhenEmpty htag.headingLevel?_eq_none]
      rfl
  | text htext =>
      have hleaves := Kind.goesWhenEmpty_eq_false (hslugged.canHaveChildren_eq_false htext)
      rw [hnode _ _ rfl, hstays hleaves, List.nil_append]

end Tree

open Draft

/-- The passes after that for notes leave an empty container for every hollow node. -/
theorem Draft.countP_emptyContainer_after_notes {source : Source} {registries : Registries}
    {draft final : Draft} (hsound : draft.body.Obeys (Sound resolvedKinds))
    (hfull : draft.body.Obeys Full) (hencloses : draft.body.Obeys Encloses)
    (hrun : (runPasses source registries afterNotes draft).2 = .ok final) :
    final.body.subtrees.countP Tree.isEmptyContainer =
      draft.body.subtrees.countP (Tree.isHollow registries) := by
  have hresolved : (Embed.resolveAll registries (Link.resolveExternals draft.body).1).1 =
      (Tree.forestExpand (Tree.resolveBracket? registries) draft.body).1 := Tree.forestExpand_forestExpand hsound
  have hsoundResolved := Embed.sound_resolveAll registries (Link.sound_resolveExternals hsound)
  have henclosesResolved : Forest.Obeys Encloses
      (Embed.resolveAll registries (Link.resolveExternals draft.body).1).1 := by
    rw [hresolved]
    exact Tree.encloses_resolveBrackets hencloses
  have hstable : Rule.Stable (Sound embeddedKinds) := .sound (by decide)
  have hkept : (draft.unlowered registries).Obeys (Sound embeddedKinds) :=
    hsoundResolved.dropBlankHeadings hstable.wears fun hdata _ => hstable.fewer hdata
  have henclosesKept : (draft.unlowered registries).Obeys Encloses := by
    refine henclosesResolved.dropBlankHeadings wears_encloses fun _ hlevel _ => ?_
    refine encloses_of_ne (fun hcontainer => ?_) _
    rw [hcontainer] at hlevel
    cases hlevel
  have hheaded : (draft.unlowered registries).Obeys fun data kinds =>
      data.kind.headingLevel?.isSome = true → kinds ≠ [] := by
    refine Tree.forestObeys_of_subtrees fun tree hmem hlevel hnil => ?_
    have hnot : (tree.isHeading && tree.isLeaf) = false := Tree.lacks_dropBlankHeadings _ tree hmem
    rw [show tree.isHeading = true from hlevel, Tree.isLeaf, List.map_eq_nil_iff.mp hnil] at hnot
    cases hnot
  have hframed : (draft.unlowered registries).slugHeadings.1.Obeys Encloses := by
    refine Tree.forestObeys_slugHeadings (fun _ _ _ _ hdata _ => hdata) (fun _ _ hdata _ => hdata) _
      henclosesKept
  have hheadings : (draft.unlowered registries).slugHeadings.1.Obeys fun data kinds =>
      data.kind.headingLevel?.isSome = true → kinds ≠ [] :=
    Tree.forestObeys_slugHeadings (fun _ _ _ _ hdata _ => hdata) (fun _ _ hdata _ => hdata) _ hheaded
  rw [(body_after_notes hrun).1, Tree.countP_emptyContainer_lower hkept.slugHeadings hframed hheadings,
    Tree.countP_husk_slugHeadings, Draft.unlowered, Tree.countP_husk_dropBlankHeadings, hresolved,
    ← length_census_marks, ← length_census_marks, Tree.census_resolveBrackets hsound hfull]

/-- The empty containers of a compiled page are as many as the nodes that are left empty
when links and embeds are resolved. With `next` the page that the pass for notes leaves,
these are the nodes other than headings that have children, all of them links without a
target or embeds of unknown files. -/
theorem Source.compile_empty_containers {source : Source} {registries : Registries}
    {document : Document} (hcompile : (source.compile registries).2 = .ok document) :
    ∃ body draft next notices,
      Forest.ofLexemes source.lexemes = .ok body ∧
      (runPasses source registries beforeNotes { body }).2 = .ok draft ∧
      Pass.notes.run source registries draft = .ok (next, notices) ∧
      (Forest.subtrees (document.title.heading :: document.body)).countP Tree.isEmptyContainer =
        next.body.subtrees.countP (Tree.isHollow registries) ∧
      ((∀ tree ∈ Forest.subtrees (document.title.heading :: document.body),
          tree.kind = .container → tree.children ≠ []) ↔
        ∀ tree ∈ next.body.subtrees, tree.isHollow registries = false) := by
  obtain ⟨body, final, hbody, hrun, hfinish, -⟩ := compile_eq_ok hcompile
  obtain ⟨htitle, hfinal, -⟩ := finish_eq_ok hfinish
  obtain ⟨centered, directive, hread⟩ := title_runPasses hrun rfl htitle
  obtain ⟨draft, next, notices, hbefore, hnotes, hlast, hsound, hresolve⟩ :=
    cut_at_notes hbody hrun
  have hnext : next.body = (Note.resolve draft.definitions draft.body).1 := by rw [hresolve]
  have hresolved : next.body.Obeys (Sound resolvedKinds) := hnext ▸ Note.sound_resolve _ hsound
  have hfull : next.body.Obeys Full := hnext ▸ Note.full_resolve _ (full_before_notes hbody hbefore)
  have hencloses : next.body.Obeys Encloses := hnext ▸ Note.encloses_resolve _ hsound
  have hcount : (Forest.subtrees (document.title.heading :: document.body)).countP
      Tree.isEmptyContainer = next.body.subtrees.countP (Tree.isHollow registries) := by
    have hsubtrees : Forest.subtrees (document.title.heading :: document.body) =
        document.title.heading :: document.body.subtrees := by
      rw [Forest.subtrees_cons, hread]
      rfl
    rw [hsubtrees, List.countP_cons_of_neg (by rw [hread]; nofun), hfinal]
    exact countP_emptyContainer_after_notes hresolved hfull hencloses hlast
  refine ⟨body, draft, next, notices, hbody, hbefore, hnotes, hcount, ?_⟩
  calc
    _ ↔ (Forest.subtrees (document.title.heading :: document.body)).countP
        Tree.isEmptyContainer = 0 := by
      rw [List.countP_eq_zero]
      refine forall₂_congr fun tree _ => ?_
      simp [Tree.isEmptyContainer, Tree.isLeaf]
    _ ↔ next.body.subtrees.countP (Tree.isHollow registries) = 0 := by rw [hcount]
    _ ↔ _ := by
      rw [List.countP_eq_zero]
      exact forall₂_congr fun tree _ => by rw [Bool.not_eq_true]

/-- A page with nothing but a link without a target after its title. -/
def Tree.hollowExample : Source :=
  ⟨#["!", "t", "i", "t", "l", "e", " ", "T", "\n", "[", "[", " ", "]", "]"]⟩

theorem Tree.compile_hollowExample :
    ((hollowExample.compile Registries.empty).2.map fun document =>
      (document.html, (Forest.subtrees (document.title.heading :: document.body)).countP
        Tree.isEmptyContainer)).toOption = some ("<p></p>", 1) := by decide +kernel

/-- Its paragraph becomes an empty container. -/
theorem Source.compile_empty_paragraph :
    ∃ document, (Tree.hollowExample.compile Registries.empty).2 = .ok document ∧
      document.html = "<p></p>" ∧
      ¬∀ tree ∈ Forest.subtrees (document.title.heading :: document.body),
        tree.kind = .container → tree.children ≠ [] := by
  have hrendered := Tree.compile_hollowExample
  cases hcompile : (Tree.hollowExample.compile Registries.empty).2 with
  | error fault =>
      rw [hcompile] at hrendered
      cases hrendered
  | ok document =>
      rw [hcompile] at hrendered
      obtain ⟨hhtml, hcount⟩ := Prod.mk.inj (Option.some.inj hrendered)
      refine ⟨document, rfl, hhtml, fun hfilled => ?_⟩
      obtain ⟨tree, hmem, hempty⟩ := List.countP_pos_iff.mp (hcount ▸ Nat.one_pos)
      rw [Tree.isEmptyContainer, Bool.and_eq_true, beq_iff_eq, Tree.isLeaf, List.isEmpty_iff] at hempty
      exact hfilled tree hmem hempty.1 hempty.2

/-- That is because the pass for notes leaves one hollow node. -/
theorem Source.compile_hollow_paragraph :
    ∃ (document : Document) (body : Forest) (draft next : Draft) (notices : List Notice),
      (Tree.hollowExample.compile Registries.empty).2 = .ok document ∧
      Forest.ofLexemes Tree.hollowExample.lexemes = .ok body ∧
      (runPasses Tree.hollowExample Registries.empty beforeNotes { body }).2 = .ok draft ∧
      Pass.notes.run Tree.hollowExample Registries.empty draft = .ok (next, notices) ∧
      next.body.subtrees.countP (Tree.isHollow Registries.empty) = 1 := by
  have hrendered := Tree.compile_hollowExample
  cases hcompile : (Tree.hollowExample.compile Registries.empty).2 with
  | error fault =>
      rw [hcompile] at hrendered
      cases hrendered
  | ok document =>
      rw [hcompile] at hrendered
      obtain ⟨-, hone⟩ := Prod.mk.inj (Option.some.inj hrendered)
      obtain ⟨body, draft, next, notices, hbody, hbefore, hnotes, hcount, -⟩ :=
        Source.compile_empty_containers hcompile
      exact ⟨document, body, draft, next, notices, rfl, hbody, hbefore, hnotes,
        hcount.symm.trans hone⟩

end PageMarkup
