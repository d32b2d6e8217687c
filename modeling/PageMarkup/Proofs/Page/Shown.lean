import PageMarkup.Proofs.Page.Hollows
import PageMarkup.Proofs.Page.Outline
import PageMarkup.Proofs.Page.Quiet
import PageMarkup.Proofs.Page.Quotes
import PageMarkup.Proofs.Page.Remarks

/-! # Aggregates that are shown

An aggregate that must have children promises an element to the page. Where a pass takes
one out it leaves a warning, with one exception: quoted lines that are all blank are
dropped without a word. So a page without warnings keeps the promises of all aggregates
but those, in document order. The opening marker tells which element is whose.
-/

namespace PageMarkup

open Node Forest

/-- Tag of the elements of quotes. -/
def Html.quoteTag : String := "blockquote"

/-- Tag of the element that shows an aggregate. Directives are not shown. -/
def Aggregate.tag : Aggregate → String
  | .style .em | .style .emBold => "i"
  | .style .bold => "b"
  | .style .strikethrough => "s"
  | .style (.heading level) => "h" ++ toString level.number
  | .bracket .externalLink => "a"
  | .bracket .embeddedFile => "figure"
  | .bracket .noteRef => "sup"
  | .line .blockquote => Html.quoteTag
  | .line .directive => ""

/-- Aggregates get the tag that shows them. -/
theorem Kind.TakesTag.aggregate_or_paragraph {kind : Kind} {tag : String}
    (htag : kind.TakesTag tag) :
    (∃ aggregate, kind = .aggregate aggregate ∧ aggregate.needsChildren = true ∧
      tag = aggregate.tag) ∨ kind = .paragraph ∧ tag = "p" := by
  cases htag with
  | paragraph => exact .inr ⟨rfl, rfl⟩
  | _ => exact .inl ⟨_, rfl, rfl, rfl⟩

namespace Node

/-- What an aggregate that must have children promises: for its opening marker, the tag of
its element. -/
def promise (data : Node) : List (Span × String) :=
  match data.kind with
  | .aggregate aggregate =>
    if aggregate.needsChildren then data.opener.toList.map fun opener => (opener, aggregate.tag)
    else []
  | _ => []

/-- What the element of a node keeps: for the opening marker that it stems from, its tag. -/
def displays (data : Node) : List (Span × String) :=
  match data.element with
  | some element => data.opener.toList.map fun opener => (opener, element.tag)
  | none => []

/-- What a node keeps or still promises. -/
def trace (data : Node) : List (Span × String) :=
  match data.element with
  | some _ => data.displays
  | none => data.promise

theorem trace_of_bare {data : Node} (hbare : data.element = none) : data.trace = data.promise := by
  rw [trace, hbare]

theorem trace_of_element {data : Node} {element : Element}
    (helement : data.element = some element) :
    data.trace = data.opener.toList.map fun opener => (opener, element.tag) := by
  rw [trace, displays, helement]

theorem promise_of_aggregate {data : Node} {aggregate : Aggregate}
    (hkind : data.kind = .aggregate aggregate) (hneeds : aggregate.needsChildren = true) :
    data.promise = data.opener.toList.map fun opener => (opener, aggregate.tag) := by
  rw [promise, hkind]
  exact if_pos hneeds

theorem promise_of_childless {data : Node} (hkind : data.kind.canHaveChildren = false) :
    data.promise = [] := by
  rw [promise]
  split
  next haggregate => rw [haggregate] at hkind; cases hkind
  next => rfl

/-- An element for the same marker with the tag of the aggregate keeps its promise. -/
theorem trace_of_kept {data other : Node} {aggregate : Aggregate} {element : Element}
    (hkind : data.kind = .aggregate aggregate) (hneeds : aggregate.needsChildren = true)
    (hbare : data.element = none) (hopener : other.opener = data.opener)
    (helement : other.element = some element) (htag : element.tag = aggregate.tag) :
    other.trace = data.trace := by
  rw [trace_of_bare hbare, promise_of_aggregate hkind hneeds, trace_of_element helement, hopener,
    htag]

end Node

namespace Forest

/-- The promises of a forest, in document order. -/
def promises (forest : Forest) : List (Span × String) :=
  forest.census fun tree => tree.data.promise

/-- The elements of a forest that stem from an opening marker, in document order. -/
def displays (forest : Forest) : List (Span × String) := forest.census fun tree => tree.data.displays

/-- What the nodes of a forest keep or still promise, in document order. -/
def traces (forest : Forest) : List (Span × String) := forest.census fun tree => tree.data.trace

theorem traces_cons (data : Node) (children rest : Forest) :
    traces (.node data children :: rest) = data.trace ++ (traces children ++ traces rest) :=
  census_cons data children rest

theorem traces_nil : traces [] = [] := census_nil

theorem traces_append (first second : Forest) :
    traces (first ++ second) = traces first ++ traces second := census_append first second

theorem traces_singleton_append (tree : Tree) (rest : Forest) :
    traces (tree :: rest) = traces [tree] ++ traces rest := census_singleton_append tree rest

/-- Where no node has an opening marker there is nothing to keep. -/
theorem traces_of_unopened {forest : Forest}
    (hforest : forest.Obeys fun data _ => data.opener = none) : forest.traces = [] := by
  rw [traces, census, List.flatMap_eq_nil_iff]
  intro tree hmem
  have hnone : tree.data.opener = none := (Tree.forestObeys_of_mem_subtrees hforest hmem).data
  unfold Node.trace Node.displays Node.promise
  rw [hnone]
  split
  next => split <;> rfl
  next =>
    split
    next => split <;> rfl
    next => rfl

/-- An element with nothing of its own below it keeps the promise of an aggregate. -/
theorem traces_kept {data other : Node} {aggregate : Aggregate} {element : Element}
    {children : Forest} (hkind : data.kind = .aggregate aggregate)
    (hneeds : aggregate.needsChildren = true) (hbare : data.element = none)
    (hopener : other.opener = data.opener) (helement : other.element = some element)
    (htag : element.tag = aggregate.tag)
    (hchildren : children.Obeys fun data _ => data.opener = none) :
    traces [.node other children] = data.trace := by
  rw [traces_cons, traces_of_unopened hchildren, traces_nil, List.append_nil, List.append_nil,
    Node.trace_of_kept hkind hneeds hbare hopener helement htag]

/-! ## Rearranging -/

variable {gone : List Kind}

/-- A node without children and element keeps and promises nothing. -/
theorem traces_of_childless {tree : Tree} (htree : tree.Obeys (Sound gone))
    (hkind : tree.kind.canHaveChildren = false) (hbare : tree.data.element = none) :
    traces [tree] = [] := by
  obtain ⟨data, children⟩ := tree
  obtain ⟨hdata, -⟩ := Tree.obeys_node.mp htree
  have htrace : data.trace = [] :=
    (Node.trace_of_bare hbare).trans (Node.promise_of_childless hkind)
  rw [show children = [] from List.map_eq_nil_iff.mp (hdata.childless hkind), traces_cons, htrace,
    traces_nil]
  rfl

theorem trims_trace : Trims fun tree => tree.data.trace := by
  refine .of_textLeaf fun tree hleaf => ?_
  have hkind := (isText_of_isTextLeaf hleaf).canHaveChildren
  obtain ⟨data, children⟩ := tree
  cases children with
  | nil =>
      rw [Tree.isTextLeaf, Bool.and_eq_true, Option.isNone_iff_eq_none] at hleaf
      exact (Node.trace_of_bare hleaf.1).trans (Node.promise_of_childless hkind)
  | cons => cases hleaf

theorem trace_paragraph (span : Span) (children : Forest) :
    (Tree.node { kind := .paragraph, span } children).data.trace = [] := rfl

theorem traces_of_blank {tree : Tree} (htree : tree.Obeys (Sound liftedKinds))
    (hblank : (isNewline tree || isBlankText tree) = true) : traces [tree] = [] := by
  refine traces_of_childless htree ?_ htree.data.element_eq_none
  rcases (Bool.or_eq_true _ _).mp hblank with hnewline | hblank
  · rw [show tree.kind = .newline by simpa [isNewline] using hnewline]
    rfl
  · rw [isBlankText, Bool.and_eq_true, beq_iff_eq] at hblank
    rw [hblank.1]
    rfl

/-- Trimming and grouping keep all promises. -/
theorem traces_paragraphs {forest : Forest} (hforest : forest.Obeys (Sound liftedKinds)) :
    forest.trimNewlines.paragraphs.traces = forest.traces := by
  have htrimmed : forest.trimNewlines.traces = forest.traces :=
    census_trimNewlines fun tree hmem hnewline =>
      traces_of_blank (obeys_iff.mp hforest tree hmem) (by rw [hnewline, Bool.true_or])
  rw [← htrimmed]
  exact census_paragraphs trims_trace trace_paragraph fun tree hmem =>
    traces_of_blank (obeys_iff.mp hforest.trimNewlines tree hmem)

end Forest

/-! ## Brackets -/

/-- Directly below a bracket there are only leaves that no pass has touched, and a paragraph
has no marker. -/
structure Node.Raw (data : Node) (kinds : List Kind) : Prop where
  brackets : data.kind.flat = true → ∀ kind ∈ kinds, kind.canHaveChildren = false ∧ kind ≠ .ready
  paragraphs : data.kind = .paragraph → data.opener = none

namespace Node

theorem raw_of_done {data : Node} (hkind : data.kind = .container ∨ data.kind = .ready)
    (kinds : List Kind) : Raw data kinds where
  brackets hflat := by rcases hkind with hkind | hkind <;> rw [hkind] at hflat <;> cases hflat
  paragraphs hparagraph := by
    rcases hkind with hkind | hkind <;> rw [hkind] at hparagraph <;> cases hparagraph

theorem stable_raw : Rule.Stable Raw where
  fewer hdata hsubset :=
    ⟨fun hflat kind hmem => hdata.brackets hflat kind (hsubset hmem), hdata.paragraphs⟩
  text _ _ hdata := ⟨hdata.brackets, hdata.paragraphs⟩
  span _ hdata := ⟨hdata.brackets, hdata.paragraphs⟩
  paragraph _ _ := ⟨nofun, fun _ => rfl⟩
  quote _ hkind hdata := ⟨fun hflat => (by rw [hkind] at hflat; cases hflat), hdata.paragraphs⟩

end Node

open Forest

namespace Tree

/-- A bracket keeps or promises what its node does. -/
theorem traces_of_flat {gone : List Kind} {tree : Tree} (htree : tree.Obeys (Sound gone))
    (hraw : tree.Obeys Raw) (hflat : tree.kind.flat = true) :
    traces [tree] = tree.data.trace := by
  have hchildren : traces tree.children = [] := by
    rw [traces, census_eq_flatMap, List.flatMap_eq_nil_iff]
    intro child hmem
    obtain ⟨hkind, hready⟩ := hraw.data.brackets hflat child.kind (List.mem_map_of_mem hmem)
    have hchild := obeys_iff.mp htree.children child hmem
    refine traces_of_childless hchild hkind ?_
    by_contra hsome
    rcases hchild.data.bare (Option.isSome_iff_ne_none.mpr hsome) with hcontainer | hkindReady
    · rw [show child.kind = _ from hcontainer] at hkind
      cases hkind
    · exact hready hkindReady
  obtain ⟨data, children⟩ := tree
  rw [traces_cons, show traces children = [] from hchildren, traces_nil, List.append_nil,
    List.append_nil, data_node]

/-- Leaves are not rewritten. -/
theorem kinds_forestRewriteNoteRefs_of_childless {notes : List Note} (seen : List String)
    {forest : Forest} (hforest : ∀ kind ∈ forest.kinds, kind.canHaveChildren = false) :
    (forestRewriteNoteRefs notes seen forest).1.kinds = forest.kinds := by
  induction forest generalizing seen with
  | nil => rfl
  | cons tree rest ih =>
      obtain ⟨htree, hrest⟩ := List.forall_mem_cons.mp hforest
      obtain ⟨data, children⟩ := tree
      have hnot : (node data children).isNoteRef = false := by
        rw [isNoteRef, beq_eq_false_iff_ne]
        intro hkind
        rw [hkind] at htree
        cases htree
      have hkind : ((node data children).rewriteNoteRefs notes seen).1.kind = data.kind := by
        rw [rewriteNoteRefs]
        dsimp only
        rw [if_neg (by simp [hnot])]
        rfl
      simp only [forestRewriteNoteRefs, kinds, List.map_cons, hkind]
      exact congrArg (data.kind :: ·) (ih _ hrest)

end Tree

/-- There is nothing but untouched leaves in brackets before the notes are resolved. -/
theorem Forest.Obeys.raw {body : Forest} (hbody : body.Obeys (Sound liftedKinds))
    (hparagraphs : body.Obeys fun data _ => data.kind ≠ .paragraph) : body.Obeys Raw := by
  refine Tree.forestObeys_of_subtrees fun tree hmem => ⟨fun hflat kind hkind => ?_, fun hkind => ?_⟩
  · have htree := Tree.forestObeys_of_mem_subtrees hbody hmem
    refine ⟨htree.data.flat hflat kind hkind, fun hready => ?_⟩
    obtain ⟨child, hchild, rfl⟩ := List.mem_map.mp hkind
    refine (obeys_iff.mp htree.children child hchild).data.present ?_
    rw [show child.data.kind = _ from hready]
    decide
  · exact absurd hkind (Tree.forestObeys_of_mem_subtrees hparagraphs hmem).data

theorem Kind.flat_eq_false {kind : Kind} (hkind : kind ∉ embeddedKinds) : kind.flat = false := by
  cases kind with
  | aggregate aggregate =>
      cases aggregate with
      | style style => rfl
      | bracket bracket => cases bracket <;> exact absurd (by decide) hkind
      | line line =>
          cases line with
          | blockquote => rfl
          | directive => exact absurd (by decide) hkind
  | _ => rfl

/-! ## Notes -/

namespace Note

theorem raw_sectionOf (notes : List Note) : (sectionOf notes).Obeys Raw := by
  have hsound := sound_sectionOf notes
  have hunopened := unopened_sectionOf notes
  exact Tree.forestObeys_mono (fun _ _ hdata =>
    ⟨fun hflat => (by rw [Kind.flat_eq_false hdata.1.present] at hflat; cases hflat),
      fun _ => hdata.2⟩) (Tree.forestObeys_and hsound hunopened)

theorem raw_referenceTree (note : Note) (index : Nat) (data : Node) :
    (note.referenceTree index data).Obeys Raw :=
  Tree.obeys_node.mpr ⟨Node.raw_of_done (.inl rfl) _, obeys_cons.mpr
    ⟨Tree.obeys_node.mpr ⟨Node.raw_of_done (.inr rfl) _, obeys_nil⟩, obeys_nil⟩⟩

/-- Resolving the notes touches no bracket but references. -/
theorem raw_resolve (definitions : List Directive) {body : Forest} (hbody : body.Obeys Raw) :
    (resolve definitions body).1.Obeys Raw := by
  have hkept : (withoutUndefined definitions body).1.Obeys Raw :=
    obeys_dropUndefined stable_raw.wears _ hbody
  rw [resolve_eq]
  dsimp only
  split
  next => exact hkept
  next =>
    refine obeys_append.mpr ⟨?_, raw_sectionOf _⟩
    refine Tree.forestObeys_rewriteNoteRefs (fun data children seen hdata => ?_)
      (fun _ _ hdata => hdata) (fun note index data _ _ _ => raw_referenceTree note index data) []
      hkept
    refine ⟨fun hflat => ?_, hdata.paragraphs⟩
    have hchildless : ∀ kind ∈ kinds children, kind.canHaveChildren = false :=
      fun kind hmem => (hdata.brackets hflat kind hmem).1
    rw [Tree.kinds_forestRewriteNoteRefs_of_childless seen hchildless]
    exact hdata.brackets hflat

theorem traces_sectionOf (notes : List Note) : (sectionOf notes).traces = [] :=
  traces_of_unopened (unopened_sectionOf notes)

end Note

namespace Tree

mutual

theorem traces_rewriteNoteRefs (notes : List Note) (seen : List String) {tree : Tree}
    (htree : tree.Obeys (Sound liftedKinds)) (hraw : tree.Obeys Raw) :
    traces [(tree.rewriteNoteRefs notes seen).1] = traces [tree] := by
  obtain ⟨data, children⟩ := tree
  obtain ⟨hdata, hchildren⟩ := obeys_node.mp htree
  rw [rewriteNoteRefs]
  dsimp only
  split
  next href =>
    split
    next note _ =>
      have hkind : data.kind = .aggregate (.bracket .noteRef) := beq_iff_eq.mp href
      rw [traces_of_flat htree hraw (by rw [kind_node, hkind]; rfl)]
      exact traces_kept hkind rfl hdata.element_eq_none rfl rfl rfl
        (obeys_cons.mpr ⟨obeys_node.mpr ⟨rfl, obeys_nil⟩, obeys_nil⟩)
    next => rfl
  next =>
    rw [traces_cons, traces_cons, traces_forestRewriteNoteRefs notes seen hchildren hraw.children]

/-- References keep their promises. -/
theorem traces_forestRewriteNoteRefs (notes : List Note) (seen : List String) {forest : Forest}
    (hforest : forest.Obeys (Sound liftedKinds)) (hraw : forest.Obeys Raw) :
    traces (forestRewriteNoteRefs notes seen forest).1 = forest.traces := by
  cases forest with
  | nil => rfl
  | cons tree rest =>
      obtain ⟨htree, hrest⟩ := obeys_cons.mp hforest
      obtain ⟨hrawTree, hrawRest⟩ := obeys_cons.mp hraw
      simp only [forestRewriteNoteRefs]
      rw [traces_singleton_append, traces_rewriteNoteRefs notes seen htree hrawTree,
        traces_forestRewriteNoteRefs notes _ hrest hrawRest, ← traces_singleton_append]

end

end Tree

theorem Note.dropUndefined_of_quiet {names : List String} {body : Forest}
    (hquiet : ∀ notice ∈ (dropUndefined names body).2, notice.IsQuiet) :
    (dropUndefined names body).1 = body := by
  cases names with
  | nil => rfl
  | cons name names => cases hquiet _ List.mem_cons_self

/-- If nothing is said about notes then all names are defined. -/
theorem Note.withoutUndefined_of_quiet {definitions : List Directive} {body : Forest}
    (hquiet : ∀ notice ∈ (resolve definitions body).2, notice.IsQuiet) :
    (withoutUndefined definitions body).1 = body := by
  refine dropUndefined_of_quiet fun notice hmem => hquiet notice ?_
  rw [resolve_eq]
  dsimp only
  split
  next => exact List.mem_append_right _ hmem
  next => exact List.mem_append_left _ (List.mem_append_right _ hmem)

/-- Resolving the notes without a warning keeps all promises. -/
theorem Note.traces_resolve {definitions : List Directive} {body : Forest}
    (hbody : body.Obeys (Sound liftedKinds)) (hraw : body.Obeys Raw)
    (hquiet : ∀ notice ∈ (resolve definitions body).2, notice.IsQuiet) :
    (resolve definitions body).1.traces = body.traces := by
  have hkept := withoutUndefined_of_quiet hquiet
  rw [resolve_eq]
  dsimp only
  rw [hkept]
  split
  next => rfl
  next =>
    rw [traces_append, Tree.traces_forestRewriteNoteRefs _ [] hbody hraw, traces_sectionOf,
      List.append_nil]

/-! ## Links and embeds -/

/-- A bracket has no element before it is resolved. -/
theorem Node.Sound.bare_of_aggregate {gone : List Kind} {data : Node} {kinds : List Kind}
    (hdata : Sound gone data kinds) {aggregate : Aggregate}
    (hkind : data.kind = .aggregate aggregate) : data.element = none := by
  by_contra hsome
  rcases hdata.bare (Option.isSome_iff_ne_none.mpr hsome) with hother | hother <;>
    rw [hkind] at hother <;> cases hother

namespace Link

/-- A link that is resolved without a warning becomes a leaf for its marker. -/
theorem traces_of_answer {gone : List Kind} {tree : Tree} {answer : Forest × List Notice}
    (htree : tree.Obeys (Sound gone)) (hraw : tree.Obeys Raw)
    (hsome : resolveExternal? tree = some answer) (hquiet : ∀ notice ∈ answer.2, notice.IsQuiet) :
    answer.1.traces = traces [tree] := by
  obtain ⟨hkind, hanswers⟩ := answers_of_resolveExternal? hsome
  rw [Tree.traces_of_flat htree hraw (by rw [hkind]; rfl)]
  cases hanswers with
  | removed => cases hquiet _ List.mem_cons_self
  | leaf => exact traces_kept hkind rfl (htree.data.bare_of_aggregate hkind) rfl rfl rfl obeys_nil

theorem traces_resolveExternals {body : Forest} (hbody : body.Obeys (Sound resolvedKinds))
    (hraw : body.Obeys Raw)
    (hquiet : ∀ notice ∈ (resolveExternals body).2, notice.IsQuiet) :
    (resolveExternals body).1.traces = body.traces :=
  Tree.census_forestExpand (Q := Notice.IsQuiet)
    (fun _ _ htree hsome hanswer => traces_of_answer (htree.mono fun _ _ hdata => hdata.1)
      (htree.mono fun _ _ hdata => hdata.2) hsome hanswer)
    (fun _ _ _ _ => rfl) (Tree.forestObeys_and hbody hraw) hquiet

/-- Links are not in brackets. -/
theorem raw_resolveExternals {body : Forest} (hraw : body.Obeys Raw) :
    (resolveExternals body).1.Obeys Raw := by
  refine Tree.forestObeys_expand (fun data children _ hdata => ?_)
    (fun tree answer _ hsome => ?_) hraw
  · refine ⟨fun hflat => ?_, hdata.paragraphs⟩
    have hnone : ∀ child ∈ children, resolveExternal? child = none := fun child hmem =>
      Tree.resolveExternal?_of_childless
        (hdata.brackets hflat child.kind (List.mem_map_of_mem hmem)).1
    rw [Tree.kinds_forestExpand_of_none hnone]
    exact hdata.brackets hflat
  · cases (answers_of_resolveExternal? hsome).2 with
    | removed => exact obeys_nil
    | leaf =>
        exact obeys_cons.mpr
          ⟨Tree.obeys_node.mpr ⟨Node.raw_of_done (.inr rfl) _, obeys_nil⟩, obeys_nil⟩

end Link

namespace Embed

variable {registries : Registries}

/-- A figure stands for the marker of its embed. -/
theorem traces_figure (embed : Embed) (media : Media) (width : Nat) {data : Node}
    {kinds : List Kind} {gone : List Kind} (hdata : Sound gone data kinds)
    (hkind : data.kind = .aggregate (.bracket .embeddedFile)) :
    traces [embed.figure media width data] = data.trace := by
  refine traces_kept hkind rfl (hdata.bare_of_aggregate hkind) rfl rfl rfl ?_
  exact obeys_cons.mpr ⟨Tree.obeys_node.mpr ⟨rfl, obeys_cons.mpr
    ⟨Tree.obeys_node.mpr ⟨rfl, obeys_nil⟩, obeys_nil⟩⟩, obeys_cons.mpr
    ⟨Tree.obeys_node.mpr ⟨rfl, obeys_nil⟩, obeys_nil⟩⟩

theorem traces_of_answer {gone : List Kind} {tree : Tree} {answer : Forest × List Notice}
    (htree : tree.Obeys (Sound gone)) (hraw : tree.Obeys Raw)
    (hsome : resolve? registries tree = some answer)
    (hquiet : ∀ notice ∈ answer.2, notice.IsQuiet) : answer.1.traces = traces [tree] := by
  obtain ⟨hkind, hanswers⟩ := answers_of_resolve? hsome
  rw [Tree.traces_of_flat htree hraw (by rw [hkind]; rfl)]
  cases hanswers with
  | removed => cases hquiet _ List.mem_cons_self
  | figure => exact traces_figure _ _ _ htree.data hkind

theorem traces_resolveAll {body : Forest} (hbody : body.Obeys (Sound linkedKinds))
    (hraw : body.Obeys Raw)
    (hquiet : ∀ notice ∈ (resolveAll registries body).2, notice.IsQuiet) :
    (resolveAll registries body).1.traces = body.traces :=
  Tree.census_forestExpand (Q := Notice.IsQuiet)
    (fun _ _ htree hsome hanswer => traces_of_answer (htree.mono fun _ _ hdata => hdata.1)
      (htree.mono fun _ _ hdata => hdata.2) hsome hanswer)
    (fun _ _ _ _ => rfl) (Tree.forestObeys_and hbody hraw) hquiet

/-- Embeds are not in brackets. -/
theorem raw_resolveAll {body : Forest} (hraw : body.Obeys Raw) :
    (resolveAll registries body).1.Obeys Raw := by
  refine Tree.forestObeys_expand (fun data children _ hdata => ?_)
    (fun tree answer _ hsome => ?_) hraw
  · refine ⟨fun hflat => ?_, hdata.paragraphs⟩
    have hnone : ∀ child ∈ children, resolve? registries child = none := fun child hmem =>
      Tree.resolveEmbed?_of_childless
        (hdata.brackets hflat child.kind (List.mem_map_of_mem hmem)).1
    rw [Tree.kinds_forestExpand_of_none hnone]
    exact hdata.brackets hflat
  · cases (answers_of_resolve? hsome).2 with
    | removed => exact obeys_nil
    | figure =>
        exact obeys_cons.mpr ⟨Tree.obeys_node.mpr ⟨Node.raw_of_done (.inl rfl) _, obeys_cons.mpr
          ⟨Tree.obeys_node.mpr ⟨Node.raw_of_done (.inl rfl) _, obeys_cons.mpr
            ⟨Tree.obeys_node.mpr ⟨Node.raw_of_done (.inr rfl) _, obeys_nil⟩, obeys_nil⟩⟩,
          obeys_cons.mpr
            ⟨Tree.obeys_node.mpr ⟨Node.raw_of_done (.inr rfl) _, obeys_nil⟩, obeys_nil⟩⟩⟩,
          obeys_nil⟩

end Embed

/-! ## Headings and lowering -/

namespace Forest

variable {body : Forest}

/-- A tree that is taken out is told. -/
theorem RemovesFirst.removed_eq {p : Tree → Bool} {target : Tree} {forest : Forest}
    {removal : Removal} (hremoves : RemovesFirst p target forest removal) :
    removal.removed = some target.data := by
  induction hremoves with
  | here => rfl
  | deeper _ _ _ _ _ _ _ _ _ ih | settled _ _ _ _ _ _ _ _ _ _ ih
  | emptied _ _ _ _ _ _ _ _ _ _ _ ih => exact ih

theorem removeTimes_of_none {p : Tree → Bool} {count : Nat} {forest : Forest}
    (hnone : ∀ removal ∈ (removeTimes p count forest).2, removal.removed = none) :
    (removeTimes p count forest).1 = forest := by
  cases count with
  | zero => rfl
  | succ count =>
      rw [removeTimes] at hnone ⊢
      split at hnone
      next => rfl
      next path hfind =>
        obtain ⟨target, hremoves⟩ := removesFirst_of_findPath? hfind
        have hremoved := hnone _ List.mem_cons_self
        rw [hremoves.removed_eq] at hremoved
        cases hremoved

/-- If nothing is said about blank headings there are none. -/
theorem dropBlankHeadings_of_quiet
    (hquiet : ∀ notice ∈ body.dropBlankHeadings.2, notice.IsQuiet) :
    body.dropBlankHeadings.1 = Tree.forestTrimHeadings body := by
  refine removeTimes_of_none fun removal hmem => ?_
  cases hremoved : removal.removed with
  | none => rfl
  | some node =>
      have hnotice : node.emptyNotice ∈ body.dropBlankHeadings.2 := by
        refine List.mem_flatMap.mpr ⟨removal, hmem, List.mem_append_left _ ?_⟩
        rw [hremoved]
        exact List.mem_singleton_self _
      cases hquiet _ hnotice

/-- Trimming headings keeps all promises. -/
theorem traces_forestTrimHeadings (body : Forest) :
    traces (Tree.forestTrimHeadings body) = body.traces :=
  Tree.census_forestTrimHeadings trims_trace (fun _ _ _ _ => rfl) (fun _ _ _ _ => rfl) body

theorem traces_forestSlugHeadings (slugger : Slugger) (hbody : body.Obeys (Sound embeddedKinds)) :
    traces (Tree.forestSlugHeadings slugger body).1 = body.traces := by
  refine Tree.census_forestSlugHeadings
    (fun data level slug children others hdata hlevel _ => ?_) (fun _ _ _ _ _ _ => rfl) _ hbody
  have hkind := Kind.eq_heading_of_headingLevel? hlevel
  exact Node.trace_of_kept hkind rfl (hdata.bare_of_aggregate hkind) rfl rfl rfl

/-- A lowered node has the element that it promised. -/
theorem traces_lowerNode {data : Node} {kinds kinds' : List Kind} (hdata : Outlined data kinds)
    (hraw : Raw data kinds') (lowered : Forest) :
    traces [Tree.lowerNode data lowered] = data.trace ++ traces lowered := by
  have hnode : ∀ (other : Node) (inner : Forest),
      traces [.node other inner] = other.trace ++ traces inner := by
    intro other inner
    rw [traces_cons, traces_nil, List.append_nil]
  have htagged : ∀ (aggregate : Aggregate) (inner : Forest), data.kind = .aggregate aggregate →
      aggregate.needsChildren = true → aggregate.headingLevel? = none →
      traces [Tree.tagged aggregate.tag data inner] = data.trace ++ traces inner := by
    intro aggregate inner hkind hneeds hlevel
    have hnone := hdata.element_eq_none (by rw [hkind]; nofun) (by rw [hkind]; nofun)
      (by rw [hkind]; exact hlevel)
    exact (hnode _ inner).trans (congrArg (· ++ traces inner)
      (Node.trace_of_kept hkind hneeds hnone rfl rfl rfl))
  have hlowers := Tree.lowers_lowerNode data lowered
  generalize Tree.lowerNode data lowered = tree at hlowers ⊢
  cases hlowers with
  | done => exact hnode _ _
  | heading level hkind =>
      obtain ⟨element, helement⟩ :=
        Option.isSome_iff_exists.mp (hdata.slugged.headed (by rw [hkind]; rfl))
      rw [hnode, Node.trace_of_element helement]
      exact congrArg (· ++ traces lowered) (Node.trace_of_element helement)
  | tagged htag =>
      rcases htag.aggregate_or_paragraph with ⟨aggregate, hkind, hneeds, rfl⟩ | ⟨hkind, rfl⟩
      · refine htagged aggregate lowered hkind hneeds ?_
        have hlevel := htag.headingLevel?_eq_none
        rwa [hkind] at hlevel
      · have hnone := hdata.element_eq_none (by rw [hkind]; nofun) (by rw [hkind]; nofun)
          (by rw [hkind]; rfl)
        have hopener := hraw.paragraphs hkind
        rw [Tree.tagged, hnode, Node.trace_of_element rfl, Node.trace_of_bare hnone, Node.promise,
          hkind, hopener]
        rfl
  | emBold hkind =>
      refine (htagged (.style .emBold) _ hkind rfl rfl).trans (congrArg (data.trace ++ ·) ?_)
      exact (hnode _ lowered).trans rfl
  | text htext =>
      have hnone := hdata.element_eq_none htext.container htext.ready htext.heading
      have hpromise : data.promise = [] := by
        rw [Node.promise]
        split
        next aggregate hkind =>
          exact absurd hkind (htext.not_styled (hdata.slugged.styled aggregate hkind))
        next => rfl
      rw [hnode, Node.trace_of_bare hnone, hpromise]
      rfl

theorem traces_forestLower
    (hbody : body.Obeys fun data kinds => Outlined data kinds ∧ Raw data kinds) :
    traces (Tree.forestLower body) = body.traces :=
  Tree.census_forestLower (f := fun tree => tree.data.trace) (g := fun tree => tree.data.trace)
    (fun _ _ lowered hdata _ => traces_lowerNode hdata.1 hdata.2 lowered) hbody

/-- What lowering finds once the headings have their elements. -/
theorem outlined_slugHeadings (hsound : body.Obeys (Sound embeddedKinds))
    (hmute : body.Obeys (Mute Html.headingTags)) (hraw : body.Obeys Raw) :
    body.slugHeadings.1.Obeys fun data kinds => Outlined data kinds ∧ Raw data kinds := by
  have hslugged : body.slugHeadings.1.Obeys Raw :=
    Tree.forestObeys_slugHeadings (fun _ _ _ _ hdata _ => ⟨hdata.brackets, hdata.paragraphs⟩)
      (fun _ _ hdata _ => hdata) _ hraw
  exact Tree.forestObeys_and (hsound.outlined hmute) hslugged

/-- From the last pass that can take an aggregate out, all promises are kept. -/
theorem traces_finished (hsound : body.Obeys (Sound embeddedKinds))
    (hmute : body.Obeys (Mute Html.headingTags)) (hraw : body.Obeys Raw) :
    body.slugHeadings.1.lower.traces = body.traces := by
  have hslugged : body.slugHeadings.1.traces = body.traces := traces_forestSlugHeadings _ hsound
  rw [← hslugged]
  exact traces_forestLower (outlined_slugHeadings hsound hmute hraw)

/-- A finished page shows what it kept. -/
theorem displays_eq_traces (hbody : body.Obeys Finished) : body.displays = body.traces := by
  refine List.flatMap_congr fun tree hmem => ?_
  have hdata := (Tree.forestObeys_of_mem_subtrees hbody hmem).data
  rw [Node.trace]
  split
  next => rfl
  next helement =>
    have hkind : tree.data.kind = .ready := by
      rcases hdata.shape with ⟨-, hsome⟩ | ⟨hready, -⟩
      · rw [helement] at hsome
        cases hsome
      · exact hready
    rw [Node.displays, helement, Node.promise_of_childless (by rw [hkind]; rfl)]

end Forest

end PageMarkup
