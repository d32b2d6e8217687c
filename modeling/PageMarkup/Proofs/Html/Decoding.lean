import PageMarkup.Proofs.Page.Finish

/-! # Pages read back

A finished page is written with plain names only, and its events are those of its pieces.
So the HTML of every page that compiles reads back as the page, and no text of the source
or of a registry can pass for markup.
-/

namespace PageMarkup

open Node Forest Html

namespace Tree

mutual

theorem isPlain_pieces {tree : Tree} (htree : tree.Obeys Finished) :
    ∀ piece ∈ tree.pieces, piece.IsPlain := by
  obtain ⟨data, children⟩ := tree
  have hchildren := isPlain_forestPieces htree.children
  have hnamed := htree.data.named
  rw [pieces, frame]
  cases helement : data.element with
  | none =>
      cases children with
      | nil => simp [Piece.IsPlain]
      | cons child rest => simpa using hchildren
  | some element =>
      have hplain : HasPlainNames element := hnamed element helement
      dsimp only
      by_cases hframed : data.kind = .container ∨ ¬ children.isEmpty
      · simp only [if_pos hframed, ↓reduceIte, List.forall_mem_append, List.forall_mem_cons]
        exact ⟨⟨⟨hplain, nofun⟩, hchildren⟩, hplain.1, nofun⟩
      · simp only [if_neg hframed, Bool.false_eq_true, ↓reduceIte, List.forall_mem_cons]
        exact ⟨hplain, nofun⟩

theorem isPlain_forestPieces {forest : Forest} (hforest : forest.Obeys Finished) :
    ∀ piece ∈ forestPieces forest, piece.IsPlain := by
  cases forest with
  | nil => nofun
  | cons tree rest =>
      obtain ⟨htree, hrest⟩ := Forest.obeys_cons.mp hforest
      rw [forestPieces]
      exact List.forall_mem_append.mpr ⟨isPlain_pieces htree, isPlain_forestPieces hrest⟩

end

mutual

/-- The pieces of a finished tree have its events. -/
theorem events_pieces {tree : Tree} (htree : tree.Obeys Finished) :
    tree.pieces.flatMap Piece.events = tree.events := by
  obtain ⟨data, children⟩ := tree
  have hchildren := events_forestPieces htree.children
  rw [pieces, events, frame]
  rcases htree.data.shape with ⟨hkind, hsome⟩ | ⟨hkind, hleaf⟩
  · obtain ⟨element, helement⟩ := Option.isSome_iff_exists.mp hsome
    rw [data_node] at hkind helement
    rw [hkind, helement]
    simpa [Piece.events] using hchildren
  · obtain rfl : children = [] := List.map_eq_nil_iff.mp hleaf
    rw [data_node] at hkind
    rw [hkind]
    cases data.element with
    | none => rfl
    | some element => simp [Piece.events]

theorem events_forestPieces {forest : Forest} (hforest : forest.Obeys Finished) :
    (forestPieces forest).flatMap Piece.events = forestEvents forest := by
  cases forest with
  | nil => rfl
  | cons tree rest =>
      obtain ⟨htree, hrest⟩ := Forest.obeys_cons.mp hforest
      rw [forestPieces, forestEvents, List.flatMap_append, events_pieces htree,
        events_forestPieces hrest]

end

end Tree

/-- A finished forest reads back as its events. -/
theorem Forest.read?_html {forest : Forest} (hforest : forest.Obeys Finished) :
    read? forest.html = some (joinTexts forest.events) := by
  rw [Forest.html, read?_pieces (Tree.isPlain_forestPieces hforest),
    Tree.events_forestPieces hforest]
  rfl

/-- A finished tree reads back as its events. -/
theorem Tree.read?_html {tree : Tree} (htree : tree.Obeys Finished) :
    read? tree.html = some (joinTexts tree.events) := by
  rw [Tree.html, read?_pieces (Tree.isPlain_pieces htree), Tree.events_pieces htree]

/-! ## Titles -/

/-- The heading of a title is finished. -/
theorem PageTitle.finished_ofDirective (centered : Bool) (directive : Directive) :
    (ofDirective centered directive).heading.Obeys Finished := by
  refine Tree.obeys_node.mpr ⟨⟨?_, .inr ⟨rfl, rfl⟩⟩, obeys_nil⟩
  rintro _ ⟨⟩
  cases centered
  · simp only [HasPlainNames, Bool.false_eq_true, ↓reduceIte, List.forall_mem_cons]
    exact ⟨by decide, by decide, List.forall_mem_nil _⟩
  · simp only [HasPlainNames, ↓reduceIte, List.forall_mem_cons]
    exact ⟨by decide, by decide, by decide, List.forall_mem_nil _⟩

namespace Draft

variable {source : Source} {registries : Registries}

/-- Whatever a pass does to the title, its heading is finished. -/
theorem finished_title_run {pass : Pass} {draft next : Draft} {notices : List Notice}
    (hdraft : ∀ title ∈ draft.title, title.heading.Obeys Finished)
    (hrun : pass.run source registries draft = .ok (next, notices)) :
    ∀ title ∈ next.title, title.heading.Obeys Finished := by
  rcases title_run hrun with hsame | ⟨centered, directive, hread⟩
  · rw [hsame]
    exact hdraft
  · rw [hread]
    rintro _ ⟨⟩
    exact PageTitle.finished_ofDirective centered directive

end Draft

open Draft

/-- Every page that compiles is finished, and its HTML and that of its title read back as
the events of the page and of the heading, neighbouring texts joined and empty ones left
out. -/
theorem Source.compile_reads_back {source : Source} {registries : Registries}
    {document : Document} (hcompile : (source.compile registries).2 = .ok document) :
    document.body.Obeys Finished ∧
      document.title.heading.Obeys Finished ∧
      read? document.html = some (joinTexts document.body.events) ∧
      read? document.titleHtml = some (joinTexts document.title.heading.events) := by
  obtain ⟨body, final, hbody, hrun, hfinish, -⟩ := compile_eq_ok hcompile
  have htitle : ∀ title ∈ final.title, title.heading.Obeys Finished :=
    runPasses_invariant
      (P := fun draft => ∀ title ∈ draft.title, title.heading.Obeys Finished)
      (fun _ _ _ _ _ hdraft hnext => finished_title_run hdraft hnext) hrun nofun
  obtain ⟨draft, next, notices, -, -, hfinal, hsound, hresolve⟩ := cut_at_notes hbody hrun
  have hresolved := Note.sound_resolve draft.definitions hsound
  rw [hresolve] at hresolved
  obtain ⟨hsome, hshown, -⟩ := finish_eq_ok hfinish
  have hfinished : document.body.Obeys Finished := hshown ▸ finished_after_notes hresolved hfinal
  have hheading := htitle document.title hsome
  exact ⟨hfinished, hheading, Forest.read?_html hfinished, Tree.read?_html hheading⟩

/-- A page with markup in its title, its text and the target of a link. -/
def Html.hostileExample : Source :=
  ⟨#["!", "t", "i", "t", "l", "e", " ", "<", "b", ">", "&", "l", "t", ";", "\n",
    "<", "i", ">", "&", "a", "m", "p", ";", "[", "[", "\"", ">", "<", "u", ">", " ", "x", "]",
    "]"]⟩

theorem Source.compile_reads_back_hostile :
    ∃ document : Document,
      (hostileExample.compile Registries.empty).2 = .ok document ∧
      read? document.html = some (joinTexts document.body.events) ∧
      read? document.titleHtml = some (joinTexts document.title.heading.events) := by
  have hok : (hostileExample.compile Registries.empty).2.isOk = true := by decide +kernel
  cases hcompile : (hostileExample.compile Registries.empty).2 with
  | error fault =>
      rw [hcompile] at hok
      cases hok
  | ok document =>
      obtain ⟨-, -, hhtml, htitle⟩ := Source.compile_reads_back hcompile
      exact ⟨document, rfl, hhtml, htitle⟩

end PageMarkup
