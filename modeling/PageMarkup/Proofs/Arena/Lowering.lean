import PageMarkup.Proofs.Arena.Headings

/-! # Lowering in an arena

Headings draw their slugs in document order, and nodes are lowered from the last one back,
so that what is below a node is done when its turn comes. Both go over the order that was
read after the blank headings were taken out, and neither takes anything out.
-/

namespace PageMarkup

open NumberedForest

namespace Arena

variable {arena : Arena} {frame : Frame} {place : Place}
  {before after siblings : NumberedForest}

/-! ## Slugs -/

theorem slugHeadings_of_heading {id : Nat} {cell : Cell} {level : HeadingLevel}
    {text slug : String} {slugger drawn : Slugger} {slugged next : Arena} {ids : List Nat}
    {headings : List Heading} (hcell : arena.get id = .ok cell)
    (hlevel : cell.data.kind.headingLevel? = some level)
    (htext : arena.textContent id = .ok text) (hslug : slugger.next text = (slug, drawn))
    (hupdate : (arena.update id fun data =>
      { data with
        element := some
          { tag := "h" ++ toString level.number, attributes := [("id", slug)] } }) = .ok slugged)
    (hnext : slugged.slugHeadings drawn ids = .ok (next, headings)) :
    arena.slugHeadings slugger (id :: ids) = .ok (next, ⟨level.number, slug, text⟩ :: headings) := by
  rw [Arena.slugHeadings, hcell, ok_bind, hlevel]
  dsimp only
  rw [htext, ok_bind, hslug]
  dsimp only
  rw [hupdate, ok_bind, hnext]
  rfl

theorem slugHeadings_of_other {id : Nat} {cell : Cell} {slugger : Slugger}
    (hcell : arena.get id = .ok cell) (hlevel : cell.data.kind.headingLevel? = none)
    (ids : List Nat) : arena.slugHeadings slugger (id :: ids) = arena.slugHeadings slugger ids := by
  rw [Arena.slugHeadings, hcell, ok_bind, hlevel]

/-- Slugging the headings of some siblings, and then those of other nodes. -/
theorem Stores.slugHeadings (slugger : Slugger)
    (hstores : Stores arena (Place.plug (frame :: place) (before ++ siblings ++ after))) :
    ∃ next slugged, NumberedForest.ids slugged = siblings.ids ∧
      NumberedForest.erase slugged = (Tree.forestSlugHeadings slugger siblings.erase).1 ∧
      Stores next (Place.plug (frame :: place) (before ++ slugged ++ after)) ∧
      ∀ more final headings,
        next.slugHeadings (Tree.forestSlugHeadings slugger siblings.erase).2.2 more =
          .ok (final, headings) →
        arena.slugHeadings slugger (siblings.ids ++ more) =
          .ok (final, (Tree.forestSlugHeadings slugger siblings.erase).2.1 ++ headings) := by
  induction siblings using NumberedForest.induction
    generalizing arena frame place before after slugger with
  | nil =>
      refine ⟨arena, [], rfl, by simp [Tree.forestSlugHeadings], hstores, ?_⟩
      intro more final headings hmore
      simpa [Tree.forestSlugHeadings] using hmore
  | cons id data children rest ihchildren ihrest =>
      have hnode : Stores arena (Place.plug (frame :: place)
        (before ++ .node id data children :: (rest ++ after))) := by simpa using hstores
      obtain ⟨cell, hcell, hdata, -, -⟩ := hnode.exists_get
      rw [NumberedTree.id_node] at hcell
      rw [NumberedTree.data_node] at hdata
      rw [ids_cons, erase_cons, Tree.forestSlugHeadings, Tree.slugHeadings]
      cases hlevel : data.kind.headingLevel? with
      | none =>
          dsimp only
          rw [← Place.plug_below] at hstores
          obtain ⟨lower, inner, hinnerIds, hinner, hstores, hlower⟩ := ihchildren slugger hstores
          rw [Place.plug_below, ← Place.plug_beside] at hstores
          obtain ⟨next, others, hothersIds, hothers, hstores, hnext⟩ := ihrest _ hstores
          refine ⟨next, .node id data inner :: others, by rw [ids_cons, hinnerIds, hothersIds],
            by rw [erase_cons, hinner, hothers], by simpa using hstores, ?_⟩
          intro more final headings hmore
          rw [List.cons_append, slugHeadings_of_other hcell (by rw [hdata, hlevel]),
            List.append_assoc, hlower _ _ _ (hnext _ _ _ hmore), List.append_assoc]
      | some level =>
          have htext : arena.textContent id = .ok (Tree.node data children.erase).textContent :=
            hnode.textContent
          obtain ⟨slug, drawn, hslug⟩ : ∃ slug drawn,
            slugger.next (Tree.node data children.erase).textContent = (slug, drawn) := ⟨_, _, rfl⟩
          dsimp only
          rw [hslug]
          dsimp only
          obtain ⟨updated, hupdate, hstores⟩ := hnode.update fun data =>
            { data with
              element := some
                { tag := "h" ++ toString level.number, attributes := [("id", slug)] } }
          rw [NumberedTree.children_node, ← List.cons_append, ← List.append_assoc,
            ← Place.plug_below] at hstores
          obtain ⟨lower, inner, hinnerIds, hinner, hstores, hlower⟩ := ihchildren drawn hstores
          rw [Place.plug_below, ← Place.plug_beside] at hstores
          obtain ⟨next, others, hothersIds, hothers, hstores, hnext⟩ :=
            ihrest (Tree.forestSlugHeadings drawn children.erase).2.2 hstores
          rw [Place.plug_beside] at hstores
          refine ⟨next, _ :: others, ?_, ?_, hstores, ?_⟩
          · rw [ids_cons, hinnerIds, hothersIds]
            rfl
          · rw [erase_cons, hinner, hothers]
            rfl
          · intro more final headings hmore
            have hbelow := hlower _ _ _ (hnext _ _ _ hmore)
            rw [List.cons_append, List.cons_append, List.cons_append, List.append_assoc,
              List.append_assoc]
            exact slugHeadings_of_heading hcell (by rw [hdata, hlevel]) htext hslug hupdate hbelow

/-! ## Lowering -/

/-- What a node becomes does not depend on what is below it, bold emphasis aside. -/
theorem lowerNode_of_ne {data : Node} (hkind : data.kind ≠ .aggregate (.style .emBold))
    (children : Forest) :
    Tree.lowerNode data children = .node (Tree.lowerNode data []).data children := by
  unfold Tree.lowerNode
  split <;> first | rfl | contradiction

/-- Lowering a node whose children are lowered already. -/
theorem Stores.lowerAt {id : Nat} {data : Node} {children : NumberedForest}
    (hstores : Stores arena
      (Place.plug (frame :: place) (before ++ .node id data children :: after))) :
    ∃ next lowered, arena.lowerAt id = .ok next ∧
      NumberedTree.erase lowered = Tree.lowerNode data children.erase ∧
      Stores next (Place.plug (frame :: place) (before ++ lowered :: after)) := by
  obtain ⟨cell, hcell, hdata, -, -⟩ := hstores.exists_get
  rw [NumberedTree.id_node] at hcell
  rw [NumberedTree.data_node] at hdata
  rw [Arena.lowerAt, hcell, ok_bind, hdata]
  by_cases hkind : data.kind = .aggregate (.style .emBold)
  · rw [if_pos hkind]
    obtain ⟨bold, allocated, halloc, hstores⟩ :=
      hstores.alloc { kind := .container, element := some { tag := "b" } }
    rw [← Place.plug_frame] at hstores
    obtain ⟨moved, hmove, hstores⟩ := hstores.moveChildren
    obtain ⟨linked, hlink, hstores⟩ := hstores.append
    have hnode : Stores linked (Place.plug (frame :: place) (before ++ .node id data
      [.node bold { kind := .container, element := some { tag := "b" } } children] :: after)) :=
      hstores
    obtain ⟨next, hnext, hstores⟩ := hnode.update fun data => (Tree.lowerNode data []).data
    refine ⟨next, _, ?_, ?_, hstores⟩
    · have hmove : allocated.moveChildren id bold = .ok moved := hmove
      have hlink : moved.append id bold = .ok linked := hlink
      have hnext : (linked.update id fun data => (Tree.lowerNode data []).data) = .ok next := hnext
      simp only [halloc, hmove, hlink, ok_bind, hnext]
    · simp [NumberedTree.erase, Tree.lowerNode, hkind, Tree.tagged, Tree.container]
  · rw [if_neg hkind, pure_eq_ok, ok_bind]
    obtain ⟨next, hnext, hstores⟩ := hstores.update fun data => (Tree.lowerNode data []).data
    refine ⟨next, _, hnext, ?_, hstores⟩
    rw [lowerNode_of_ne hkind]
    rfl

theorem each_append {act : Arena → Nat → Except ArenaFault Arena} {middle next : Arena}
    {first second : List Nat} (hfirst : arena.each act first = .ok middle)
    (hsecond : middle.each act second = .ok next) :
    arena.each act (first ++ second) = .ok next := by
  induction first generalizing arena with
  | nil =>
      obtain rfl := Except.ok.inj hfirst
      exact hsecond
  | cons id rest ih =>
      rw [each] at hfirst
      rw [List.cons_append, each]
      cases hact : act arena id with
      | error fault =>
          rw [hact] at hfirst
          cases hfirst
      | ok stepped =>
          rw [hact, ok_bind] at hfirst
          rw [ok_bind, ih hfirst]

/-- Lowering the nodes of some siblings, the last one first. -/
theorem Stores.each_lowerAt
    (hstores : Stores arena (Place.plug (frame :: place) (before ++ siblings ++ after))) :
    ∃ next lowered, arena.each Arena.lowerAt siblings.ids.reverse = .ok next ∧
      NumberedForest.erase lowered = Tree.forestLower siblings.erase ∧
      Stores next (Place.plug (frame :: place) (before ++ lowered ++ after)) := by
  induction siblings using NumberedForest.induction generalizing arena frame place before after with
  | nil => exact ⟨arena, [], by simp [each], by simp [Tree.forestLower], hstores⟩
  | cons id data children rest ihchildren ihrest =>
      rw [← Place.plug_beside] at hstores
      obtain ⟨beside, others, hothers, hothersErase, hstores⟩ := ihrest hstores
      rw [Place.plug_beside, ← Place.plug_below] at hstores
      obtain ⟨below, inner, hinner, hinnerErase, hstores⟩ := ihchildren hstores
      rw [Place.plug_below, List.append_assoc] at hstores
      obtain ⟨next, lowered, hnext, hlowered, hstores⟩ := Stores.lowerAt hstores
      refine ⟨next, lowered :: others, ?_, ?_, by simpa using hstores⟩
      · have hself : below.each Arena.lowerAt [id] = .ok next := by
          rw [each, hnext, ok_bind]
          rfl
        rw [ids_cons, List.reverse_cons, List.reverse_append]
        exact each_append (each_append hothers hinner) hself
      · rw [erase_cons_eq, hlowered, hothersErase, hinnerErase, erase_cons, Tree.forestLower,
          Tree.lower]

/-! ## The page -/

variable {forest : NumberedForest}

/-- The ids that are kept from headings are those of the page. -/
theorem Holds.reservingSlugger (hholds : Holds arena forest) :
    arena.reservingSlugger (root :: forest.ids) = .ok forest.erase.reservingSlugger := by
  have hids : NumberedForest.ids (Place.plug [top] forest) = root :: forest.ids := by
    simp [Place.plug_cons, top]
  have hdata : (((Place.plug [top] forest).ids.filterMap arena.get?).map Cell.data) =
      { kind := .documentRoot } :: forest.erase.preorder := by
    rw [hholds.linked.data_cells]
    simp [Place.plug_cons, top, Forest.preorder, Tree.forestPreorder, Tree.preorder]
  rw [← hids, Arena.reservingSlugger, Stores.mapM_get hholds, ok_bind, Forest.reservingSlugger,
    Forest.ids, pure_eq_ok]
  have htaken : ((Place.plug [top] forest).ids.filterMap arena.get?).filterMap
      (fun cell => cell.data.element.bind (·.attribute? "id")) =
      forest.erase.preorder.filterMap fun data => data.element.bind (·.attribute? "id") := by
    have hmap := congrArg (List.filterMap fun data : Node =>
      data.element.bind (·.attribute? "id")) hdata
    rwa [List.filterMap_map, List.filterMap_cons_none rfl] at hmap
  rw [htaken]

/-- Making an arena ready for output does so with the forest in it. -/
theorem Holds.lower (hholds : Holds arena forest) :
    ∃ next kept, arena.lower = .ok (next, forest.erase.dropBlankHeadings.2,
        forest.erase.dropBlankHeadings.1.slugHeadings.2) ∧
      NumberedForest.erase kept = forest.erase.dropBlankHeadings.1.slugHeadings.1.lower ∧
      Holds next kept := by
  obtain ⟨dropped, full, hdrop, hfull, hdropped⟩ := hholds.dropBlankHeadings
  obtain ⟨slugged, headed, hids, hheaded, hstores, hslug⟩ :=
    hdropped.belowRoot.slugHeadings full.erase.reservingSlugger
  obtain ⟨next, lowered, hlower, hlowered, hnext⟩ := Stores.each_lowerAt hstores
  refine ⟨next, lowered, ?_, ?_, by simpa using hnext⟩
  · obtain ⟨cell, hcell, hdata, -, -⟩ := hdropped.atRoot.exists_get
    have hroot : dropped.get root = .ok cell := hcell
    have hslugged := hslug [] slugged [] rfl
    rw [List.append_nil, List.append_nil] at hslugged
    rw [Arena.lower, hholds.descendants, ok_bind, hdrop, ok_bind]
    dsimp only
    rw [hdropped.descendants, ok_bind, hdropped.reservingSlugger, ok_bind,
      slugHeadings_of_other hroot (by rw [hdata]; rfl), hslugged, ok_bind]
    dsimp only
    rw [List.tail_cons, ← hids, hlower, ok_bind, ← hfull]
    rfl
  · rw [hlowered, hheaded, hfull]
    rfl

end Arena

end PageMarkup
