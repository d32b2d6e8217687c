import Mathlib.Data.List.Nodup
import PageMarkup.Proofs.Note.Rewriting

/-! # Resolving notes

The names that a page both refers to and defines are resolved, in order of their first
references. Both ends of a link are told by the anchor of the name and the number of the
reference, so every reference leads to the entry of its note and the entry leads back to
every reference.
-/

namespace PageMarkup

open Node Forest

namespace Note

/-! ## Definitions -/

/-- The warning about a definition that does not count, given the names referred to and
the names defined before it. -/
def definitionWarning? (names earlier : List String) (definition : Directive) : Option Notice :=
  if definition.subname ∉ names then
    some ⟨.noteUnreferenced definition.subname, some definition.offset⟩
  else if definition.subname ∈ earlier then
    some ⟨.noteRepeated definition.subname, some definition.offset⟩
  else none

/-- The warnings about definitions, in source order. -/
def definitionWarnings (names earlier : List String) : List Directive → List Notice
  | [] => []
  | definition :: rest =>
    (definitionWarning? names earlier definition).toList ++
      definitionWarnings names (definition.subname :: earlier) rest

/-- The definition of a name that counts is its first, unless the name is known already. -/
theorem selectDefinitions_find? (names known : List String) (definitions : List Directive)
    {name : String} (hname : name ∈ names) (hknown : name ∉ known) :
    (selectDefinitions names known definitions).1.find? (·.subname == name) =
      definitions.find? (·.subname == name) := by
  induction definitions generalizing known with
  | nil => rfl
  | cons definition rest ih =>
      rw [selectDefinitions]
      dsimp only
      split
      next hnot =>
        have hne : definition.subname ≠ name := fun heq => by
          rw [heq] at hnot
          exact hnot (List.contains_iff_mem.mpr hname)
        rw [List.find?_cons_of_neg (by simpa using hne)]
        exact ih known hknown
      next =>
        split
        next hcontains =>
          have hne : definition.subname ≠ name := fun heq =>
            hknown (heq ▸ List.contains_iff_mem.mp hcontains)
          rw [List.find?_cons_of_neg (by simpa using hne)]
          exact ih known hknown
        next =>
          by_cases heq : definition.subname = name
          · rw [List.find?_cons_of_pos (by simpa using heq),
              List.find?_cons_of_pos (by simpa using heq)]
          · rw [List.find?_cons_of_neg (by simpa using heq),
              List.find?_cons_of_neg (by simpa using heq)]
            exact ih _ (by simpa [hknown] using Ne.symm heq)

theorem selectDefinitions_warnings (names : List String) {known earlier : List String}
    (hknown : ∀ name ∈ names, name ∈ known ↔ name ∈ earlier) (definitions : List Directive) :
    (selectDefinitions names known definitions).2 =
      definitionWarnings names earlier definitions := by
  induction definitions generalizing known earlier with
  | nil => rfl
  | cons definition rest ih =>
      rw [selectDefinitions, definitionWarnings, definitionWarning?]
      simp only [List.contains_iff_mem]
      split
      next hnot =>
        -- A name that is not referred to is kept out of the known names.
        refine congrArg (_ :: ·) (ih fun name hname => ?_)
        rw [hknown name hname, List.mem_cons, or_iff_right]
        exact fun heq => hnot (heq ▸ hname)
      next hmem =>
        rw [not_not] at hmem
        have hiff := hknown _ hmem
        by_cases hearlier : definition.subname ∈ earlier
        · rw [if_pos (hiff.mpr hearlier), if_pos hearlier]
          refine congrArg (_ :: ·) (ih fun name hname => ?_)
          rw [hknown name hname, List.mem_cons, or_iff_right_of_imp]
          rintro rfl
          exact hearlier
        · rw [if_neg fun h => hearlier (hiff.mp h), if_neg hearlier]
          refine ih fun name hname => ?_
          rw [List.mem_cons, List.mem_cons, hknown name hname]

/-! ## Notes -/

theorem length_anchors (slugger : Slugger) (names : List String) :
    (anchors slugger names).length = names.length := by
  induction names generalizing slugger with
  | nil => rfl
  | cons name rest ih => simp [anchors, ih]

theorem map_fst_zip_anchors (defined : List (String × String)) :
    (defined.zip (anchors {} (defined.map (·.1)))).map Prod.fst = defined := by
  refine List.map_fst_zip (Nat.le_of_eq ?_)
  rw [length_anchors, List.length_map]

/-- The notes are the names that have a definition, each with it. -/
theorem map_collect (references : List String) (definitions : List Directive)
    (names : List String) :
    (collect references definitions names).map (fun note => (note.name, note.definition)) =
      names.filterMap fun name => (definitions.find? (·.subname == name)).map fun definition =>
        (name, definition.argument) := by
  unfold collect
  generalize names.filterMap _ = defined
  conv_rhs => rw [← map_fst_zip_anchors defined]
  simp [List.map_map, Function.comp_def]

theorem references_of_mem_collect {references names : List String}
    {definitions : List Directive} {note : Note}
    (hmem : note ∈ collect references definitions names) :
    note.references = references.count note.name := by
  unfold collect at hmem
  obtain ⟨⟨⟨name, argument⟩, anchor⟩, -, rfl⟩ := List.mem_map.mp hmem
  rfl

/-! ## The section -/

/-- The link back to the reference at an index, and a space after it. A single reference needs no
letter. -/
def linkBack (note : Note) (index : Nat) : Forest :=
  [ .node
      { kind := .ready
        element := some
          { tag := "a"
            attributes := [("href", "#ref-" ++ note.anchor ++ "-" ++ backlinkLetters index)]
            content := some (if note.references = 1 then "^" else backlinkLetters index) } }
      []
  , .node { kind := .ready, text := " " } [] ]

/-- How the section lists a note: its name before a colon, the links back to its references, and
the definition. -/
structure Lists (note : Note) (entry : Tree) : Prop where
  kind : entry.kind = .container
  element : entry.data.element = some
    { tag := "div"
      attributes := [("class", "bottom-ref"), ("id", "bottom-ref-" ++ note.anchor)] }
  children : entry.children =
    [ .node
        { kind := .ready
          element := some { tag := "div", content := some (note.name ++ ":") } }
        []
    , .node { kind := .container, element := some { tag := "div" } }
        ((List.range note.references).flatMap note.linkBack ++
          [.node { kind := .ready, text := note.definition } []]) ]

/-- The section of some notes: a heading, and a list that lists them in order. -/
inductive IsSection (notes : List Note) : Forest → Prop where
  | intro (entries : Forest) : List.Forall₂ Lists notes entries →
      IsSection notes
        [ .node { kind := .aggregate (.style (.heading .two)) }
            [.node { kind := .text, text := "Notes" } []]
        , .node
            { kind := .container
              element := some { tag := "div", attributes := [("id", "bottom-refs")] } }
            entries ]

theorem backlinks_eq (note : Note) :
    note.backlinks = (List.range note.references).flatMap note.linkBack := by
  refine List.flatMap_congr fun index _ => ?_
  have hhref : "#" ++ note.referenceId index =
      "#ref-" ++ note.anchor ++ "-" ++ backlinkLetters index := by
    rw [← String.toList_inj]
    simp [referenceId]
  rw [linkBack, hhref]
  rfl

theorem lists_entry (note : Note) : note.Lists note.entry where
  kind := rfl
  element := rfl
  children := by
    rw [← backlinks_eq]
    rfl

/-- The entry of a note that is referred to once. -/
example : (entry ⟨"a", "a", 1, "First"⟩).textContent = "a:^ First" := by
  decide

theorem lists_entries (notes : List Note) : List.Forall₂ Lists notes (notes.map entry) := by
  induction notes with
  | nil => exact .nil
  | cons note rest ih => exact .cons (lists_entry note) ih

theorem isSection_sectionOf (notes : List Note) : IsSection notes (sectionOf notes) :=
  .intro _ (lists_entries notes)

/-- The nodes of an entry, each with the kinds of its children. -/
inductive EntryNode : Rule where
  | entry (note : Note) : EntryNode
      { kind := .container
        element := some
          { tag := "div", attributes := [("class", "bottom-ref"), ("id", note.entryId)] } }
      [.ready, .container]
  | name (content : String) : EntryNode
      { kind := .ready, element := some { tag := "div", content := some content } } []
  | body {kinds : List Kind} : kinds ≠ [] → (∀ kind ∈ kinds, kind = .ready) →
      EntryNode { kind := .container, element := some { tag := "div" } } kinds
  | backlink (href label : String) : EntryNode
      { kind := .ready
        element := some { tag := "a", attributes := [("href", href)], content := some label } } []
  | text (text : String) : EntryNode { kind := .ready, text } []

/-- The links back and the spaces after them, which are all ready. -/
theorem obeys_backlinks (note : Note) :
    note.backlinks.Obeys EntryNode ∧ ∀ kind ∈ note.backlinks.kinds, kind = .ready := by
  unfold backlinks
  induction List.range note.references with
  | nil => exact ⟨obeys_nil, nofun⟩
  | cons index rest ih =>
      rw [List.flatMap_cons, kinds, List.map_append]
      refine ⟨obeys_append.mpr ⟨obeys_cons.mpr ⟨Tree.obeys_node.mpr ⟨.backlink _ _, obeys_nil⟩,
        obeys_cons.mpr ⟨Tree.obeys_node.mpr ⟨.text _, obeys_nil⟩, obeys_nil⟩⟩, ih.1⟩, ?_⟩
      exact List.forall_mem_append.mpr ⟨by simp [Tree.kind, Tree.data, Tree.elementLeaf,
        Tree.textLeaf, Tree.leaf], ih.2⟩

theorem obeys_entryNode (note : Note) : note.entry.Obeys EntryNode := by
  obtain ⟨hbacklinks, hready⟩ := obeys_backlinks note
  refine Tree.obeys_node.mpr ⟨.entry note, obeys_cons.mpr
    ⟨Tree.obeys_node.mpr ⟨.name _, obeys_nil⟩, obeys_cons.mpr
      ⟨Tree.obeys_node.mpr ⟨.body ?_ ?_, ?_⟩, obeys_nil⟩⟩⟩
  · simp [kinds]
  · rw [kinds, List.map_append]
    exact List.forall_mem_append.mpr ⟨hready, by simp [Tree.kind, Tree.data, Tree.textLeaf,
      Tree.leaf]⟩
  · exact obeys_append.mpr ⟨hbacklinks, obeys_cons.mpr
      ⟨Tree.obeys_node.mpr ⟨.text _, obeys_nil⟩, obeys_nil⟩⟩

/-- A rule of the heading, the list and the nodes of entries is a rule of the section. -/
theorem obeys_sectionOf {rule : Rule} (notes : List Note)
    (hheading : rule { kind := .aggregate (.style (.heading .two)) } [.text])
    (htitle : rule { kind := .text, text := "Notes" } [])
    (hlist : rule
      { kind := .container, element := some { tag := "div", attributes := [("id", "bottom-refs")] } }
      (List.replicate notes.length .container))
    (hentry : ∀ data kinds, EntryNode data kinds → rule data kinds) :
    (sectionOf notes).Obeys rule := by
  have hentries : Obeys rule (notes.map entry) := by
    refine obeys_iff.mpr fun tree hmem => ?_
    obtain ⟨note, -, rfl⟩ := List.mem_map.mp hmem
    exact (obeys_entryNode note).mono hentry
  have hkinds : kinds (notes.map entry) = List.replicate notes.length .container := by
    rw [kinds, List.map_map]
    exact List.map_const' ..
  refine obeys_cons.mpr ⟨Tree.obeys_node.mpr ⟨hheading, obeys_cons.mpr
    ⟨Tree.obeys_node.mpr ⟨htitle, obeys_nil⟩, obeys_nil⟩⟩, obeys_cons.mpr
    ⟨Tree.obeys_node.mpr ⟨hkinds ▸ hlist, hentries⟩, obeys_nil⟩⟩

/-- The section with the notes stems from no marker. -/
theorem unopened_sectionOf (notes : List Note) :
    (sectionOf notes).Obeys fun data _ => data.opener = none := by
  refine obeys_sectionOf notes rfl rfl rfl fun data kinds hnode => ?_
  cases hnode <;> rfl

end Note

/-- Whether the element of the tree has the id. -/
def Tree.hasId (id : String) (tree : Tree) : Bool :=
  tree.data.element.any (·.attribute? "id" == some id)

/-- The subtrees whose elements have the id, in document order. -/
abbrev Forest.withId (id : String) (forest : Forest) : Forest := forest.matching (Tree.hasId id)

namespace Note

/-- A rule against elements with the id. -/
def LacksId (id : String) : Rule := fun data _ =>
  ∀ element ∈ data.element, element.attribute? "id" ≠ some id

theorem stable_lacksId (id : String) : Rule.Stable (LacksId id) :=
  ⟨fun hdata _ => hdata, fun _ _ hdata => hdata, fun _ hdata => hdata, fun _ _ => nofun,
    fun _ _ hdata => hdata⟩

theorem withId_eq_nil {id : String} {forest : Forest} (hforest : forest.Obeys (LacksId id)) :
    forest.withId id = [] := by
  refine List.filter_eq_nil_iff.mpr fun tree hmem => ?_
  have hdata := (Tree.forestObeys_of_mem_subtrees hforest hmem).data
  unfold Tree.hasId
  cases helement : tree.data.element with
  | none => simp
  | some element => simpa using hdata element helement

theorem obeys_lacksId_entry (note : Note) : note.entry.Obeys (LacksId "bottom-refs") := by
  refine (obeys_entryNode note).mono fun data kinds hnode => ?_
  cases hnode with
  | entry note =>
      have hentry : note.entryId ≠ "bottom-refs" := by
        intro heq
        simpa [entryId] using congrArg String.toList heq
      simp [LacksId, Element.attribute?, hentry]
  | _ => simp [LacksId, Element.attribute?]

/-! ## Pages -/

/-- The references of a page to names that are defined, in document order. -/
def resolvable (definitions : List Directive) (body : Forest) : List Tree :=
  body.references.filter fun reference => definitions.any (·.subname == reference.noteName)

/-- The names that a page refers to, each once, in order of first reference. A name is the trimmed
text of a reference. -/
def names (body : Forest) : List String :=
  (body.references.map fun reference => Text.trim reference.textContent).eraseDups

/-- The notes of `body` are resolved against `definitions`: `result` is the page with
`notes` resolved, and `notices` are left. -/
structure Resolution (definitions : List Directive) (body result : Forest)
    (notices : List Notice) (notes : List Note) : Prop where
  /-- Resolved are the names that are both referred to and defined, in order of first
  reference, each with the argument of its first definition. -/
  paired : notes.map (fun note => (note.name, note.definition)) =
    (names body).filterMap fun name =>
      (definitions.find? (·.subname == name)).map fun definition => (name, definition.argument)
  counted : ∀ note ∈ notes, note.references = (referenceNames body).count note.name
  cleared : result.references = []
  raised : result.superscripts.length = (resolvable definitions body).length
  /-- A reference becomes a raised link to the entry of its note. Its id counts the
  references to the same note before it. -/
  linked : ∀ position (reference : Tree), (resolvable definitions body)[position]? = some reference →
    ∃ note ∈ notes, note.name = reference.noteName ∧
      ∃ tree : Tree, result.superscripts[position]? = some tree ∧ tree.kind = .container ∧
        tree.data.element = some
          { tag := "sup"
            attributes :=
              [ ("id", "ref-" ++ note.anchor ++ "-" ++ backlinkLetters
                  ((((resolvable definitions body).take position).map Tree.noteName).count
                    note.name))
              , ("class", "article-ref") ] } ∧
        tree.children =
          [.node
            { kind := .ready
              element := some
                { tag := "a"
                  attributes := [("href", "#bottom-ref-" ++ note.anchor)]
                  content := some ("[" ++ note.name ++ "]") } }
            []]
  /-- The page ends with the section of the notes if there are any. -/
  appended : (∃ main ending, result = main ++ ending ∧ IsSection notes ending) ↔ notes ≠ []
  /-- Nothing else on the page is a list of notes. -/
  listed : ∃ entries : Forest, List.Forall₂ Lists notes entries ∧
    result.withId "bottom-refs" =
      if notes = [] then []
      else
        [.node
          { kind := .container
            element := some { tag := "div", attributes := [("id", "bottom-refs")] } }
          entries]
  /-- The warnings about notes are those about definitions, in source order, and one for
  each undefined name, at its first reference. -/
  warnings : notices.filter (·.remark.isNoteWarning) =
    definitionWarnings (names body) [] definitions ++
      ((names body).filter fun name => !definitions.any (·.subname == name)).map fun name =>
        ⟨.noteUndefined name,
          (body.references.find? (·.noteName == name)).map (·.data.offset)⟩

variable {definitions : List Directive} {body : Forest}

theorem mem_names {name : String} :
    name ∈ names body ↔ ∃ reference ∈ body.references, reference.noteName = name := by
  rw [names, List.mem_eraseDups, List.mem_map]
  rfl

theorem nodup_eraseDups (list : List String) : list.eraseDups.Nodup := by
  induction hlength : list.length using Nat.strong_induction_on generalizing list with
  | _ length ih =>
      cases list with
      | nil => exact List.nodup_nil
      | cons first rest =>
          rw [List.eraseDups_cons, List.nodup_cons, List.mem_eraseDups]
          have hshorter := List.length_filter_le (fun other => !other == first) rest
          rw [List.length_cons] at hlength
          exact ⟨by simp, ih _ (by omega) _ rfl⟩

/-- A name that is referred to has a selected definition if it has one at all. -/
theorem any_selectDefinitions {name : String} (hname : name ∈ names body) :
    (selectDefinitions (names body) [] definitions).1.any (·.subname == name) =
      definitions.any (·.subname == name) := by
  rw [← List.isSome_find?, ← List.isSome_find?,
    selectDefinitions_find? (names body) [] definitions hname (by simp)]

/-- The names that are referred to and not defined are those without a selected definition. -/
theorem filter_not_selected (definitions : List Directive) (body : Forest) :
    ((names body).filter fun name =>
        !(selectDefinitions (names body) [] definitions).1.any (·.subname == name)) =
      (names body).filter fun name => !definitions.any (·.subname == name) :=
  List.filter_congr fun name hname => by rw [any_selectDefinitions hname]

/-- The definitions that are not selected make no difference to the notes. -/
theorem collect_selectDefinitions (definitions : List Directive) (body : Forest) :
    collect (referenceNames body) (selectDefinitions (names body) [] definitions).1 (names body) =
      collect (referenceNames body) definitions (names body) := by
  unfold collect
  rw [List.filterMap_congr fun name hname => by
    rw [selectDefinitions_find? (names body) [] definitions hname (by simp)]]

/-- What is left of a page without the references to names that are not defined. -/
def withoutUndefined (definitions : List Directive) (body : Forest) : Forest × List Notice :=
  dropUndefined ((names body).filter fun name => !definitions.any (·.subname == name)) body

theorem references_withoutUndefined (definitions : List Directive)
    (hbody : body.Obeys (Sound liftedKinds)) :
    (withoutUndefined definitions body).1.references = resolvable definitions body := by
  rw [withoutUndefined, references_dropUndefined _ hbody (by decide), resolvable]
  refine List.filter_congr fun reference hmem => ?_
  have hname : reference.noteName ∈ names body := mem_names.mpr ⟨reference, hmem, rfl⟩
  rw [Bool.eq_iff_iff]
  simp [hname]

/-- Resolving in two steps: undefined references go, then the others are rewritten. -/
theorem resolve_eq (definitions : List Directive) (body : Forest) :
    resolve definitions body =
      let kept := withoutUndefined definitions body
      let notes := collect (referenceNames body) definitions (names body)
      let warnings := definitionWarnings (names body) [] definitions ++ kept.2
      if notes.isEmpty then (kept.1, warnings)
      else
        ((Tree.forestRewriteNoteRefs notes [] kept.1).1 ++ sectionOf notes,
          warnings ++ [⟨.notesResolved notes.length, none⟩]) := by
  have hwarnings : (selectDefinitions (names body) [] definitions).2 =
      definitionWarnings (names body) [] definitions :=
    selectDefinitions_warnings (names body) (fun _ _ => Iff.rfl) definitions
  unfold resolve
  dsimp only
  rw [show (referenceNames body).eraseDups = names body from rfl, filter_not_selected,
    collect_selectDefinitions, hwarnings]
  rfl

/-- The notes cover the references that can be resolved. -/
theorem covers_resolvable (definitions : List Directive) (body : Forest) :
    Covers (collect (referenceNames body) definitions (names body))
      (resolvable definitions body) := by
  intro reference hmem
  obtain ⟨hreference, hdefined⟩ := List.mem_filter.mp hmem
  have hname : reference.noteName ∈ names body := mem_names.mpr ⟨reference, hreference, rfl⟩
  rw [← List.isSome_find?, Option.isSome_iff_exists] at hdefined
  obtain ⟨definition, hfind⟩ := hdefined
  have hpair : (reference.noteName, definition.argument) ∈
      (names body).filterMap fun name =>
        (definitions.find? (·.subname == name)).map fun definition => (name, definition.argument) :=
    List.mem_filterMap.mpr ⟨reference.noteName, hname, by rw [hfind]; rfl⟩
  rw [← map_collect (referenceNames body)] at hpair
  obtain ⟨note, hnote, heq⟩ := List.mem_map.mp hpair
  exact ⟨note, hnote, congrArg Prod.fst heq⟩

theorem obeys_lacksId_kept (definitions : List Directive)
    (hbody : body.Obeys (Sound liftedKinds)) :
    (withoutUndefined definitions body).1.Obeys (LacksId "bottom-refs") := by
  refine obeys_dropUndefined (stable_lacksId _).wears _ ?_
  refine obeys_iff.mpr fun tree hmem => (obeys_iff.mp hbody tree hmem).mono ?_
  intro data kinds hdata element helement
  rw [hdata.element_eq_none] at helement
  cases helement

theorem obeys_lacksId_rewritten (notes : List Note) (hbody : body.Obeys (Sound liftedKinds)) :
    (Tree.forestRewriteNoteRefs notes [] (withoutUndefined definitions body).1).1.Obeys
      (LacksId "bottom-refs") := by
  refine Rule.Tame.forestObeys_rewriteNoteRefs (fun hdata _ => hdata) ?_ (obeys_lacksId_kept _ hbody)
  intro note index data kinds _ _
  have hid : note.referenceId index ≠ "bottom-refs" := by
    intro heq
    simpa [referenceId] using congrArg String.toList heq
  simp [referenceTree, LacksId, Tree.elementLeaf, Tree.leaf, Element.attribute?, hid]

theorem withId_sectionOf (notes : List Note) :
    (sectionOf notes).withId "bottom-refs" =
      [.container { tag := "div", attributes := [("id", "bottom-refs")] } (notes.map entry)] := by
  have hentries : (Forest.withId "bottom-refs" (notes.map entry)) = [] :=
    withId_eq_nil <| obeys_iff.mpr fun tree hmem => by
      obtain ⟨note, -, rfl⟩ := List.mem_map.mp hmem
      exact obeys_lacksId_entry note
  simp [sectionOf, matching_cons, Tree.hasId, Tree.container, Tree.leaf, Element.attribute?,
    hentries]

/-- The list of a section has the id of lists of notes. -/
theorem IsSection.withId_ne_nil {notes : List Note} {ending : Forest}
    (hsection : IsSection notes ending) : ending.withId "bottom-refs" ≠ [] := by
  cases hsection
  simp [matching_cons, Tree.hasId, Element.attribute?]

/-- A rule against raised parts and references. -/
def Plain : Rule := fun data _ =>
  (∀ element ∈ data.element, element.tag ≠ "sup") ∧ data.kind ≠ .aggregate (.bracket .noteRef)

theorem obeys_plain_sectionOf (notes : List Note) : (sectionOf notes).Obeys Plain := by
  refine obeys_sectionOf notes (by simp [Plain]) (by simp [Plain]) (by simp [Plain])
    fun data kinds hnode => ?_
  cases hnode <;> simp [Plain]

theorem superscripts_sectionOf (notes : List Note) : (sectionOf notes).superscripts = [] := by
  refine List.filter_eq_nil_iff.mpr fun tree hmem => ?_
  have hdata := (Tree.forestObeys_of_mem_subtrees (obeys_plain_sectionOf notes) hmem).data.1
  unfold Tree.isSuperscript
  cases helement : tree.data.element with
  | none => simp
  | some element => simpa using hdata element helement

theorem references_sectionOf (notes : List Note) : (sectionOf notes).references = [] := by
  refine List.filter_eq_nil_iff.mpr fun tree hmem => ?_
  have hdata := (Tree.forestObeys_of_mem_subtrees (obeys_plain_sectionOf notes) hmem).data.2
  simpa [Tree.isNoteRef, Tree.kind] using hdata

theorem superscripts_of_sound {forest : Forest} (hforest : forest.Obeys (Sound liftedKinds)) :
    forest.superscripts = [] := by
  refine List.filter_eq_nil_iff.mpr fun tree hmem => ?_
  have hnone := (Tree.forestObeys_of_mem_subtrees hforest hmem).data.element_eq_none
  simp [Tree.isSuperscript, hnone]

theorem filter_definitionWarnings (names earlier : List String) (definitions : List Directive) :
    (definitionWarnings names earlier definitions).filter (·.remark.isNoteWarning) =
      definitionWarnings names earlier definitions := by
  refine List.filter_eq_self.mpr ?_
  induction definitions generalizing earlier with
  | nil => simp [definitionWarnings]
  | cons definition rest ih =>
      refine List.forall_mem_append.mpr ⟨fun notice hmem => ?_, ih _⟩
      rw [Option.mem_toList] at hmem
      unfold definitionWarning? at hmem
      split at hmem
      next =>
        cases hmem
        rfl
      next =>
        split at hmem
        next =>
          cases hmem
          rfl
        next => cases hmem

theorem warnings_withoutUndefined (hbody : body.Obeys (Sound liftedKinds)) :
    (definitionWarnings (names body) [] definitions ++
        (withoutUndefined definitions body).2).filter (·.remark.isNoteWarning) =
      definitionWarnings (names body) [] definitions ++
        ((names body).filter fun name => !definitions.any (·.subname == name)).map fun name =>
          ⟨.noteUndefined name,
            (body.references.find? (·.noteName == name)).map (·.data.offset)⟩ := by
  have hnodup : ((names body).filter fun name => !definitions.any (·.subname == name)).Nodup :=
    (nodup_eraseDups _).filter _
  rw [List.filter_append, filter_definitionWarnings]
  exact congrArg _ (warnings_dropUndefined hnodup hbody (by decide))

/-- Without notes nothing is rewritten and nothing is appended. -/
theorem resolution_of_nil (hbody : body.Obeys (Sound liftedKinds))
    (hnotes : collect (referenceNames body) definitions (names body) = []) :
    Resolution definitions body (withoutUndefined definitions body).1
      (definitionWarnings (names body) [] definitions ++ (withoutUndefined definitions body).2)
      [] := by
  have hkept : (withoutUndefined definitions body).1.Obeys (Sound liftedKinds) :=
    obeys_dropUndefined (Rule.Stable.sound (by decide)).wears _ hbody
  have hcovers := covers_resolvable definitions body
  have hpaired := map_collect (referenceNames body) definitions (names body)
  rw [hnotes] at hcovers hpaired
  have hnone : resolvable definitions body = [] := by
    refine List.eq_nil_iff_forall_not_mem.mpr fun reference hmem => ?_
    obtain ⟨note, hnote, -⟩ := hcovers reference hmem
    cases hnote
  have hlisted := withId_eq_nil (obeys_lacksId_kept definitions hbody)
  refine ⟨hpaired, nofun, (references_withoutUndefined _ hbody).trans hnone, ?_, ?_, ?_,
    ⟨[], .nil, hlisted⟩, warnings_withoutUndefined hbody⟩
  · exact hnone ▸ congrArg List.length (superscripts_of_sound hkept)
  · rw [hnone]
    exact nofun
  · refine ⟨fun ⟨main, ending, hmain, hsection⟩ => ?_, fun hne => absurd rfl hne⟩
    rw [hmain, withId, matching_append] at hlisted
    exact absurd (List.append_eq_nil_iff.mp hlisted).2 hsection.withId_ne_nil

/-- With notes every reference left is rewritten and the section is appended. -/
theorem resolution_of_ne_nil (hbody : body.Obeys (Sound liftedKinds)) {notes : List Note}
    (hnotes : collect (referenceNames body) definitions (names body) = notes)
    (hne : notes ≠ []) :
    Resolution definitions body
      ((Tree.forestRewriteNoteRefs notes [] (withoutUndefined definitions body).1).1 ++
        sectionOf notes)
      (definitionWarnings (names body) [] definitions ++ (withoutUndefined definitions body).2 ++
        [⟨.notesResolved notes.length, none⟩])
      notes := by
  have hkept : (withoutUndefined definitions body).1.Obeys (Sound liftedKinds) :=
    obeys_dropUndefined (Rule.Stable.sound (by decide)).wears _ hbody
  have hreferences := references_withoutUndefined definitions hbody
  have hcovers := covers_resolvable definitions body
  have hpaired := map_collect (referenceNames body) definitions (names body)
  rw [hnotes] at hcovers hpaired
  have hcounted : ∀ note ∈ notes, note.references = (referenceNames body).count note.name :=
    fun note hmem => references_of_mem_collect (hnotes ▸ hmem)
  obtain ⟨hcleared, hraised, -⟩ :=
    Tree.forestRewriteNoteRefs_spec hkept (hreferences.symm ▸ hcovers) []
  rw [hreferences] at hraised
  have hsuperscripts : ((Tree.forestRewriteNoteRefs notes []
      (withoutUndefined definitions body).1).1 ++ sectionOf notes).superscripts =
      rewritten notes [] (resolvable definitions body) := by
    rw [superscripts, matching_append]
    exact (congrArg₂ (· ++ ·) hraised (superscripts_sectionOf notes)).trans (List.append_nil _)
  refine ⟨hpaired, hcounted, ?_, ?_, fun position reference hget => ?_, ?_,
    ⟨_, lists_entries notes, ?_⟩, ?_⟩
  · exact (matching_append _ _).trans
      (List.append_eq_nil_iff.mpr ⟨hcleared, references_sectionOf notes⟩)
  · rw [hsuperscripts, length_rewritten [] hcovers]
  · obtain ⟨note, hnote, hname, htree⟩ := rewritten_getElem? [] hcovers hget
    refine ⟨note, hnote, hname, _, hsuperscripts ▸ htree, rfl, ?_, rfl⟩
    simp [referenceTree, referenceId]
  · exact ⟨fun _ => hne, fun _ => ⟨_, _, rfl, isSection_sectionOf notes⟩⟩
  · rw [if_neg hne]
    refine (matching_append _ _).trans ?_
    refine (congrArg₂ (· ++ ·) (withId_eq_nil (obeys_lacksId_rewritten notes hbody))
      (withId_sectionOf notes)).trans (List.nil_append _)
  · rw [List.filter_append, warnings_withoutUndefined hbody]
    exact List.append_nil _

/-- Resolving notes does what it should to a page without elements. -/
theorem resolution_resolve (definitions : List Directive)
    (hbody : body.Obeys (Sound liftedKinds)) :
    Resolution definitions body (resolve definitions body).1 (resolve definitions body).2
      (collect (referenceNames body) definitions (names body)) := by
  rw [resolve_eq]
  dsimp only
  split
  next hnil =>
    rw [List.isEmpty_iff] at hnil
    rw [hnil]
    exact resolution_of_nil hbody hnil
  next hne =>
    rw [List.isEmpty_iff] at hne
    exact resolution_of_ne_nil hbody rfl hne

end Note

end PageMarkup
