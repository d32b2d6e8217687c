import PageMarkup.Proofs.Note.Resolution
import PageMarkup.Proofs.Slug.Clash
import PageMarkup.Proofs.Tree.Census

/-! # Ids of notes

Resolving the notes of a page gives ids to the references, to the entries and to the list
of entries, and to nothing else. They are told apart by their beginnings, by the anchors
of the notes and by the letters of the references, so they are different just if the
anchors are.
-/

namespace PageMarkup

open Node Forest

/-- The id of a node, if it has one. -/
def Node.id? (data : Node) : Option String := data.element.bind (·.attribute? "id")

/-- The id of the root of a tree, as a list. -/
def Tree.ownId (tree : Tree) : List String := tree.data.id?.toList

namespace Forest

mutual

theorem map_data_subtrees (tree : Tree) : tree.subtrees.map Tree.data = tree.preorder := by
  obtain ⟨data, children⟩ := tree
  rw [Tree.subtrees_node, Tree.preorder, List.map_cons, map_data_forestSubtrees children]
  rfl

theorem map_data_forestSubtrees (forest : Forest) :
    forest.subtrees.map Tree.data = Tree.forestPreorder forest := by
  cases forest with
  | nil => rw [subtrees_nil, Tree.forestPreorder]; rfl
  | cons tree rest =>
      rw [subtrees_cons, Tree.forestPreorder, List.map_append, map_data_subtrees tree,
        map_data_forestSubtrees rest]

end

theorem ids_eq_census (forest : Forest) : forest.ids = forest.census Tree.ownId := by
  rw [ids, preorder, ← map_data_forestSubtrees, List.filterMap_map, census,
    List.filterMap_eq_flatMap_toList]
  rfl

/-- A census is that of the subtrees that give anything. -/
theorem census_eq_flatMap_matching {α : Type} {f : Tree → List α} {p : Tree → Bool}
    {forest : Forest} (hp : ∀ tree ∈ forest.subtrees, p tree = false → f tree = []) :
    forest.census f = (forest.matching p).flatMap f := by
  rw [census, matching]
  generalize forest.subtrees = trees at hp
  induction trees with
  | nil => rfl
  | cons tree rest ih =>
      obtain ⟨htree, hrest⟩ := List.forall_mem_cons.mp hp
      rw [List.flatMap_cons, ih hrest, List.filter_cons]
      cases hholds : p tree with
      | true => rfl
      | false => rw [htree hholds]; rfl

end Forest

/-! ## Letters -/

theorem toNat_letterAt (position : Nat) : (letterAt position).toNat = 97 + position % 26 := by
  have hsmall : position % 26 < 26 := Nat.mod_lt _ (by omega)
  have hvalid : ('a'.toNat + position % 26).isValidChar := by
    left
    change 97 + position % 26 < 55296
    omega
  rw [letterAt, Char.ofNat, dif_pos hvalid]
  rfl

theorem letterAt_inj {position other : Nat} (heq : letterAt position = letterAt other) :
    position % 26 = other % 26 := by
  have hnat := congrArg Char.toNat heq
  rw [toNat_letterAt, toNat_letterAt] at hnat
  omega

theorem backwardLetters_of_lt {index : Nat} (hindex : index < 26) :
    backwardLetters index = [letterAt index] := by
  rw [backwardLetters, if_pos hindex]

theorem backwardLetters_of_le {index : Nat} (hindex : 26 ≤ index) :
    backwardLetters index = letterAt index :: backwardLetters (index / 26 - 1) := by
  rw [backwardLetters, if_neg (by omega)]

theorem backwardLetters_ne_nil (index : Nat) : backwardLetters index ≠ [] := by
  unfold backwardLetters
  split <;> simp

/-- References of one note have different letters. -/
theorem backwardLetters_inj {index other : Nat}
    (heq : backwardLetters index = backwardLetters other) : index = other := by
  induction index using Nat.strong_induction_on generalizing other with
  | _ index ih =>
      rcases Nat.lt_or_ge index 26 with hindex | hindex
      · rcases Nat.lt_or_ge other 26 with hother | hother
        · rw [backwardLetters_of_lt hindex, backwardLetters_of_lt hother] at heq
          have hletter := letterAt_inj (List.cons.inj heq).1
          omega
        · rw [backwardLetters_of_lt hindex, backwardLetters_of_le hother] at heq
          exact absurd (List.cons.inj heq).2.symm (backwardLetters_ne_nil _)
      · rcases Nat.lt_or_ge other 26 with hother | hother
        · rw [backwardLetters_of_le hindex, backwardLetters_of_lt hother] at heq
          exact absurd (List.cons.inj heq).2 (backwardLetters_ne_nil _)
        · rw [backwardLetters_of_le hindex, backwardLetters_of_le hother] at heq
          obtain ⟨hletter, hrest⟩ := List.cons.inj heq
          have hletter := letterAt_inj hletter
          have hrest := ih (index / 26 - 1) (by omega) hrest
          omega

theorem hyphen_notMem_backwardLetters (index : Nat) : '-' ∉ backwardLetters index := by
  have hletter : ∀ position, '-' ≠ letterAt position := by
    intro position heq
    have hnat := congrArg Char.toNat heq
    rw [toNat_letterAt] at hnat
    have : '-'.toNat = 45 := rfl
    omega
  induction index using Nat.strong_induction_on with
  | _ index ih =>
      rcases Nat.lt_or_ge index 26 with hindex | hindex
      · rw [backwardLetters_of_lt hindex]
        simpa using hletter index
      · rw [backwardLetters_of_le hindex, List.mem_cons, not_or]
        exact ⟨hletter index, ih _ (by omega)⟩

namespace Note

/-! ## Ids that are different -/

/-- The ids that resolving notes gives to a page. -/
def ids (notes : List Note) : List String :=
  (notes.flatMap fun note => (List.range note.references).map note.referenceId) ++
    if notes = [] then [] else "bottom-refs" :: notes.map entryId

theorem toList_referenceId (note : Note) (index : Nat) :
    (note.referenceId index).toList =
      ("ref-".toList ++ note.anchor.toList) ++ '-' :: (backwardLetters index).reverse := by
  simp [referenceId, backlinkLetters]

theorem referenceId_inj {note other : Note} {index count : Nat}
    (heq : note.referenceId index = other.referenceId count) :
    note.anchor = other.anchor ∧ index = count := by
  have hlists := congrArg String.toList heq
  rw [toList_referenceId, toList_referenceId] at hlists
  obtain ⟨hanchor, hletters⟩ := Text.append_cons_inj_of_last
    (by simpa using hyphen_notMem_backwardLetters index)
    (by simpa using hyphen_notMem_backwardLetters count) hlists
  exact ⟨String.toList_inj.mp (List.append_cancel_left hanchor),
    backwardLetters_inj (List.reverse_inj.mp hletters)⟩

theorem entryId_inj {note other : Note} (heq : note.entryId = other.entryId) :
    note.anchor = other.anchor := by
  have hlists := congrArg String.toList heq
  simp only [entryId, String.toList_append] at hlists
  exact String.toList_inj.mp (List.append_cancel_left hlists)

theorem referenceId_ne_bottom (note : Note) (index : Nat) {id : String}
    (hid : id = "bottom-refs" ∨ ∃ other : Note, id = other.entryId) :
    note.referenceId index ≠ id := by
  intro heq
  have hhead := congrArg (fun id : String => id.toList.head?) heq
  rcases hid with rfl | ⟨other, rfl⟩
  · simp [referenceId] at hhead
  · simp [referenceId, entryId] at hhead

theorem entryId_ne_list (note : Note) : note.entryId ≠ "bottom-refs" := by
  intro heq
  have htenth := congrArg (fun id : String => id.toList[10]?) heq
  simp [entryId] at htenth

/-- The ids of notes are different just if their anchors are. -/
theorem nodup_ids_iff (notes : List Note) :
    (ids notes).Nodup ↔ (notes.map (·.anchor)).Nodup := by
  constructor
  · intro hnodup
    by_cases hnil : notes = []
    · rw [hnil]
      exact List.nodup_nil
    · rw [ids, if_neg hnil] at hnodup
      have hentries := (List.nodup_cons.mp (List.nodup_append'.mp hnodup).2.1).2
      have hmap : notes.map entryId =
          (notes.map (·.anchor)).map fun anchor => "bottom-ref-" ++ anchor := by
        rw [List.map_map]
        rfl
      rw [hmap] at hentries
      exact hentries.of_map
  · intro hanchors
    have hsame : ∀ note ∈ notes, ∀ other ∈ notes, note.anchor = other.anchor → note = other :=
      fun note hnote other hother heq => List.inj_on_of_nodup_map hanchors hnote hother heq
    have hnotes : notes.Nodup := hanchors.of_map
    refine List.nodup_append'.mpr ⟨?_, ?_, ?_⟩
    · refine List.nodup_flatMap.mpr ⟨fun note _ => ?_, ?_⟩
      · exact List.nodup_range.map fun _ _ heq => (referenceId_inj heq).2
      · refine hnotes.imp_of_mem fun hnote hother hne id hmem hmem' => ?_
        obtain ⟨index, -, rfl⟩ := List.mem_map.mp hmem
        obtain ⟨count, -, heq⟩ := List.mem_map.mp hmem'
        exact hne (hsame _ hnote _ hother (referenceId_inj heq).1.symm)
    · split
      next => exact List.nodup_nil
      next =>
        refine List.nodup_cons.mpr ⟨fun hmem => ?_, hnotes.map_on fun note hnote other hother heq =>
          hsame note hnote other hother (entryId_inj heq)⟩
        obtain ⟨note, -, heq⟩ := List.mem_map.mp hmem
        exact entryId_ne_list note heq
    · intro id hmem hmem'
      obtain ⟨note, -, hmem⟩ := List.mem_flatMap.mp hmem
      obtain ⟨index, -, rfl⟩ := List.mem_map.mp hmem
      split at hmem'
      next => cases hmem'
      next =>
        refine referenceId_ne_bottom note index ?_ rfl
        rcases List.mem_cons.mp hmem' with heq | hmem'
        · exact .inl heq
        · obtain ⟨other, -, heq⟩ := List.mem_map.mp hmem'
          exact .inr ⟨other, heq.symm⟩

/-- No id of a note is that of the title. -/
theorem title_notMem_ids (notes : List Note) : "article-title" ∉ ids notes := by
  intro hmem
  rcases List.mem_append.mp hmem with hmem | hmem
  · obtain ⟨note, -, hmem⟩ := List.mem_flatMap.mp hmem
    obtain ⟨index, -, heq⟩ := List.mem_map.mp hmem
    have hhead := congrArg (fun id : String => id.toList.head?) heq
    simp [referenceId] at hhead
  · split at hmem
    next => cases hmem
    next =>
      rcases List.mem_cons.mp hmem with heq | hmem
      · revert heq
        decide
      · obtain ⟨note, -, heq⟩ := List.mem_map.mp hmem
        have hhead := congrArg (fun id : String => id.toList.head?) heq
        simp [entryId] at hhead

/-! ## Ids of a page -/

theorem ids_of_sound {body : Forest} (hbody : body.Obeys (Sound liftedKinds)) : body.ids = [] := by
  rw [ids_eq_census]
  refine census_eq_nil fun tree hmem => ?_
  have hnone := (Tree.forestObeys_of_mem_subtrees hbody hmem).data.element_eq_none
  rw [Tree.ownId, Node.id?, hnone]
  rfl

/-- Only raised parts have ids. -/
def RaisesIds : Rule := fun data _ =>
  data.id?.isSome = true → data.element.any (·.tag == "sup") = true

theorem raisesIds_referenceTree (note : Note) (index : Nat) (data : Node) :
    (note.referenceTree index data).Obeys RaisesIds := by
  simp [referenceTree, RaisesIds, Tree.elementLeaf, Tree.leaf, Node.id?, Element.attribute?]

/-- The ids of a page whose references are rewritten are those of what they become. -/
theorem ids_forestRewriteNoteRefs {notes : List Note} {body : Forest}
    (hbody : body.Obeys (Sound liftedKinds)) (hcovers : Covers notes body.references) :
    (Tree.forestRewriteNoteRefs notes [] body).1.ids =
      (rewritten notes [] body.references).flatMap Tree.ownId := by
  have hbare : body.Obeys RaisesIds := by
    refine Tree.forestObeys_mono (fun data kinds hdata hid => ?_) hbody
    rw [Node.id?, hdata.element_eq_none] at hid
    cases hid
  have hraised : Forest.Obeys RaisesIds (Tree.forestRewriteNoteRefs notes [] body).1 :=
    Rule.Tame.forestObeys_rewriteNoteRefs (fun hdata _ => hdata)
      (fun note index data _ _ _ => raisesIds_referenceTree note index data) hbare
  rw [ids_eq_census, ← (Tree.forestRewriteNoteRefs_spec hbody hcovers []).2.1]
  refine census_eq_flatMap_matching fun tree hmem hplain => ?_
  have hdata := (Tree.forestObeys_of_mem_subtrees hraised hmem).data
  rw [Tree.ownId, Option.toList_eq_nil_iff]
  by_contra hsome
  have hsup := hdata (Option.isSome_iff_ne_none.mpr hsome)
  rw [show tree.data.element.any (·.tag == "sup") = false from hplain] at hsup
  cases hsup

/-- References are numbered note by note, whatever their order on the page. -/
theorem perm_rewritten {notes : List Note} (hnames : (notes.map (·.name)).Nodup)
    (seen : List String) {references : List Tree} (hcovers : Covers notes references) :
    ((rewritten notes seen references).flatMap Tree.ownId).Perm
      (notes.flatMap fun note =>
        (List.range' (seen.count note.name)
          ((references.map Tree.noteName).count note.name)).map note.referenceId) := by
  induction references generalizing seen with
  | nil => simp [rewritten]
  | cons reference rest ih =>
      obtain ⟨note, hmem, hfind, hname⟩ := find?_of_covers hcovers
      have hrest : Covers notes rest := fun other hother =>
        hcovers other (List.mem_cons_of_mem _ hother)
      have hown : (note.referenceTree (seen.count note.name) reference.data).ownId =
          [note.referenceId (seen.count note.name)] := by
        simp [referenceTree, Tree.ownId, Node.id?, Element.attribute?]
      rw [rewritten, hfind]
      dsimp only
      rw [List.flatMap_cons, hown, List.singleton_append]
      refine ((ih (note.name :: seen) hrest).cons _).trans ?_
      -- Only the numbers of this note go on.
      obtain ⟨before, after, rfl⟩ := List.append_of_mem hmem
      simp only [List.map_append, List.map_cons] at hnames
      have hothers : ∀ other ∈ before ++ after, other.name ≠ note.name := by
        intro other hother heq
        have hfresh := (List.nodup_middle.mp hnames)
        rw [List.nodup_cons, ← List.map_append] at hfresh
        exact hfresh.1 (heq ▸ List.mem_map_of_mem hother)
      have hsame : ∀ other ∈ before ++ after,
          (List.range' ((note.name :: seen).count other.name)
            ((rest.map Tree.noteName).count other.name)).map other.referenceId =
          (List.range' (seen.count other.name)
            (((reference :: rest).map Tree.noteName).count other.name)).map other.referenceId := by
        intro other hother
        have hne := hothers other hother
        rw [List.map_cons, List.count_cons_of_ne (Ne.symm hne), ← hname,
          List.count_cons_of_ne (Ne.symm hne)]
      have hbefore := fun other hother => hsame other (List.mem_append_left after hother)
      have hafter := fun other hother => hsame other (List.mem_append_right before hother)
      rw [List.flatMap_append, List.flatMap_append, List.flatMap_cons, List.flatMap_cons,
        List.flatMap_congr hbefore, List.flatMap_congr hafter, List.map_cons, ← hname,
        List.count_cons_self, List.count_cons_self, List.range'_succ, List.map_cons]
      simp only [List.cons_append]
      exact List.perm_middle.symm

theorem ids_sectionOf (notes : List Note) :
    (sectionOf notes).ids = "bottom-refs" :: notes.map entryId := by
  have hbacklinks : ∀ note : Note, census Tree.ownId note.backlinks = [] := by
    intro note
    unfold backlinks
    induction List.range note.references with
    | nil => simp
    | cons index rest ih =>
        rw [List.flatMap_cons, census_append, ih]
        simp [census_cons, Tree.elementLeaf, Tree.textLeaf, Tree.leaf, Tree.ownId, Node.id?,
          Element.attribute?]
  have hentries : census Tree.ownId (notes.map entry) = notes.map entryId := by
    induction notes with
    | nil => simp
    | cons note rest ih =>
        rw [List.map_cons, census_singleton_append, ih]
        simp [entry, census_cons, Tree.container, Tree.elementLeaf, Tree.textLeaf, Tree.leaf,
          Tree.ownId, Node.id?, Element.attribute?, hbacklinks]
  rw [ids_eq_census, sectionOf]
  simp [census_cons, Tree.container, Tree.leaf, Tree.ownId, Node.id?, Element.attribute?, hentries]

variable {definitions : List Directive} {body : Forest}

/-- The name of a note has a definition. -/
theorem any_of_mem_collect {references names : List String} {note : Note}
    (hmem : note ∈ collect references definitions names) :
    definitions.any (·.subname == note.name) = true := by
  have hpair := List.mem_map_of_mem (f := fun note : Note => (note.name, note.definition)) hmem
  rw [map_collect, List.mem_filterMap] at hpair
  obtain ⟨defined, -, hdefined⟩ := hpair
  obtain ⟨definition, hfind, heq⟩ := Option.map_eq_some_iff.mp hdefined
  obtain ⟨rfl, -⟩ := Prod.mk.inj heq
  rw [← List.isSome_find?, hfind]
  rfl

/-- A note has as many references as there are left to it. -/
theorem count_resolvable {note : Note}
    (hmem : note ∈ collect (referenceNames body) definitions (names body)) :
    ((resolvable definitions body).map Tree.noteName).count note.name = note.references := by
  have hany := any_of_mem_collect hmem
  rw [references_of_mem_collect hmem, referenceNames_eq, resolvable]
  induction body.references with
  | nil => rfl
  | cons reference rest ih =>
      by_cases hname : reference.noteName = note.name
      · have hkept : definitions.any (·.subname == reference.noteName) = true := hname ▸ hany
        rw [List.filter_cons, if_pos hkept, List.map_cons, List.map_cons, hname,
          List.count_cons_self, List.count_cons_self, ih]
      · rw [List.map_cons, List.count_cons_of_ne hname, ← ih, List.filter_cons]
        split
        next => rw [List.map_cons, List.count_cons_of_ne hname]
        next => rfl

theorem nodup_map_name :
    ((collect (referenceNames body) definitions (names body)).map (·.name)).Nodup := by
  have hpairs := map_collect (referenceNames body) definitions (names body)
  have hnames : (collect (referenceNames body) definitions (names body)).map (·.name) =
      (names body).filter fun name => (definitions.find? (·.subname == name)).isSome := by
    have hfirst := congrArg (List.map Prod.fst) hpairs
    rw [List.map_map, List.map_filterMap] at hfirst
    refine Eq.trans hfirst ?_
    rw [← List.filterMap_eq_filter]
    refine List.filterMap_congr fun name _ => ?_
    cases hfind : definitions.find? (·.subname == name) <;> simp [Option.guard, hfind]
  rw [hnames]
  exact (nodup_eraseDups _).filter _

/-- Resolving the notes of a page gives it their ids and no others. -/
theorem ids_resolve (definitions : List Directive) (hbody : body.Obeys (Sound liftedKinds)) :
    (resolve definitions body).1.ids.Perm
      (ids (collect (referenceNames body) definitions (names body))) := by
  have hkept : (withoutUndefined definitions body).1.Obeys (Sound liftedKinds) :=
    obeys_dropUndefined (Rule.Stable.sound (by decide)).wears _ hbody
  have hreferences := references_withoutUndefined definitions hbody
  have hcovers := covers_resolvable definitions body
  have hnames : ((collect (referenceNames body) definitions (names body)).map (·.name)).Nodup :=
    nodup_map_name
  have hcounted : ∀ note ∈ collect (referenceNames body) definitions (names body),
      ((resolvable definitions body).map Tree.noteName).count note.name = note.references :=
    fun note hmem => count_resolvable hmem
  rw [resolve_eq]
  generalize collect (referenceNames body) definitions (names body) = notes at *
  dsimp only
  split
  next hnil =>
    rw [List.isEmpty_iff] at hnil
    rw [ids_of_sound hkept, hnil]
    exact List.Perm.refl _
  next hne =>
    rw [List.isEmpty_iff] at hne
    have hperm := perm_rewritten hnames [] hcovers
    have hnumbers : (notes.flatMap fun note => (List.range' (([] : List String).count note.name)
          (((resolvable definitions body).map Tree.noteName).count note.name)).map
            note.referenceId) =
        notes.flatMap fun note => (List.range note.references).map note.referenceId := by
      refine List.flatMap_congr fun note hmem => ?_
      rw [hcounted note hmem, List.count_nil, List.range_eq_range']
    rw [hnumbers] at hperm
    rw [ids_eq_census, census_append, ← ids_eq_census, ← ids_eq_census, ids_sectionOf,
      ids_forestRewriteNoteRefs hkept (hreferences.symm ▸ hcovers), hreferences, ids, if_neg hne]
    exact hperm.append_right _

/-- The anchors of the notes are drawn from their names. -/
theorem map_anchor_collect (references : List String) (definitions : List Directive)
    (names : List String) :
    (collect references definitions names).map (·.anchor) =
      anchors {} ((collect references definitions names).map (·.name)) := by
  unfold collect
  generalize names.filterMap _ = defined
  have hsnd : (defined.zip (anchors {} (defined.map (·.1)))).map Prod.snd =
      anchors {} (defined.map (·.1)) := by
    refine List.map_snd_zip (Nat.le_of_eq ?_)
    rw [length_anchors, List.length_map]
  have hnames : ((defined.zip (anchors {} (defined.map (·.1)))).map fun pair => pair.1.1) =
      defined.map (·.1) := by
    conv_rhs => rw [← map_fst_zip_anchors defined]
    simp [List.map_map, Function.comp_def]
  rw [List.map_map, List.map_map]
  exact hsnd.trans (congrArg (anchors {}) hnames.symm)

/-- The ids of the notes of a page are different unless their names clash. -/
theorem nodup_ids_collect_iff (references : List String) (definitions : List Directive)
    (names : List String) :
    (ids (collect references definitions names)).Nodup ↔
      ¬Slugger.Clash ((collect references definitions names).map fun note =>
        baseSlug note.name) := by
  rw [nodup_ids_iff, map_anchor_collect]
  have hiff := Slugger.nodup_anchors_iff List.nodup_nil
    ((collect references definitions names).map (·.name))
  simpa only [List.nil_append, List.map_map, Function.comp_def] using hiff

end Note

end PageMarkup
