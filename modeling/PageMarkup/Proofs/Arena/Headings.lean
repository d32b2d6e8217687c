import PageMarkup.Proofs.Arena.Marking
import PageMarkup.Proofs.Page.Hollows

/-! # Blank headings in an arena

Headings are trimmed in document order, and one that has nothing left goes before the next
is trimmed. That leads where trimming all of them first leads: what the visits are compared
with is the forest with the headings trimmed that are still to come, and those that have
been passed are not blank.
-/

namespace PageMarkup

open NumberedForest

/-- Whether the tree is a heading without content. -/
def Tree.isBlankHeading (tree : Tree) : Bool := tree.isHeading && tree.isLeaf

namespace NumberedForest

/-- Whether a node is a heading with one of the numbers. -/
def due (ids : List Nat) (id : Nat) (data : Node) : Bool :=
  data.kind.headingLevel?.isSome && ids.contains id

/-- The forest with the headings of some numbers trimmed. -/
def trimHeadings (ids : List Nat) : NumberedForest → NumberedForest
  | [] => []
  | .node id data children :: rest =>
    .node id data
        (if due ids id data then (trimHeadings ids children).trimEdges
          else trimHeadings ids children) ::
      trimHeadings ids rest

/-- The number of a heading, if it is one of some numbers. -/
def dueMark (ids : List Nat) (tree : NumberedTree) : List Nat :=
  if due ids tree.id tree.data then [tree.id] else []

/-- Those of some numbers that headings have, in document order. -/
def waiting (ids : List Nat) (forest : NumberedForest) : List Nat := forest.census (dueMark ids)

/-- The number of a heading without content. -/
def blankMark (tree : NumberedTree) : List Nat :=
  if tree.erase.isBlankHeading then [tree.id] else []

/-- The numbers of the headings without content. -/
def blank (forest : NumberedForest) : List Nat := forest.census blankMark

variable {ids others : List Nat}

@[simp]
theorem trimHeadings_nil : trimHeadings ids [] = [] := by rw [trimHeadings]

theorem trimHeadings_cons (id : Nat) (data : Node) (children rest : NumberedForest) :
    trimHeadings ids (.node id data children :: rest) =
      .node id data
          (if due ids id data then (trimHeadings ids children).trimEdges
            else trimHeadings ids children) ::
        trimHeadings ids rest := by rw [trimHeadings]

@[simp]
theorem trimHeadings_append (first second : NumberedForest) :
    trimHeadings ids (first ++ second) = trimHeadings ids first ++ trimHeadings ids second := by
  induction first with
  | nil => simp
  | cons tree rest ih =>
      obtain ⟨id, data, children⟩ := tree
      rw [List.cons_append, trimHeadings_cons, trimHeadings_cons, ih, List.cons_append]

theorem trimHeadings_reverse (forest : NumberedForest) :
    trimHeadings ids forest.reverse = (trimHeadings ids forest).reverse := by
  induction forest with
  | nil => simp
  | cons tree rest ih =>
      obtain ⟨id, data, children⟩ := tree
      rw [List.reverse_cons, trimHeadings_append, ih, trimHeadings_cons, trimHeadings_cons,
        trimHeadings_nil, List.reverse_cons]

@[simp]
theorem trimHeadings_eq_nil {forest : NumberedForest} :
    trimHeadings ids forest = [] ↔ forest = [] := by
  cases forest with
  | nil => simp
  | cons tree rest =>
      obtain ⟨id, data, children⟩ := tree
      simp [trimHeadings_cons]

theorem trimHeadings_congr {forest : NumberedForest}
    (hsame : ∀ id ∈ forest.ids, (id ∈ ids ↔ id ∈ others)) :
    trimHeadings ids forest = trimHeadings others forest := by
  induction forest using NumberedForest.induction with
  | nil => simp
  | cons id data children rest ihchildren ihrest =>
      simp only [ids_cons, List.mem_cons, List.mem_append] at hsame
      have hdue : due ids id data = due others id data := by
        have hid := hsame id (.inl rfl)
        simp [due, hid]
      rw [trimHeadings_cons, trimHeadings_cons, hdue,
        ihchildren fun other hmem => hsame other (.inr (.inl hmem)),
        ihrest fun other hmem => hsame other (.inr (.inr hmem))]

theorem due_of_dueMark {tree : NumberedTree} (hnone : dueMark ids tree = []) :
    due ids tree.id tree.data = false := by
  by_contra hdue
  rw [Bool.not_eq_false] at hdue
  rw [dueMark, if_pos hdue] at hnone
  cases hnone

/-- Without any heading to trim nothing changes. -/
theorem trimHeadings_of_waiting {forest : NumberedForest} (hnone : forest.waiting ids = []) :
    trimHeadings ids forest = forest := by
  induction forest using NumberedForest.induction with
  | nil => simp
  | cons id data children rest ihchildren ihrest =>
      rw [waiting, census_cons, List.append_eq_nil_iff, List.append_eq_nil_iff] at hnone
      obtain ⟨hself, hchildren, hrest⟩ := hnone
      have hdue : due ids id data = false := due_of_dueMark hself
      rw [trimHeadings_cons, hdue, ihchildren hchildren, ihrest hrest]
      rfl

/-- With the numbers of all nodes all headings are trimmed. -/
theorem erase_trimHeadings {forest : NumberedForest} (hall : forest.ids ⊆ ids) :
    (trimHeadings ids forest).erase = Tree.forestTrimHeadings forest.erase := by
  induction forest using NumberedForest.induction with
  | nil => simp [Tree.forestTrimHeadings]
  | cons id data children rest ihchildren ihrest =>
      rw [ids_cons, List.cons_subset, List.append_subset] at hall
      have hdue : due ids id data = data.kind.headingLevel?.isSome := by
        rw [due, List.contains_iff_mem.mpr hall.1, Bool.and_true]
      rw [trimHeadings_cons, erase_cons, ihrest hall.2.2, erase_cons, Tree.forestTrimHeadings,
        Tree.trimHeadings, ← ihchildren hall.2.1, hdue]
      split
      next => rw [erase_trimEdges]
      next => rfl

/-! ## Trimming at the edges -/

theorem isTextLeaf_erase (id : Nat) (data : Node) (children : NumberedForest) :
    (NumberedTree.node id data children).erase.isTextLeaf =
      (children.isEmpty &&
        (data.element.isNone && (data.kind == .text || data.kind == .ready))) := by
  cases children with
  | nil => simp [NumberedTree.erase, Tree.isTextLeaf]
  | cons child rest => simp [NumberedTree.erase, Tree.isTextLeaf, erase_cons_eq]

theorem due_eq_false_of_text {id : Nat} {data : Node}
    (hkind : (data.kind == .text || data.kind == .ready) = true) : due ids id data = false := by
  rw [Bool.or_eq_true, beq_iff_eq, beq_iff_eq] at hkind
  rcases hkind with hkind | hkind <;> rw [due, hkind] <;> rfl

/-- Trimming headings makes no text leaf and leaves every one that is there. -/
theorem isTextLeaf_trimHeadings (id : Nat) (data : Node) (children : NumberedForest) :
    (NumberedTree.node id data
        (if due ids id data then (trimHeadings ids children).trimEdges
          else trimHeadings ids children)).erase.isTextLeaf =
      (NumberedTree.node id data children).erase.isTextLeaf := by
  rw [isTextLeaf_erase, isTextLeaf_erase]
  cases hkind : (data.kind == .text || data.kind == .ready) with
  | false => simp
  | true =>
      rw [due_eq_false_of_text hkind, if_neg Bool.false_ne_true, Bool.eq_iff_iff]
      simp

theorem trimHeadings_trimFront (trimText : String → String) (forest : NumberedForest) :
    trimHeadings ids (trimFront trimText forest) = trimFront trimText (trimHeadings ids forest) := by
  induction forest with
  | nil => simp [trimFront]
  | cons tree rest ih =>
      obtain ⟨id, data, children⟩ := tree
      rw [trimHeadings_cons, trimFront, trimFront, isTextLeaf_trimHeadings]
      split
      next hleaf =>
        rw [isTextLeaf_erase, Bool.and_eq_true, Bool.and_eq_true, List.isEmpty_iff] at hleaf
        obtain ⟨rfl, -, hkind⟩ := hleaf
        rw [NumberedTree.data_node, NumberedTree.data_node]
        by_cases hblank : Text.isBlankText data.text = true
        · rw [if_pos hblank, if_pos hblank, ih]
        · have hdue : ∀ text, due ids id { data with text } = false := fun _ =>
            due_eq_false_of_text hkind
          rw [if_neg hblank, if_neg hblank, trimHeadings_cons]
          simp [hdue]
      next => exact trimHeadings_cons ..

theorem trimHeadings_trimEdges (forest : NumberedForest) :
    trimHeadings ids forest.trimEdges = (trimHeadings ids forest).trimEdges := by
  rw [trimEdges, trimHeadings_reverse, trimHeadings_trimFront, trimHeadings_reverse,
    trimHeadings_trimFront, trimEdges]

theorem trimHeadings_settle (forest : NumberedForest) (data : Node) :
    trimHeadings ids (forest.settle data) = (trimHeadings ids forest).settle data := by
  unfold settle
  split
  next => exact trimHeadings_trimEdges forest
  next => rfl

end NumberedForest

/-- The frame with the headings of some numbers trimmed on either side of it. -/
def Frame.trimHeadings (ids : List Nat) (frame : Frame) : Frame :=
  { frame with
    before := frame.before.trimHeadings ids
    after := frame.after.trimHeadings ids }

namespace Place

variable {ids others : List Nat} {frame : Frame} {place : Place}

/-- The place with the headings of some numbers trimmed around it. -/
def trimHeadings (ids : List Nat) (place : Place) : Place := place.map (Frame.trimHeadings ids)

theorem trimHeadings_cons (frame : Frame) (place : Place) :
    trimHeadings ids (frame :: place) = frame.trimHeadings ids :: trimHeadings ids place := rfl

/-- None of the nodes around the place is a heading with one of the numbers. -/
def Passed (ids : List Nat) (place : Place) : Prop :=
  ∀ frame ∈ place, due ids frame.id frame.data = false

theorem trimHeadings_plug (hpassed : Passed ids place) (siblings : NumberedForest) :
    (place.plug siblings).trimHeadings ids =
      (trimHeadings ids place).plug (siblings.trimHeadings ids) := by
  induction place generalizing siblings with
  | nil => rfl
  | cons frame place ih =>
      obtain ⟨hframe, hpassed⟩ := List.forall_mem_cons.mp hpassed
      rw [plug_cons, ih hpassed, trimHeadings_append, NumberedForest.trimHeadings_cons, hframe]
      rfl

/-- Trimming the headings around a place changes nothing about what goes. -/
theorem trimHeadings_close (hpassed : Passed ids place) (siblings : NumberedForest) :
    (place.close siblings).1.trimHeadings ids =
        ((trimHeadings ids place).close (siblings.trimHeadings ids)).1 ∧
      (place.close siblings).2 = ((trimHeadings ids place).close (siblings.trimHeadings ids)).2 := by
  induction place generalizing siblings with
  | nil => exact ⟨rfl, rfl⟩
  | cons frame place ih =>
      obtain ⟨hframe, houter⟩ := List.forall_mem_cons.mp hpassed
      have hsettle : (siblings.settle frame.data).trimHeadings ids =
          (siblings.trimHeadings ids).settle frame.data := trimHeadings_settle siblings frame.data
      by_cases hempty : Forest.goesWhenEmpty frame.data = true ∧ siblings.settle frame.data = []
      · obtain ⟨hrest, hemptied⟩ := ih houter (frame.before ++ frame.after)
        rw [hempty.2, trimHeadings_nil] at hsettle
        have hgoes : Forest.goesWhenEmpty (frame.trimHeadings ids).data = true := hempty.1
        rw [close_of_emptied hempty.1 hempty.2, trimHeadings_cons,
          close_of_emptied hgoes hsettle.symm]
        rw [trimHeadings_append] at hrest hemptied
        exact ⟨hrest, congrArg (List.cons frame.data) hemptied⟩
      · have hkept : ¬ (Forest.goesWhenEmpty (frame.trimHeadings ids).data = true ∧
            (siblings.trimHeadings ids).settle (frame.trimHeadings ids).data = []) := by
          rwa [Frame.trimHeadings, ← hsettle, trimHeadings_eq_nil]
        rw [close_of_kept hempty, trimHeadings_plug hpassed, hsettle, trimHeadings_cons,
          close_of_kept hkept]
        exact ⟨rfl, rfl⟩

/-- Siblings that become the same make no difference around them. -/
theorem trimHeadings_plug_congr {siblings rest : NumberedForest}
    (hsame : ∀ id ∈ place.ids, (id ∈ ids ↔ id ∈ others))
    (hsiblings : siblings.trimHeadings ids = rest.trimHeadings others) :
    (place.plug siblings).trimHeadings ids = (place.plug rest).trimHeadings others := by
  induction place generalizing siblings rest with
  | nil => exact hsiblings
  | cons frame place ih =>
      simp only [Place.ids, List.mem_cons, List.mem_append] at hsame
      rw [plug_cons, plug_cons]
      refine ih (fun id hmem => hsame id (.inr (.inr hmem))) ?_
      have hdue : due ids frame.id frame.data = due others frame.id frame.data := by
        have hid := hsame frame.id (.inl rfl)
        simp [due, hid]
      rw [trimHeadings_append, trimHeadings_append, NumberedForest.trimHeadings_cons,
        NumberedForest.trimHeadings_cons, hdue,
        trimHeadings_congr fun id hmem => hsame id (.inr (.inl (.inl hmem))), hsiblings,
        trimHeadings_congr fun id hmem => hsame id (.inr (.inl (.inr hmem)))]

end Place

/-! ## What is still to be visited -/

namespace NumberedForest

variable {ids : List Nat} {id : Nat} {forest : NumberedForest}

theorem census_sublist {α : Type} {f g : NumberedTree → List α}
    (hf : ∀ tree, (f tree).Sublist (g tree)) (forest : NumberedForest) :
    (census f forest).Sublist (census g forest) := by
  induction forest using NumberedForest.induction with
  | nil => simp
  | cons id data children rest ihchildren ihrest =>
      rw [census_cons, census_cons]
      exact (hf _).append (ihchildren.append ihrest)

theorem blank_sublist_ids (forest : NumberedForest) : forest.blank.Sublist forest.ids := by
  rw [ids_eq_census]
  refine census_sublist (fun tree => ?_) forest
  rw [blankMark]
  split <;> simp

theorem due_of_heading {data : Node} (hheading : data.kind.headingLevel?.isSome = true)
    (hmem : id ∈ ids) : due ids id data = true := by
  rw [due, Bool.and_eq_true, List.contains_iff_mem]
  exact ⟨hheading, hmem⟩

theorem due_cons {data : Node} (other : Nat) (hdue : due ids id data = true) :
    due (other :: ids) id data = true := by
  rw [due, Bool.and_eq_true, List.contains_iff_mem] at hdue
  exact due_of_heading hdue.1 (List.mem_cons_of_mem _ hdue.2)

theorem mem_dueMark {tree : NumberedTree} (hmem : id ∈ dueMark ids tree) :
    tree.id = id ∧ due ids tree.id tree.data = true := by
  rw [dueMark] at hmem
  split at hmem
  next hdue => exact ⟨(List.mem_singleton.mp hmem).symm, hdue⟩
  next => cases hmem

theorem mem_blankMark {tree : NumberedTree} (hmem : id ∈ blankMark tree) :
    tree.id = id ∧ tree.data.kind.headingLevel?.isSome = true ∧ tree.children = [] := by
  rw [blankMark] at hmem
  split at hmem
  next hblank =>
    rw [Tree.isBlankHeading, Bool.and_eq_true, NumberedTree.isLeaf_erase, List.isEmpty_iff] at hblank
    exact ⟨(List.mem_singleton.mp hmem).symm, hblank⟩
  next => cases hmem

theorem waiting_subset (forest : NumberedForest) : forest.waiting ids ⊆ ids := by
  intro id hmem
  obtain ⟨-, -, tree, -, -, hfound⟩ := Place.exists_plug hmem
  obtain ⟨rfl, hdue⟩ := mem_dueMark hfound
  rw [due, Bool.and_eq_true, List.contains_iff_mem] at hdue
  exact hdue.2

theorem waiting_sublist_cons (id : Nat) (ids : List Nat) (forest : NumberedForest) :
    (forest.waiting ids).Sublist (forest.waiting (id :: ids)) := by
  refine census_sublist (fun tree => ?_) forest
  cases hdue : due ids tree.id tree.data with
  | false => simp [dueMark, hdue]
  | true => simp [dueMark, hdue, due_cons id hdue]

/-- The first number plays no part any more when its turn is over. -/
theorem waiting_sublist_tail (hnodup : (id :: ids).Nodup)
    (hordered : (forest.waiting (id :: ids)).Sublist (id :: ids)) :
    (forest.waiting ids).Sublist ids := by
  rcases List.sublist_cons_iff.mp ((waiting_sublist_cons id ids forest).trans hordered) with hsublist | ⟨more, heq, -⟩
  · exact hsublist
  · have hmem : id ∈ ids := waiting_subset forest (heq ▸ List.mem_cons_self)
    exact absurd hmem (List.nodup_cons.mp hnodup).1

/-- A blank heading is waiting if its number is one of those to come. -/
theorem mem_waiting_of_blank (hblank : id ∈ forest.blank) (hid : id ∈ ids) :
    id ∈ forest.waiting ids := by
  obtain ⟨place, before, tree, after, rfl, hfound⟩ := Place.exists_plug hblank
  obtain ⟨rfl, hheading, -⟩ := mem_blankMark hfound
  refine Place.census_subset_plug place _ ?_
  rw [census_append, census_cons_eq, dueMark, if_pos (due_of_heading hheading hid)]
  simp

/-- Without numbers of blank headings there are none. -/
theorem lacks_of_blank (hnone : forest.blank = []) :
    Forest.Lacks Tree.isBlankHeading forest.erase := by
  induction forest using NumberedForest.induction with
  | nil => simp [Forest.Lacks]
  | cons id data children rest ihchildren ihrest =>
      rw [blank, census_cons, List.append_eq_nil_iff, List.append_eq_nil_iff] at hnone
      obtain ⟨hself, hchildren, hrest⟩ := hnone
      rw [erase_cons, Forest.lacks_cons]
      refine ⟨?_, ihchildren hchildren, ihrest hrest⟩
      by_contra hblank
      rw [blankMark, if_pos (by simpa [NumberedTree.erase] using hblank)] at hself
      cases hself

theorem dueMark_of_isTextLeaf (tree : NumberedTree) (hleaf : tree.erase.isTextLeaf = true) :
    dueMark ids tree = [] := by
  obtain ⟨id, data, children⟩ := tree
  rw [isTextLeaf_erase, Bool.and_eq_true, Bool.and_eq_true] at hleaf
  rw [dueMark, NumberedTree.data_node, due_eq_false_of_text hleaf.2.2]
  rfl

theorem blankMark_of_isTextLeaf (tree : NumberedTree) (hleaf : tree.erase.isTextLeaf = true) :
    blankMark tree = [] := by
  by_contra hne
  obtain ⟨id, hmem⟩ := List.exists_mem_of_ne_nil _ hne
  obtain ⟨rfl, hheading, -⟩ := mem_blankMark hmem
  have hdue : dueMark [tree.id] tree = [tree.id] :=
    if_pos (due_of_heading hheading List.mem_cons_self)
  rw [dueMark_of_isTextLeaf tree hleaf] at hdue
  cases hdue

/-- The numbers that are still to be visited are those of the headings to come, in document
order, and every blank heading is to come. -/
structure Unvisited (ids : List Nat) (forest : NumberedForest) : Prop where
  nodup : ids.Nodup
  ordered : (forest.waiting ids).Sublist ids
  passed : forest.blank ⊆ ids

/-- A number that no heading has is passed without any effect. -/
theorem Unvisited.skip (hunvisited : Unvisited (id :: ids) forest)
    (hnone : id ∉ forest.waiting (id :: ids)) :
    Unvisited ids forest ∧ trimHeadings (id :: ids) forest = trimHeadings ids forest := by
  obtain ⟨hnodup, hordered, hpassed⟩ := hunvisited
  refine ⟨⟨(List.nodup_cons.mp hnodup).2, waiting_sublist_tail hnodup hordered, ?_⟩, ?_⟩
  · intro other hblank
    have hmem := hpassed hblank
    rcases List.mem_cons.mp hmem with rfl | hother
    · exact absurd (mem_waiting_of_blank hblank hmem) hnone
    · exact hother
  · clear hordered hpassed
    induction forest using NumberedForest.induction with
    | nil => simp
    | cons other data children rest ihchildren ihrest =>
        rw [waiting, census_cons, List.mem_append, List.mem_append, not_or, not_or] at hnone
        obtain ⟨hself, hchildren, hrest⟩ := hnone
        have hdue : due (id :: ids) other data = due ids other data := by
          by_cases heq : other = id
          · subst heq
            have hnot : data.kind.headingLevel?.isSome = false := by
              by_contra hheading
              rw [Bool.not_eq_false] at hheading
              have hdue : due (other :: ids) other data = true :=
                due_of_heading hheading List.mem_cons_self
              exact hself (by simp [dueMark, hdue])
            rw [due, due, hnot]
            rfl
          · simp [due, heq]
        rw [trimHeadings_cons, trimHeadings_cons, hdue, ihchildren hchildren, ihrest hrest]

end NumberedForest

namespace Place

variable {ids : List Nat} {place : Place} {before after : NumberedForest} {id : Nat} {data : Node}
  {children : NumberedForest}

theorem Passed.tail (hpassed : place.Passed (id :: ids)) : place.Passed ids := by
  intro frame hframe
  by_contra hdue
  rw [Bool.not_eq_false] at hdue
  have hmore := due_cons id hdue
  rw [hpassed frame hframe] at hmore
  cases hmore

theorem Passed.dueMark (hpassed : place.Passed ids) {frame : Frame} (hframe : frame ∈ place)
    (children : NumberedForest) :
    NumberedForest.dueMark ids (.node frame.id frame.data children) = [] :=
  if_neg (Bool.eq_false_iff.mp (hpassed frame hframe))

theorem Passed.quiet (hpassed : place.Passed ids) : Quiet (NumberedForest.dueMark ids) place :=
  fun _ hframe children _ => hpassed.dueMark hframe children

theorem Passed.waiting_plug (hpassed : place.Passed ids) (siblings : NumberedForest) :
    (place.plug siblings).waiting ids =
      front (NumberedForest.dueMark ids) place ++
        (siblings.waiting ids ++ back (NumberedForest.dueMark ids) place) :=
  census_plug hpassed.quiet (.inr fun _ hframe => hpassed.dueMark hframe [])

theorem quiet_blankMark (place : Place) : Quiet blankMark place := by
  intro frame _ children hfull
  by_contra hne
  obtain ⟨id, hmem⟩ := List.exists_mem_of_ne_nil _ hne
  obtain ⟨-, hheading, hempty⟩ := mem_blankMark hmem
  exact hfull (Kind.goesWhenEmpty_of_heading hheading) hempty

/-- A heading stands where its turn is the next. -/
structure Current (ids : List Nat) (place : Place) (before : NumberedForest) (id : Nat)
    (data : Node) (children after : NumberedForest) : Prop where
  unvisited : Unvisited (id :: ids) (place.plug (before ++ .node id data children :: after))
  distinct : (place.plug (before ++ .node id data children :: after)).ids.Nodup
  heading : data.kind.headingLevel?.isSome = true
  passed : place.Passed (id :: ids)
  before : before.waiting (id :: ids) = []
  frames : ∀ frame ∈ place, frame.before.waiting (id :: ids) = []

/-- Where the heading stands whose turn is the next. -/
theorem exists_current {forest : NumberedForest} (hunvisited : Unvisited (id :: ids) forest)
    (hdistinct : forest.ids.Nodup) (hmem : id ∈ forest.waiting (id :: ids)) :
    ∃ place before data children after,
      forest = plug place (before ++ .node id data children :: after) ∧
      Current ids place before id data children after := by
  obtain ⟨more, hwaiting⟩ : ∃ more, forest.waiting (id :: ids) = id :: more := by
    rcases List.sublist_cons_iff.mp hunvisited.ordered with hsublist | ⟨more, hwaiting, -⟩
    · exact absurd (hsublist.subset hmem) (List.nodup_cons.mp hunvisited.nodup).1
    · exact ⟨more, hwaiting⟩
  obtain ⟨place, before, ⟨found, data, children⟩, after, rfl, hfound, hbefore, hplace⟩ :=
    exists_first (fun _ _ _ _ => rfl) hwaiting
  obtain ⟨rfl, hdue⟩ := mem_dueMark hfound
  refine ⟨place, before, data, children, after, rfl, hunvisited, hdistinct,
    (Bool.and_eq_true _ _ ▸ hdue).1, fun frame hframe => ?_, hbefore,
    fun frame hframe => (hplace frame hframe).1⟩
  exact due_of_dueMark ((hplace frame hframe).2 [])

namespace Current

/-- The number of the heading is found nowhere else. -/
theorem fresh (hcurrent : Current ids place before id data children after) :
    id ∉ ids ∧ id ∉ children.ids ∧ id ∉ before.ids ∧ id ∉ after.ids ∧ id ∉ Place.ids place := by
  have hdistinct := (ids_plug_middle place before after _).nodup_iff.mp hcurrent.distinct
  rw [ids_cons, List.nodup_cons, List.mem_append, not_or, (ids_plug ..).mem_iff, ids_append,
    List.mem_append, List.mem_append, not_or, not_or] at hdistinct
  obtain ⟨⟨hchildren, ⟨hbefore, hafter⟩, hplace⟩, -⟩ := hdistinct
  exact ⟨(List.nodup_cons.mp hcurrent.unvisited.nodup).1, hchildren, hbefore, hafter, hplace⟩

/-- The heading itself is trimmed first. -/
theorem trimHeadings_eq (hcurrent : Current ids place before id data children after) :
    (place.plug (before ++ .node id data children :: after)).trimHeadings (id :: ids) =
      (place.plug (before ++ .node id data children.trimEdges :: after)).trimHeadings ids := by
  obtain ⟨hnot, hchildren, hbefore, hafter, hplace⟩ := hcurrent.fresh
  have hsame : ∀ {list : List Nat}, id ∉ list →
      ∀ other ∈ list, (other ∈ id :: ids ↔ other ∈ ids) := by
    intro list hlist other hmem
    have hne : other ≠ id := fun heq => hlist (heq ▸ hmem)
    simp [hne]
  refine trimHeadings_plug_congr (hsame hplace) ?_
  have hdue : due (id :: ids) id data = true := due_of_heading hcurrent.heading List.mem_cons_self
  have hpast : due ids id data = false := by
    rw [due, Bool.and_eq_false_iff]
    exact .inr (by simpa using hnot)
  rw [trimHeadings_append, trimHeadings_append, NumberedForest.trimHeadings_cons,
    NumberedForest.trimHeadings_cons, hdue, hpast, trimHeadings_trimEdges,
    trimHeadings_congr (hsame hbefore), trimHeadings_congr (hsame hafter),
    trimHeadings_congr (hsame hchildren)]
  rfl

theorem ordered (hcurrent : Current ids place before id data children after) :
    ((place.plug (before ++ .node id data children.trimEdges :: after)).waiting ids).Sublist
      ids := by
  have hordered := hcurrent.unvisited.ordered
  refine waiting_sublist_tail hcurrent.unvisited.nodup ?_
  rw [hcurrent.passed.waiting_plug, waiting, census_append, census_cons] at hordered ⊢
  rwa [census_trimEdges dueMark_of_isTextLeaf]

/-- All other blank headings are still to come. -/
theorem blank_subset (hcurrent : Current ids place before id data children after) :
    front blankMark place ++ (before.blank ++ (children.blank ++ (after.blank ++
      back blankMark place))) ⊆ ids := by
  intro other hmem
  obtain ⟨-, hchildren, hbefore, hafter, hplace⟩ := hcurrent.fresh
  have hne : other ≠ id := by
    rintro rfl
    simp only [List.mem_append] at hmem
    have haround := front_append_back_subset (fun forest => (blank_sublist_ids forest).subset) place
    rcases hmem with hmem | hmem | hmem | hmem | hmem
    · exact hplace (haround (List.mem_append_left _ hmem))
    · exact hbefore ((blank_sublist_ids _).subset hmem)
    · exact hchildren ((blank_sublist_ids _).subset hmem)
    · exact hafter ((blank_sublist_ids _).subset hmem)
    · exact hplace (haround (List.mem_append_right _ hmem))
  have hblank : other ∈ (place.plug (before ++ .node id data children :: after)).blank := by
    rw [blank, census_plug (quiet_blankMark place) (.inl (by simp)), census_append, census_cons]
    simp only [List.mem_append] at hmem ⊢
    tauto
  exact (List.mem_cons.mp (hcurrent.unvisited.passed hblank)).resolve_left hne

theorem kept (hcurrent : Current ids place before id data children after)
    (hfull : children.trimEdges ≠ []) :
    Unvisited ids (place.plug (before ++ .node id data children.trimEdges :: after)) where
  nodup := (List.nodup_cons.mp hcurrent.unvisited.nodup).2
  ordered := hcurrent.ordered
  passed := by
    have hself : blankMark (.node id data children.trimEdges) = [] := by
      by_contra hne
      obtain ⟨other, hmem⟩ := List.exists_mem_of_ne_nil _ hne
      exact hfull (mem_blankMark hmem).2.2
    rw [blank, census_plug (quiet_blankMark place) (.inl (by simp)), census_append, census_cons,
      hself, census_trimEdges blankMark_of_isTextLeaf]
    rw [List.nil_append, List.append_assoc, List.append_assoc]
    exact hcurrent.blank_subset

theorem closed (hcurrent : Current ids place before id data children after) :
    Unvisited ids (place.close (before ++ after)).1 where
  nodup := (List.nodup_cons.mp hcurrent.unvisited.nodup).2
  ordered := by
    refine List.Sublist.trans ?_ hcurrent.ordered
    rw [hcurrent.passed.tail.waiting_plug, waiting,
      census_close dueMark_of_isTextLeaf hcurrent.passed.tail.quiet, waiting, census_append,
      census_append, census_cons]
    refine List.Sublist.append_left (.append_right (.append_left ?_ _) _) _
    exact (List.sublist_append_right ..).trans (List.sublist_append_right ..)
  passed := by
    rw [blank, census_close blankMark_of_isTextLeaf (quiet_blankMark place), census_append]
    refine fun other hmem => hcurrent.blank_subset ?_
    simp only [List.mem_append, blank] at hmem ⊢
    tauto

/-- The search for blank headings gets to the heading, past all that is before it. -/
theorem reached (hcurrent : Current ids place before id data children after) :
    (place.trimHeadings ids).Reached Tree.isBlankHeading ∧
      Forest.Lacks Tree.isBlankHeading (before.trimHeadings ids).erase := by
  have hsubset := hcurrent.blank_subset
  have hlacks : ∀ forest : NumberedForest, forest.waiting (id :: ids) = [] →
      forest.blank ⊆ ids → Forest.Lacks Tree.isBlankHeading (forest.trimHeadings ids).erase := by
    intro forest hnone hblank
    have hfewer : forest.waiting ids = [] :=
      List.sublist_nil.mp (hnone ▸ waiting_sublist_cons id ids forest)
    rw [trimHeadings_of_waiting hfewer]
    refine lacks_of_blank ?_
    by_contra hne
    obtain ⟨other, hmem⟩ := List.exists_mem_of_ne_nil _ hne
    have hwaiting := mem_waiting_of_blank hmem (hblank hmem)
    rw [hfewer] at hwaiting
    cases hwaiting
  refine ⟨fun frame hframe => ?_, hlacks _ hcurrent.before fun other hmem => hsubset (by simp [hmem])⟩
  obtain ⟨frame, hmem, rfl⟩ := List.mem_map.mp hframe
  refine ⟨hlacks _ (hcurrent.frames frame hmem) fun other hother => hsubset ?_, ?_⟩
  · exact List.mem_append_left _ (census_before_subset hmem hother)
  · intro others hne
    cases others with
    | nil => exact absurd rfl hne
    | cons first rest => simp [Tree.isBlankHeading, Tree.isLeaf, Tree.children]

end Current

end Place

/-! ## In an arena -/

namespace Arena

variable {arena : Arena} {forest : NumberedForest} {ids : List Nat} {id : Nat}

/-- What a number in use belongs to. -/
theorem Holds.exists_tree (hholds : Holds arena forest) {cell : Cell}
    (hcell : arena.get? id = some cell) :
    cell.data = { kind := .documentRoot } ∨
      ∃ (place : Place) (before : NumberedForest) (tree : NumberedTree) (after : NumberedForest),
        forest = place.plug (before ++ tree :: after) ∧ tree.id = id ∧ cell.data = tree.data := by
  have hmem : id = root ∨ id ∈ forest.ids := by
    have hid := (hholds.mem_iff id).mpr (by rw [hcell]; rfl)
    simpa [Place.plug_cons, top] using hid
  rcases hmem with rfl | hmem
  · obtain ⟨other, hother, hdata, -, -⟩ := hholds.atRoot.exists_get
    obtain rfl := Except.ok.inj ((get_eq hcell).symm.trans hother)
    exact .inl hdata
  · obtain ⟨place, before, tree, after, rfl, rfl⟩ := Place.exists_plug_of_mem hmem
    obtain ⟨other, hother, hdata, -, -⟩ := hholds.below.exists_get
    obtain rfl := Except.ok.inj ((get_eq hcell).symm.trans hother)
    exact .inr ⟨place, before, tree, after, rfl, rfl, hdata⟩

theorem Holds.trimHeading_of_not_waiting (hholds : Holds arena forest)
    (hnone : id ∉ forest.waiting (id :: ids)) : arena.trimHeading id = .ok (arena, []) := by
  refine if_neg fun hany => ?_
  cases hcell : arena.get? id with
  | none => simp [hcell] at hany
  | some cell =>
      have hheading : cell.data.kind.headingLevel?.isSome = true := by simpa [hcell] using hany
      rcases hholds.exists_tree hcell with hroot | ⟨place, before, tree, after, rfl, rfl, hdata⟩
      · rw [hroot] at hheading
        cases hheading
      · refine hnone (Place.census_subset_plug place _ ?_)
        rw [hdata] at hheading
        rw [census_append, census_cons_eq, dueMark,
          if_pos (due_of_heading hheading List.mem_cons_self)]
        simp

variable {place : Place} {before after children : NumberedForest} {data : Node}

/-- A heading is trimmed before it is asked whether anything is left of it. -/
theorem Holds.trimHeading
    (hholds : Holds arena (place.plug (before ++ .node id data children :: after)))
    (hheading : data.kind.headingLevel?.isSome = true) :
    ∃ trimmed, Holds trimmed (place.plug (before ++ .node id data children.trimEdges :: after)) ∧
      (children.trimEdges ≠ [] → arena.trimHeading id = .ok (trimmed, [])) ∧
      (children.trimEdges = [] → ∀ next notices,
        trimmed.removeAndPrune id = .ok (next, notices) →
        arena.trimHeading id = .ok (next, data.emptyNotice :: notices)) := by
  obtain ⟨cell, hcell, hdata, -, -⟩ := hholds.below.exists_get
  have hbelow : Stores arena (Place.plug (⟨id, data, before, after⟩ :: (place ++ [top])) children) :=
    hholds.below
  obtain ⟨trimmed, htrim, hstores⟩ := hbelow.trimEdges
  have htrimmed : Holds trimmed
      (place.plug (before ++ .node id data children.trimEdges :: after)) := by
    rw [Holds, ← Place.plug_append]
    exact hstores
  obtain ⟨other, hother, hotherData, -, hleaf⟩ := htrimmed.below.exists_get
  have hcell : arena.get? id = some cell := get?_of_get hcell
  have hany : (arena.get? id).any (·.data.kind.headingLevel?.isSome) = true := by
    rw [hcell, Option.any_some, hdata]
    exact hheading
  have htrim : arena.trimEdges id = .ok trimmed := htrim
  have hother : trimmed.get id = .ok other := hother
  rw [NumberedTree.children_node] at hleaf
  rw [Arena.trimHeading, if_pos hany, htrim, ok_bind, hother, ok_bind, hleaf, hotherData]
  refine ⟨trimmed, htrimmed, fun hfull => ?_, fun hempty next notices hremove => ?_⟩
  · rw [if_neg (mt List.isEmpty_iff.mp hfull)]
    rfl
  · rw [if_pos (List.isEmpty_iff.mpr hempty), hremove]
    rfl

/-- Visiting the headings one by one takes out the blank ones one by one. -/
theorem Holds.visit_trimHeading (hholds : Holds arena forest) (hunvisited : Unvisited ids forest) :
    ∃ next kept count, arena.visit Arena.trimHeading ids =
        .ok (next, (Forest.removeTimes Tree.isBlankHeading count
          (forest.trimHeadings ids).erase).2.flatMap fun removal =>
            (removal.removed.map Node.emptyNotice).toList ++ removal.notices) ∧
      NumberedForest.erase kept = (Forest.removeTimes Tree.isBlankHeading count
        (forest.trimHeadings ids).erase).1 ∧
      Forest.Lacks Tree.isBlankHeading kept.erase ∧ Holds next kept := by
  induction ids generalizing arena forest with
  | nil =>
      have hsame : forest.trimHeadings [] = forest :=
        trimHeadings_of_waiting (List.subset_nil.mp (waiting_subset forest))
      rw [hsame]
      exact ⟨arena, forest, 0, rfl, rfl,
        lacks_of_blank (List.subset_nil.mp hunvisited.passed), hholds⟩
  | cons id ids ih =>
      by_cases hwaiting : id ∈ forest.waiting (id :: ids)
      · obtain ⟨place, before, data, children, after, rfl, hcurrent⟩ :=
          Place.exists_current hunvisited hholds.nodup hwaiting
        obtain ⟨trimmed, htrimmed, hfull, hempty⟩ := hholds.trimHeading hcurrent.heading
        rw [hcurrent.trimHeadings_eq]
        by_cases hnil : children.trimEdges = []
        · obtain ⟨removed, hremove, hremoved⟩ := htrimmed.below.removeAndPrune rfl
          obtain ⟨next, kept, count, hnext, herase, hlacks, hkept⟩ := ih hremoved hcurrent.closed
          obtain ⟨hreached, hbefore⟩ := hcurrent.reached
          obtain ⟨hrest, hemptied⟩ :=
            Place.trimHeadings_close hcurrent.passed.tail (before ++ after)
          have hblank : Tree.isBlankHeading (NumberedTree.node id data []).erase = true := by
            rw [Tree.isBlankHeading, NumberedTree.isLeaf_erase, Bool.and_eq_true]
            exact ⟨hcurrent.heading, rfl⟩
          obtain ⟨removal, hgone, haround, htimes⟩ :=
            hreached.removeTimes hbefore hblank (NumberedForest.trimHeadings ids after) count
          rw [← trimHeadings_append, ← hrest] at htimes
          rw [← trimHeadings_append, ← hemptied] at haround
          have hplug : (place.plug (before ++ .node id data children.trimEdges :: after)).trimHeadings
              ids = (place.trimHeadings ids).plug
                (NumberedForest.trimHeadings ids before ++
                  .node id data [] :: NumberedForest.trimHeadings ids after) := by
            rw [Place.trimHeadings_plug hcurrent.passed.tail, trimHeadings_append,
              trimHeadings_cons, hnil, trimHeadings_nil]
            split <;> rfl
          rw [hplug]
          refine ⟨next, kept, count + 1, ?_, by rw [herase, htimes], hlacks, hkept⟩
          rw [htimes, List.flatMap_cons, hgone, Removal.notices, haround]
          exact visit_append (visit_singleton (hempty hnil _ _ hremove)) hnext
        · obtain ⟨next, kept, count, hnext, hkept⟩ := ih htrimmed (hcurrent.kept hnil)
          refine ⟨next, kept, count, ?_, hkept⟩
          exact visit_append (visit_singleton (hfull hnil)) hnext
      · obtain ⟨hrest, hsame⟩ := hunvisited.skip hwaiting
        obtain ⟨next, kept, count, hnext, hkept⟩ := ih hholds hrest
        refine ⟨next, kept, count, ?_, hsame ▸ hkept⟩
        rw [hsame]
        exact visit_append (visit_singleton (hholds.trimHeading_of_not_waiting hwaiting)) hnext

/-- Dropping the blank headings of an arena drops those of the forest in it. -/
theorem Holds.dropBlankHeadings (hholds : Holds arena forest) :
    ∃ next kept, arena.visit Arena.trimHeading (root :: forest.ids) =
        .ok (next, forest.erase.dropBlankHeadings.2) ∧
      NumberedForest.erase kept = forest.erase.dropBlankHeadings.1 ∧ Holds next kept := by
  have hunvisited : Unvisited (root :: forest.ids) forest := by
    have hdistinct := hholds.distinct
    refine ⟨by simpa [Place.plug_cons, top] using hdistinct, ?_, fun id hmem =>
      List.mem_cons_of_mem _ ((blank_sublist_ids forest).subset hmem)⟩
    refine List.Sublist.cons _ ?_
    conv_rhs => rw [ids_eq_census]
    refine census_sublist (fun tree => ?_) forest
    rw [dueMark]
    split <;> simp
  obtain ⟨next, kept, count, hnext, herase, hlacks, hkept⟩ := hholds.visit_trimHeading hunvisited
  have htrimmed := erase_trimHeadings (List.subset_cons_self root forest.ids)
  have hall : Forest.removeTimes Tree.isBlankHeading count
      (forest.trimHeadings (root :: forest.ids)).erase =
      (Tree.forestTrimHeadings forest.erase).removeWhere Tree.isBlankHeading := by
    rw [herase, htrimmed] at hlacks
    rw [htrimmed]
    exact Forest.removeTimes_of_lacks hlacks (Tree.lacks_dropBlankHeadings forest.erase)
  rw [hall] at hnext herase
  exact ⟨next, kept, hnext, herase, hkept⟩

end Arena

end PageMarkup
