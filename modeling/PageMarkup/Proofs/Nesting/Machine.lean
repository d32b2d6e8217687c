import Mathlib.Data.List.Induction
import PageMarkup.Proofs.Nesting.Grammar

/-! # The nesting machine follows the grammar

Running the machine over what a grammatical forest spells puts exactly that
forest on the current level. In the other direction, the state after any lexemes
is a split of them into open aggregates and whole items between their markers.
-/

namespace PageMarkup

theorem Lexeme.IsRaw.aggregate?_eq_none {lexeme : Lexeme} (hraw : lexeme.IsRaw) :
    lexeme.kind.aggregate? = none := by
  unfold IsRaw at hraw
  cases hkind : lexeme.kind with
  | aggregate a => simp [hkind, Kind.isProcessed, Kind.canHaveChildren] at hraw
  | _ => rfl

/-- A mark with its text describes one lexeme only. -/
theorem Mark.eq_of_matches {lexeme found : Lexeme}
    (hmatches : Mark.Matches ⟨lexeme.kind, lexeme.span, some lexeme.text⟩ found) :
    lexeme = found := by
  obtain ⟨hkind, hspan, htext⟩ := hmatches
  have htext : lexeme.text = found.text := htext _ rfl
  cases lexeme
  cases found
  simp_all

namespace Tree

theorem forestReading_append (first second : Forest) :
    forestReading (first ++ second) = forestReading first ++ forestReading second := by
  induction first with
  | nil => rfl
  | cons tree rest ih => simp only [List.cons_append, forestReading, ih, List.append_assoc]

theorem reading_leafOf {lexeme : Lexeme} (hleaf : lexeme.kind.aggregate? = none) :
    (Nesting.leafOf lexeme).reading =
      [{ kind := lexeme.kind, span := lexeme.span, text := some lexeme.text }] := by
  unfold Nesting.leafOf leaf reading
  cases hkind : lexeme.kind with
  | aggregate a => simp [hkind, Kind.aggregate?] at hleaf
  | _ => rfl

theorem reading_close (pending : Pending) (closer : Span) (children : Forest) :
    (Nesting.close pending closer children).reading =
      { kind := pending.aggregate.startedBy, span := pending.opener }
        :: (forestReading children ++ [{ kind := pending.aggregate.endedBy, span := closer }]) := by
  simp [Nesting.close, reading]

theorem beginsWith_leafOf {lexeme : Lexeme} (hleaf : lexeme.kind.aggregate? = none)
    (kind : Kind) : (Nesting.leafOf lexeme).BeginsWith kind ↔ lexeme.kind = kind := by
  simp [BeginsWith, reading_leafOf hleaf]

theorem beginsWith_close (pending : Pending) (closer : Span) (children : Forest) (kind : Kind) :
    (Nesting.close pending closer children).BeginsWith kind ↔
      pending.aggregate.startedBy = kind := by
  simp [BeginsWith, reading_close]

end Tree

namespace Forest

theorem spells_nil : Forest.Spells [] [] := List.Forall₂.nil

theorem Spells.append {first second : Forest} {before after : List Lexeme}
    (hfirst : first.Spells before) (hsecond : second.Spells after) :
    Forest.Spells (first ++ second) (before ++ after) := by
  unfold Spells reading
  rw [Tree.forestReading_append]
  exact List.rel_append hfirst hsecond

theorem spells_leafOf {lexeme : Lexeme} (hleaf : lexeme.kind.aggregate? = none) :
    Forest.Spells [Nesting.leafOf lexeme] [lexeme] := by
  simp [Spells, reading, Tree.forestReading, Tree.reading_leafOf hleaf, Mark.Matches]

theorem spells_close {pending : Pending} {opener closer : Lexeme} {children : Forest}
    {inner : List Lexeme} (hopener : opener.kind = pending.aggregate.startedBy)
    (hspan : opener.span = pending.opener) (hcloser : closer.kind = pending.aggregate.endedBy)
    (hchildren : children.Spells inner) :
    Forest.Spells [Nesting.close pending closer.span children] (opener :: inner ++ [closer]) := by
  unfold Spells reading Tree.forestReading Tree.forestReading
  rw [Tree.reading_close, List.append_nil]
  refine List.Forall₂.cons ⟨hopener.symm, hspan.symm, by simp⟩ ?_
  exact List.rel_append hchildren (.cons ⟨hcloser.symm, rfl, by simp⟩ .nil)

/-- Lexemes that are spelled by two readings in a row split where the first ends. -/
theorem matches_append {first second : List Mark} {lexemes : List Lexeme}
    (hmatches : List.Forall₂ Mark.Matches (first ++ second) lexemes) :
    ∃ before after, lexemes = before ++ after ∧
      List.Forall₂ Mark.Matches first before ∧ List.Forall₂ Mark.Matches second after := by
  refine ⟨lexemes.take first.length, lexemes.drop first.length,
    (List.take_append_drop _ _).symm, ?_, ?_⟩
  · simpa using List.forall₂_take first.length hmatches
  · simpa using List.forall₂_drop first.length hmatches

end Forest

namespace Nesting

/-- The tree does not begin with what would close the innermost open aggregate. -/
def Admits (state : Nesting) (tree : Tree) : Prop :=
  ∀ innermost ∈ state.pending.head?, ¬ tree.BeginsWith innermost.aggregate.endedBy

theorem step_of_not_closing {state : Nesting} {lexeme : Lexeme}
    (hopen : ∀ innermost ∈ state.pending.head?, lexeme.kind ≠ innermost.aggregate.endedBy) :
    state.step lexeme = state.enter lexeme := by
  unfold step
  split
  next => rfl
  next innermost outer hpending =>
    exact if_neg (hopen innermost (by simp [hpending]))

theorem step_closing {pending : Pending} {outer : List Pending} {level : Forest}
    {lexeme : Lexeme} (hcloses : lexeme.kind = pending.aggregate.endedBy) :
    step ⟨pending :: outer, level⟩ lexeme =
      ⟨outer, close pending lexeme.span level.reverse :: pending.before⟩ :=
  if_pos hcloses

/-- Trees that each go onto the current level do so one after the other. -/
theorem foldl_step_trees {forest : Forest}
    (htrees : ∀ tree ∈ forest, ∀ (state : Nesting) (lexemes : List Lexeme), state.Admits tree →
      List.Forall₂ Mark.Matches tree.reading lexemes →
      lexemes.foldl step state = ⟨state.pending, tree :: state.level⟩)
    (state : Nesting) (lexemes : List Lexeme) (hfits : ∀ tree ∈ forest, state.Admits tree)
    (hspells : forest.Spells lexemes) :
    lexemes.foldl step state = ⟨state.pending, forest.reverse ++ state.level⟩ := by
  induction forest generalizing state lexemes with
  | nil =>
      cases hspells
      rfl
  | cons tree rest ih =>
      obtain ⟨htree, hrest⟩ := List.forall_mem_cons.mp htrees
      obtain ⟨hfit, hfits⟩ := List.forall_mem_cons.mp hfits
      obtain ⟨before, after, rfl, hbefore, hafter⟩ := Forest.matches_append hspells
      rw [List.foldl_append, htree state before hfit hbefore,
        ih hrest ⟨state.pending, tree :: state.level⟩ after hfits hafter]
      simp

/-- What a grammatical tree spells puts the tree on the current level, whatever
is open around it. -/
theorem foldl_step_tree {tree : Tree} (htree : tree.Grammatical) (state : Nesting)
    (lexemes : List Lexeme) (hfit : state.Admits tree)
    (hspells : List.Forall₂ Mark.Matches tree.reading lexemes) :
    lexemes.foldl step state = ⟨state.pending, tree :: state.level⟩ := by
  induction htree generalizing state lexemes with
  | leaf lexeme hleaf hopens =>
      rw [Tree.reading_leafOf hleaf, List.forall₂_cons_left_iff] at hspells
      obtain ⟨found, rest, hfound, hrest, rfl⟩ := hspells
      obtain rfl := List.forall₂_nil_left_iff.mp hrest
      obtain rfl := Mark.eq_of_matches hfound
      have hnot : ∀ innermost ∈ state.pending.head?,
          lexeme.kind ≠ innermost.aggregate.endedBy := by
        intro innermost hmem hcloses
        exact hfit innermost hmem ((Tree.beginsWith_leafOf hleaf _).mpr hcloses)
      rw [List.foldl_cons, step_of_not_closing hnot]
      simp [enter, hopens]
  | aggregate aggregate opener closer children _ hchildren ih =>
      change List.Forall₂ Mark.Matches
        (close ⟨aggregate, opener, []⟩ closer children).reading lexemes at hspells
      rw [Tree.reading_close, List.forall₂_cons_left_iff] at hspells
      obtain ⟨start, inside, ⟨hstart, hopener, -⟩, hinside, rfl⟩ := hspells
      obtain ⟨inner, last, rfl, hinner, hlast⟩ := Forest.matches_append hinside
      obtain ⟨stop, rest, ⟨hstop, hcloser, -⟩, hrest, rfl⟩ := List.forall₂_cons_left_iff.mp hlast
      obtain rfl := List.forall₂_nil_left_iff.mp hrest
      have hnot : ∀ innermost ∈ state.pending.head?,
          start.kind ≠ innermost.aggregate.endedBy := by
        intro innermost hmem hcloses
        exact hfit innermost hmem
          ((Tree.beginsWith_close ⟨aggregate, opener, []⟩ closer children _).mpr
            (hstart.trans hcloses))
      have hstarts : start.kind.starts? = some aggregate :=
        Kind.starts?_eq_some_iff.mpr hstart.symm
      have henter : state.step start =
          ⟨⟨aggregate, opener, state.level⟩ :: state.pending, []⟩ := by
        rw [step_of_not_closing hnot]
        simp [enter, hstarts, ← hopener]
      have hlevel : inner.foldl step ⟨⟨aggregate, opener, state.level⟩ :: state.pending, []⟩ =
          ⟨⟨aggregate, opener, state.level⟩ :: state.pending, children.reverse⟩ := by
        rw [foldl_step_trees ih _ inner (by simpa [Admits] using hchildren) hinner,
          List.append_nil]
      rw [List.foldl_cons, henter, List.foldl_append, hlevel, List.foldl_cons, List.foldl_nil,
        step_closing (show _ = Aggregate.endedBy aggregate from hstop.symm)]
      simp [close, ← hcloser]

/-- What a grammatical forest spells puts the forest on the current level. -/
theorem foldl_step_forest {forest : Forest} (hforest : forest.Grammatical) (state : Nesting)
    (lexemes : List Lexeme) (hfits : ∀ tree ∈ forest, state.Admits tree)
    (hspells : forest.Spells lexemes) :
    lexemes.foldl step state = ⟨state.pending, forest.reverse ++ state.level⟩ :=
  foldl_step_trees (fun _ hmem => foldl_step_tree (hforest _ hmem)) state lexemes hfits hspells

/-- What the lexemes passed so far have to do with the open aggregates and the
current level: they are whole items, each open aggregate begins with its marker
and holds the items after it, and nothing on a level would have closed it. -/
def Splits : List Pending → Forest → List Lexeme → Prop
  | [], level, lexemes => Forest.Grammatical level.reverse ∧ Forest.Spells level.reverse lexemes
  | innermost :: outer, level, lexemes =>
    ∃ before opener after, lexemes = before ++ opener :: after ∧
      opener.kind = innermost.aggregate.startedBy ∧ opener.span = innermost.opener ∧
      (∀ enclosing ∈ outer.head?, opener.kind ≠ enclosing.aggregate.endedBy) ∧
      Splits outer innermost.before before ∧
      Forest.Grammatical level.reverse ∧
      Forest.Avoids innermost.aggregate.endedBy level.reverse ∧
      Forest.Spells level.reverse after

theorem splits_push {pending : List Pending} {level : Forest} {lexemes more : List Lexeme}
    {tree : Tree} (hsplits : Splits pending level lexemes) (htree : tree.Grammatical)
    (hfits : Admits ⟨pending, level⟩ tree) (hspells : Forest.Spells [tree] more) :
    Splits pending (tree :: level) (lexemes ++ more) := by
  cases pending with
  | nil =>
      obtain ⟨hgrammatical, hlevel⟩ := hsplits
      refine ⟨?_, ?_⟩
      · simpa [Forest.Grammatical, or_imp, forall_and, htree] using hgrammatical
      · simpa using hlevel.append hspells
  | cons innermost outer =>
      obtain ⟨before, opener, after, rfl, hkind, hspan, hopener, houter, hgrammatical, havoids,
        hlevel⟩ := hsplits
      refine ⟨before, opener, after ++ more, by simp, hkind, hspan, hopener, houter, ?_, ?_, ?_⟩
      · simpa [Forest.Grammatical, or_imp, forall_and, htree] using hgrammatical
      · have hthis := hfits innermost rfl
        simpa [Forest.Avoids, or_imp, forall_and, hthis] using havoids
      · simpa using hlevel.append hspells

theorem splits_enter {pending : List Pending} {level : Forest} {lexemes : List Lexeme}
    {lexeme : Lexeme} (hsplits : Splits pending level lexemes) (hraw : lexeme.IsRaw)
    (hopen : ∀ innermost ∈ pending.head?, lexeme.kind ≠ innermost.aggregate.endedBy) :
    Splits (enter ⟨pending, level⟩ lexeme).pending (enter ⟨pending, level⟩ lexeme).level
      (lexemes ++ [lexeme]) := by
  unfold enter
  split
  next aggregate hstarts =>
    refine ⟨lexemes, lexeme, [], rfl, Kind.starts?_eq_some_iff.mp hstarts, rfl, hopen, hsplits,
      ?_, ?_, Forest.spells_nil⟩
    · simp [Forest.Grammatical]
    · simp [Forest.Avoids]
  next hstarts =>
    have hleaf := hraw.aggregate?_eq_none
    refine splits_push hsplits (.leaf lexeme hleaf hstarts) ?_ (Forest.spells_leafOf hleaf)
    intro innermost hmem
    rw [Tree.beginsWith_leafOf hleaf]
    exact hopen innermost hmem

/-- One more lexeme keeps the split: it closes the innermost aggregate, or opens
one, or is a leaf. -/
theorem splits_step {state : Nesting} {lexemes : List Lexeme} {lexeme : Lexeme}
    (hsplits : Splits state.pending state.level lexemes) (hraw : lexeme.IsRaw) :
    Splits (state.step lexeme).pending (state.step lexeme).level (lexemes ++ [lexeme]) := by
  obtain ⟨pending, level⟩ := state
  cases pending with
  | nil => exact splits_enter hsplits hraw (by simp)
  | cons innermost outer =>
      by_cases hcloses : lexeme.kind = innermost.aggregate.endedBy
      · rw [step_closing hcloses]
        obtain ⟨before, opener, after, rfl, hkind, hspan, hopener, houter, hgrammatical, havoids,
          hlevel⟩ := hsplits
        have hclosed : (close innermost lexeme.span level.reverse).Grammatical :=
          .aggregate _ _ _ _ hgrammatical havoids
        have hspells := Forest.spells_close hkind hspan hcloses hlevel
        rw [List.append_assoc]
        refine splits_push houter hclosed ?_ hspells
        intro enclosing hmem
        rw [Tree.beginsWith_close, ← hkind]
        exact hopener enclosing hmem
      · have hopen : ∀ candidate ∈ (innermost :: outer).head?,
            lexeme.kind ≠ candidate.aggregate.endedBy := by simpa using hcloses
        rw [step_of_not_closing hopen]
        exact splits_enter hsplits hraw hopen

/-- The state after any lexemes is a split of them. -/
theorem splits_foldl (lexemes : List Lexeme) (hraw : ∀ lexeme ∈ lexemes, lexeme.IsRaw) :
    Splits (lexemes.foldl step {}).pending (lexemes.foldl step {}).level lexemes := by
  induction lexemes using List.reverseRecOn with
  | nil => exact ⟨by simp [Forest.Grammatical], Forest.spells_nil⟩
  | append_singleton lexemes lexeme ih =>
      rw [List.foldl_append]
      exact splits_step (ih fun other hmem => hraw other (by simp [hmem])) (hraw lexeme (by simp))

/-- The lexeme is the marker of the innermost open aggregate, if there is one. -/
def MarkedBy (pending : List Pending) (innermost : Option Lexeme) : Prop :=
  innermost.map (fun marker => (marker.kind, marker.span)) =
    pending.head?.map fun entry => (entry.aggregate.startedBy, entry.opener)

theorem MarkedBy.closing_iff {pending : List Pending} {innermost : Option Lexeme}
    (hmarked : MarkedBy pending innermost) (kind : Kind) :
    (∀ entry ∈ pending.head?, kind ≠ entry.aggregate.endedBy) ↔
      ∀ marker ∈ innermost, ∀ aggregate, marker.kind.starts? = some aggregate →
        kind ≠ aggregate.endedBy := by
  unfold MarkedBy at hmarked
  cases hhead : pending.head? with
  | none => cases innermost <;> simp_all
  | some entry =>
      cases innermost with
      | none => simp [hhead] at hmarked
      | some marker =>
          have hkind : marker.kind.starts? = some entry.aggregate := by
            rw [Kind.starts?_eq_some_iff]
            simp_all
          simp [hkind]

/-- A split leaves the marker of its innermost aggregate open. -/
theorem Splits.leavesOpen {pending : List Pending} {level : Forest} {lexemes : List Lexeme}
    (hsplits : Splits pending level lexemes) :
    ∃ innermost, Lexeme.LeavesOpen lexemes innermost ∧ MarkedBy pending innermost := by
  induction pending generalizing level lexemes with
  | nil => exact ⟨none, .none _ hsplits.1 hsplits.2, rfl⟩
  | cons innermost outer ih =>
      obtain ⟨before, opener, after, rfl, hkind, hspan, hopener, houter, hgrammatical, havoids,
        hlevel⟩ := hsplits
      obtain ⟨marker, hbefore, hmarked⟩ := ih houter
      refine ⟨some opener, .some opener innermost.aggregate _ hbefore
        (Kind.starts?_eq_some_iff.mpr hkind) ((hmarked.closing_iff _).mp hopener)
        hgrammatical havoids hlevel, ?_⟩
      simp [MarkedBy, hkind, hspan]

/-- Lexemes that leave a marker open leave the machine inside its aggregate. -/
theorem markedBy_foldl {lexemes : List Lexeme} {innermost : Option Lexeme}
    (hopen : Lexeme.LeavesOpen lexemes innermost) :
    MarkedBy (lexemes.foldl step {}).pending innermost := by
  induction hopen with
  | none items hgrammatical hspells =>
      rw [foldl_step_forest hgrammatical {} _ (by simp [Admits]) hspells]
      rfl
  | @some before after outer opener aggregate items _ hstarts hopener hgrammatical havoids
      hspells ih =>
      have henter : (before.foldl step {}).step opener =
          ⟨⟨aggregate, opener.span, (before.foldl step {}).level⟩ ::
            (before.foldl step {}).pending, []⟩ := by
        rw [step_of_not_closing ((ih.closing_iff _).mpr hopener)]
        simp [enter, hstarts]
      rw [List.foldl_append, List.foldl_cons, henter,
        foldl_step_forest hgrammatical _ after (by simpa [Admits, Forest.Avoids] using havoids) hspells]
      simp [MarkedBy, Kind.starts?_eq_some_iff.mp hstarts]

end Nesting

end PageMarkup
