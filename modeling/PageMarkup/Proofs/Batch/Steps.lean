import PageMarkup.Batch.Schedule
import PageMarkup.Proofs.Page.Listeners

/-! # Batches at work

Two pages at work never have the same recorder, and what is in a recorder and what is still to be
told to it are the diagnostics of its page. The counters are the numbers of pages that have been
counted. A batch that stops at the first failure never has a page at work while a page before it
has no document. All this holds at the start and is kept by every step.
-/

namespace PageMarkup

/-! ## Pages alone -/

theorem forM_modify {σ α : Type} (f : σ → α → σ) (list : List α) :
    forM list (fun a => (modify (f · a) : StateM σ Unit)) = modify (list.foldl f ·) := by
  induction list with
  | nil => rfl
  | cons a rest ih =>
      rw [List.forM_cons, ih]
      rfl

/-- A listener that changes a state changes it once for every diagnostic, in their order. -/
theorem tellPage_run {σ : Type} {listeners : Listeners (Diagnostic → StateM σ Unit)}
    {change : σ → Diagnostic → σ}
    (htell : ∀ diagnostic, listeners.tell diagnostic = modify (change · diagnostic))
    (text : String) (file : Option String) (registries : Registries) (state : σ) :
    (tellPage text file listeners registries).run state =
      ((compilePage text file registries).outcome,
        (compilePage text file registries).diagnostics.foldl change state) := by
  have htold := (Source.ofText text).tell_eq file listeners registries
  rw [show listeners.tell = fun diagnostic => modify (change · diagnostic) from funext htell,
    forM_modify] at htold
  exact congrArg (StateT.run · state) htold

theorem Recorder.foldl_record (recorder : Recorder) (diagnostics : List Diagnostic) :
    diagnostics.foldl Recorder.record recorder = ⟨recorder.diagnostics ++ diagnostics⟩ := by
  induction diagnostics generalizing recorder with
  | nil => simp
  | cons diagnostic rest ih => simp [ih, Recorder.record]

/-- The diagnostics among calls that go to the recorder. -/
def Ear.recorded (calls : List (Ear × Diagnostic)) : List Diagnostic :=
  (calls.filter (·.1 = .recorder)).map (·.2)

namespace BatchPage

variable (page : BatchPage) (registries : Registries)

/-- A page that is compiled alone reports its outcome and its diagnostics. -/
theorem alone_eq : page.alone registries =
    ⟨page.id, (compilePage page.source page.place registries).outcome,
      (compilePage page.source page.place registries).diagnostics⟩ := by
  have htell : ∀ diagnostic, (Listeners.hearing (fun diagnostic =>
      (modify (·.record diagnostic) : StateM Recorder Unit)) fun _ => true).tell diagnostic =
        modify (·.record diagnostic) := by
    intro diagnostic
    rw [Listeners.tell]
    cases diagnostic.severity <;> rfl
  rw [alone, tellPage_run htell, Recorder.foldl_record]
  rfl

/-- Every diagnostic is told to all who listen before the next one is. -/
theorem told_eq (ears : List Ear) : page.told registries ears =
    ((compilePage page.source page.place registries).outcome,
      (compilePage page.source page.place registries).diagnostics.flatMap fun diagnostic =>
        ears.map (·, diagnostic)) := by
  have htell : ∀ diagnostic, (Ear.listeners ears).tell diagnostic =
      modify (· ++ ears.map (·, diagnostic)) := by
    intro diagnostic
    have hcalls : ∀ calls, ears.foldl (fun calls ear => calls ++ [(ear, diagnostic)]) calls =
        calls ++ ears.map (·, diagnostic) := by
      intro calls
      rw [List.foldl_append_eq_append, ← List.flatMap_def, ← List.map_eq_flatMap]
    rw [← funext hcalls, ← forM_modify, Listeners.tell]
    cases diagnostic.severity <;> exact List.forM_map
  rw [told, tellPage_run htell, List.foldl_append_eq_append, ← List.flatMap_def, List.nil_append]

theorem outcome_told (ears : List Ear) :
    (page.told registries ears).1 = (page.alone registries).outcome := by
  rw [told_eq, alone_eq]

/-- Those who listen to a page of a batch record just what a page records that is compiled alone. -/
theorem recorded_told (options : BatchOptions) :
    Ear.recorded (page.told registries options.ears).2 = (page.alone registries).diagnostics := by
  rw [told_eq, alone_eq, Ear.recorded, List.filter_flatMap, List.map_flatMap]
  refine Eq.trans (congrArg (List.flatMap · _) (funext fun diagnostic => ?_))
    (List.flatMap_singleton' _)
  rw [BatchOptions.ears]
  split <;> rfl

end BatchPage

/-! ## Steps -/

variable {threads : Option Nat → Nat} {registries : Registries} {options : BatchOptions}

namespace BatchState

section

variable (state : BatchState) (isOk : Bool)

@[simp] theorem count_slots : (state.count isOk).slots = state.slots := by
  cases isOk <;> rfl

@[simp] theorem count_recorders : (state.count isOk).recorders = state.recorders := by
  cases isOk <;> rfl

@[simp] theorem count_succeeded :
    (state.count isOk).succeeded = state.succeeded + isOk.toNat := by
  cases isOk <;> rfl

@[simp] theorem count_failed : (state.count isOk).failed = state.failed + (!isOk).toNat := by
  cases isOk <;> rfl

end

/-- What a page can do that stands between the others. -/
inductive Step (threads : Option Nat → Nat) (registries : Registries) (options : BatchOptions)
    (state : BatchState) (before after : List BatchSlot) (page : BatchPage) :
    BatchStage → BatchState → Prop where
  | start (hmay : state.mayStart threads options before.length) :
      Step threads registries options state before after page .waiting
        { state with
          slots := before ++ ⟨page, .telling state.recorders.length
            (page.told registries options.ears).2 (page.told registries options.ears).1⟩ :: after
          recorders := state.recorders ++ [{}] }
  | tell {place : Nat} {ear : Ear} {diagnostic : Diagnostic} {ahead : List (Ear × Diagnostic)}
      {outcome : Except (Fault Location) Document} :
      Step threads registries options state before after page
        (.telling place ((ear, diagnostic) :: ahead) outcome)
        (hear { state with slots := before ++ ⟨page, .telling place ahead outcome⟩ :: after }
          place diagnostic ear)
  | count {place : Nat} {outcome : Except (Fault Location) Document} :
      Step threads registries options state before after page (.telling place [] outcome)
        (count { state with slots := before ++ ⟨page, .counted place outcome⟩ :: after }
          outcome.isOk)
  | report {place : Nat} {outcome : Except (Fault Location) Document} :
      Step threads registries options state before after page (.counted place outcome)
        { state with
          slots := before ++ ⟨page, .reported ⟨page.id, outcome,
            (state.recorders.getD place {}).diagnostics⟩⟩ :: after
          recorders := state.recorders.set place {} }

theorem step_of_move {state next : BatchState} {before after : List BatchSlot} {page : BatchPage}
    {stage : BatchStage} (hslots : state.slots = before ++ ⟨page, stage⟩ :: after)
    (hmove : state.move threads registries options before.length page stage = some next) :
    Step threads registries options state before after page stage next := by
  have hput : ∀ new, state.put before.length page new =
      { state with slots := before ++ ⟨page, new⟩ :: after } := by
    intro new
    rw [put, hslots]
    simp
  cases stage with
  | waiting =>
      simp only [move, hput] at hmove
      split at hmove
      next hmay =>
        cases hmove
        exact .start hmay
      next => cases hmove
  | telling place ahead outcome =>
      cases ahead with
      | nil =>
          rw [move, hput] at hmove
          cases hmove
          exact .count
      | cons call ahead =>
          rw [move, hput] at hmove
          cases hmove
          exact .tell
  | counted place outcome =>
      simp only [move, hput] at hmove
      cases hmove
      exact .report
  | reported report => cases hmove

/-- A step changes the stage of one page. -/
theorem step_of_advance {state next : BatchState} {index : Nat}
    (hadvance : state.advance threads registries options index = some next) :
    ∃ before after page stage, state.slots = before ++ ⟨page, stage⟩ :: after ∧
      Step threads registries options state before after page stage next := by
  obtain ⟨⟨page, stage⟩, hslot, hmove⟩ := Option.bind_eq_some_iff.mp hadvance
  obtain ⟨hlt, hget⟩ := List.getElem?_eq_some_iff.mp hslot
  have hlength : (state.slots.take index).length = index := by
    rw [List.length_take]
    omega
  have hslots : state.slots =
      state.slots.take index ++ ⟨page, stage⟩ :: state.slots.drop (index + 1) := by
    rw [← hget, List.getElem_cons_drop, List.take_append_drop]
  exact ⟨_, _, page, stage, hslots, step_of_move hslots (hlength.symm ▸ hmove)⟩

end BatchState

/-! ## Invariant -/

namespace BatchStage

/-- The place of the recorder of a page at work. -/
def place? : BatchStage → Option Nat
  | telling place .. | counted place _ => some place
  | _ => none

/-- Whether the page has been counted as one with or one without a document. -/
def isCounted (succeeded : Bool) : BatchStage → Bool
  | counted _ outcome => outcome.isOk == succeeded
  | reported report => report.succeeded == succeeded
  | _ => false

end BatchStage

/-- What a page still tells its recorder, after what the recorder holds, is what the page tells when
it is compiled alone. -/
inductive BatchSlot.Stands (registries : Registries) (recorders : List Recorder) :
    BatchSlot → Prop where
  | waiting (page : BatchPage) : Stands registries recorders ⟨page, .waiting⟩
  | telling (page : BatchPage) (place : Nat) (ahead : List (Ear × Diagnostic))
      (recorder : Recorder) (hrecorder : recorders[place]? = some recorder)
      (htold : recorder.diagnostics ++ Ear.recorded ahead = (page.alone registries).diagnostics) :
      Stands registries recorders ⟨page, .telling place ahead (page.alone registries).outcome⟩
  | counted (page : BatchPage) (place : Nat)
      (hrecorder : recorders[place]? = some ⟨(page.alone registries).diagnostics⟩) :
      Stands registries recorders ⟨page, .counted place (page.alone registries).outcome⟩
  | reported (page : BatchPage) :
      Stands registries recorders ⟨page, .reported (page.alone registries)⟩

namespace BatchSlot

variable {recorders recorders' : List Recorder}

theorem Stands.place_lt {slot : BatchSlot} {place : Nat}
    (hstands : slot.Stands registries recorders) (hplace : slot.stage.place? = some place) :
    place < recorders.length := by
  cases hstands with
  | waiting | reported => cases hplace
  | telling _ _ _ _ hrecorder | counted _ _ hrecorder =>
      cases hplace
      exact (List.getElem?_eq_some_iff.mp hrecorder).1

/-- How a page stands depends on no recorder but its own. -/
theorem Stands.of_same {slot : BatchSlot} (hstands : slot.Stands registries recorders)
    (hsame : ∀ place, slot.stage.place? = some place → recorders'[place]? = recorders[place]?) :
    slot.Stands registries recorders' := by
  cases hstands with
  | waiting => exact .waiting _
  | reported => exact .reported _
  | telling page place ahead recorder hrecorder htold =>
      exact .telling page place ahead recorder ((hsame place rfl).trans hrecorder) htold
  | counted page place hrecorder => exact .counted page place ((hsame place rfl).trans hrecorder)

end BatchSlot

namespace BatchState

/-- What holds of a batch at work, of which the pages are given. -/
structure Sound (registries : Registries) (options : BatchOptions) (pages : List BatchPage)
    (state : BatchState) : Prop where
  pages : state.slots.map (·.page) = pages
  stands : ∀ slot ∈ state.slots, slot.Stands registries state.recorders
  /-- Two pages at work have different recorders. -/
  apart : (state.slots.filterMap (·.stage.place?)).Nodup
  succeeded : state.succeeded = state.slots.countP (·.stage.isCounted true)
  failed : state.failed = state.slots.countP (·.stage.isCounted false)
  /-- A batch that stops at the first failure takes one page after the other. -/
  inTurn : options.continueOnError = false → state.slots.Pairwise fun earlier later =>
    earlier.stage.hasSucceeded ∨ later.stage.isWaiting

theorem sound_start (registries : Registries) (options : BatchOptions) (pages : List BatchPage) :
    Sound registries options pages (start pages) := by
  have hwaiting : ∀ slot ∈ (start pages).slots, slot.stage = .waiting := by
    intro slot hslot
    obtain ⟨page, -, rfl⟩ := List.mem_map.mp hslot
    rfl
  have huncounted : ∀ succeeded,
      (start pages).slots.countP (·.stage.isCounted succeeded) = 0 := by
    intro succeeded
    refine List.countP_eq_zero.mpr fun slot hslot => ?_
    rw [hwaiting slot hslot]
    exact Bool.false_ne_true
  refine ⟨?_, ?_, ?_, ?_, ?_, ?_⟩
  · simp [start, Function.comp_def]
  · intro slot hslot
    obtain ⟨page, -, rfl⟩ := List.mem_map.mp hslot
    exact .waiting page
  · have hnone : (start pages).slots.filterMap (·.stage.place?) = [] :=
      List.filterMap_eq_nil_iff.mpr fun slot hslot => by rw [hwaiting slot hslot]; rfl
    rw [hnone]
    exact .nil
  · exact (huncounted true).symm
  · exact (huncounted false).symm
  · intro _
    refine List.pairwise_iff_forall_sublist.mpr fun {earlier later} hsub => .inr ?_
    rw [hwaiting later (hsub.subset (by simp))]
    rfl

section Replacing

variable {pages : List BatchPage} {state next : BatchState} {before after : List BatchSlot}
  {page : BatchPage} {old new : BatchStage}

theorem mem_slots_of_around (hslots : state.slots = before ++ ⟨page, old⟩ :: after)
    {slot : BatchSlot} (hslot : slot ∈ before ++ after) : slot ∈ state.slots := by
  rw [hslots]
  exact List.perm_middle.mem_iff.mpr (List.mem_cons_of_mem _ hslot)

/-- The other pages at work have other recorders. -/
theorem Sound.place_ne (hsound : Sound registries options pages state)
    (hslots : state.slots = before ++ ⟨page, old⟩ :: after) {place other : Nat}
    (hplace : old.place? = some place) {slot : BatchSlot} (hslot : slot ∈ before ++ after)
    (hother : slot.stage.place? = some other) : place ≠ other := by
  rintro rfl
  have hapart := hsound.apart
  rw [hslots, (List.perm_middle.filterMap _).nodup_iff, List.filterMap_cons, hplace] at hapart
  exact (List.nodup_cons.mp hapart).1 (List.mem_filterMap.mpr ⟨slot, hslot, hother⟩)

/-- A page that keeps its recorder or takes a new one shares it with no other page. -/
theorem Sound.apart_replace (hsound : Sound registries options pages state)
    (hslots : state.slots = before ++ ⟨page, old⟩ :: after)
    (hplace : ∀ place, new.place? = some place →
      old.place? = some place ∨ place = state.recorders.length) :
    ((before ++ ⟨page, new⟩ :: after).filterMap (·.stage.place?)).Nodup := by
  have hapart := hsound.apart
  rw [hslots, (List.perm_middle.filterMap _).nodup_iff, List.filterMap_cons] at hapart
  have hrest : ((before ++ after).filterMap (·.stage.place?)).Nodup := by
    split at hapart
    next => exact hapart
    next => exact (List.nodup_cons.mp hapart).2
  rw [(List.perm_middle.filterMap _).nodup_iff, List.filterMap_cons]
  split
  next => exact hrest
  next place hnew =>
    refine List.nodup_cons.mpr ⟨fun hsame => ?_, hrest⟩
    obtain ⟨slot, hslot, hsame⟩ := List.mem_filterMap.mp hsame
    obtain hold | rfl := hplace place hnew
    · exact hsound.place_ne hslots hold hslot hsame rfl
    · have hstands := hsound.stands slot (mem_slots_of_around hslots hslot)
      exact absurd (hstands.place_lt hsame) (Nat.lt_irrefl _)

/-- Where all pages before one have a document and all after it wait, it may be at any stage. -/
theorem Sound.inTurn_replace (hsound : Sound registries options pages state)
    (hslots : state.slots = before ++ ⟨page, old⟩ :: after)
    (hstops : options.continueOnError = false) (hopen : old.hasSucceeded = false)
    (hturn : old.isWaiting → ∀ slot ∈ before, slot.stage.hasSucceeded) :
    (before ++ ⟨page, new⟩ :: after).Pairwise fun earlier later =>
      earlier.stage.hasSucceeded ∨ later.stage.isWaiting := by
  have hinTurn := hsound.inTurn hstops
  rw [hslots, List.pairwise_append, List.pairwise_cons] at hinTurn
  obtain ⟨hbefore, ⟨hlater, hafter⟩, hacross⟩ := hinTurn
  have hdone : ∀ slot ∈ before, slot.stage.hasSucceeded := by
    intro slot hslot
    obtain hsucceeded | hwaiting := hacross slot hslot _ List.mem_cons_self
    · exact hsucceeded
    · exact hturn hwaiting slot hslot
  have hwaiting : ∀ slot ∈ after, slot.stage.isWaiting := by
    intro slot hslot
    obtain hsucceeded | hwaiting := hlater slot hslot
    · exact absurd hsucceeded (by simp [hopen])
    · exact hwaiting
  rw [List.pairwise_append, List.pairwise_cons]
  exact ⟨hbefore, ⟨fun slot hslot => .inr (hwaiting slot hslot), hafter⟩,
    fun slot hslot _ _ => .inl (hdone slot hslot)⟩

theorem countP_around (succeeded : Bool) (stage : BatchStage) :
    (before ++ ⟨page, stage⟩ :: after).countP (·.stage.isCounted succeeded) =
      (before ++ after).countP (·.stage.isCounted succeeded) +
        (stage.isCounted succeeded).toNat := by
  rw [List.perm_middle.countP_eq, List.countP_cons]
  cases stage.isCounted succeeded <;> rfl

/-- What is left to show of a step that takes one page from a stage to the next. -/
theorem Sound.replace (hsound : Sound registries options pages state)
    (hslots : state.slots = before ++ ⟨page, old⟩ :: after)
    (hnext : next.slots = before ++ ⟨page, new⟩ :: after)
    (hstands : BatchSlot.Stands registries next.recorders ⟨page, new⟩)
    (hothers : ∀ slot ∈ before ++ after, ∀ place, slot.stage.place? = some place →
      next.recorders[place]? = state.recorders[place]?)
    (hplace : ∀ place, new.place? = some place →
      old.place? = some place ∨ place = state.recorders.length)
    (hsucceeded : next.succeeded + (old.isCounted true).toNat =
      state.succeeded + (new.isCounted true).toNat)
    (hfailed : next.failed + (old.isCounted false).toNat =
      state.failed + (new.isCounted false).toNat)
    (hopen : old.hasSucceeded = false)
    (hturn : options.continueOnError = false → old.isWaiting →
      ∀ slot ∈ before, slot.stage.hasSucceeded) :
    Sound registries options pages next := by
  refine ⟨?_, ?_, ?_, ?_, ?_, ?_⟩
  · rw [← hsound.pages, hslots, hnext]
    simp
  · intro slot hslot
    rw [hnext, List.perm_middle.mem_iff, List.mem_cons] at hslot
    obtain rfl | hslot := hslot
    · exact hstands
    · exact (hsound.stands slot (mem_slots_of_around hslots hslot)).of_same (hothers slot hslot)
  · rw [hnext]
    exact hsound.apart_replace hslots hplace
  · have hbefore := hsound.succeeded
    rw [hslots, countP_around] at hbefore
    rw [hnext, countP_around]
    omega
  · have hbefore := hsound.failed
    rw [hslots, countP_around] at hbefore
    rw [hnext, countP_around]
    omega
  · intro hstops
    rw [hnext]
    exact hsound.inTurn_replace hslots hstops hopen (hturn hstops)

end Replacing

/-- Every step keeps the invariant. -/
theorem Sound.step {pages : List BatchPage} {state next : BatchState}
    {before after : List BatchSlot} {page : BatchPage} {stage : BatchStage}
    (hsound : Sound registries options pages state)
    (hslots : state.slots = before ++ ⟨page, stage⟩ :: after)
    (hstep : Step threads registries options state before after page stage next) :
    Sound registries options pages next := by
  have hstands : BatchSlot.Stands registries state.recorders ⟨page, stage⟩ :=
    hsound.stands _ (by simp [hslots])
  have hlt : ∀ slot ∈ before ++ after, ∀ place, slot.stage.place? = some place →
      place < state.recorders.length := by
    intro slot hslot place hplace
    exact (hsound.stands slot (mem_slots_of_around hslots hslot)).place_lt hplace
  cases hstep with
  | start hmay =>
      refine hsound.replace hslots rfl ?_ ?_ ?_ rfl rfl rfl ?_
      · rw [page.outcome_told]
        refine .telling page _ _ {} ?_ (page.recorded_told registries options)
        simp
      · intro slot hslot place hplace
        exact List.getElem?_append_left (hlt slot hslot place hplace)
      · rintro place ⟨⟩
        exact .inr rfl
      · intro hstops _
        rw [mayStart, hstops, hslots] at hmay
        simpa using hmay
  | @tell place ear diagnostic ahead outcome =>
      cases hstands with
      | telling _ _ _ recorder hrecorder htold =>
          cases ear with
          | recorder =>
              refine hsound.replace hslots rfl ?_ ?_ (fun _ => .inl) rfl rfl rfl
                (fun _ h => nomatch h)
              · refine .telling page place ahead (recorder.record diagnostic) ?_ ?_
                · simp [hear, hrecorder]
                · rw [← htold]
                  simp [Recorder.record, Ear.recorded]
              · intro slot hslot other hother
                have hne := hsound.place_ne hslots rfl hslot hother
                simp [hear, hne]
          | log =>
              refine hsound.replace hslots rfl ?_ (fun _ _ _ _ => rfl) (fun _ => .inl) rfl rfl rfl
                (fun _ h => nomatch h)
              exact .telling page place ahead recorder hrecorder htold
  | @count place outcome =>
      cases hstands with
      | telling _ _ _ recorder hrecorder htold =>
          refine hsound.replace hslots (count_slots ..) ?_ ?_ (fun _ => .inl) ?_ ?_ rfl
            (fun _ h => nomatch h)
          · refine .counted page place ?_
            rw [count_recorders, hrecorder, ← htold]
            simp [Ear.recorded]
          · intro _ _ _ _
            rw [count_recorders]
          · simp [BatchStage.isCounted]
          · simp [BatchStage.isCounted]
  | @report place outcome =>
      cases hstands with
      | counted _ _ hrecorder =>
          have hreport : (⟨page.id, (page.alone registries).outcome,
              (state.recorders.getD place {}).diagnostics⟩ : PageReport) =
                page.alone registries := by
            rw [List.getD_eq_getElem?_getD, hrecorder, page.alone_eq]
            rfl
          refine hsound.replace hslots rfl ?_ ?_ (fun _ h => nomatch h) ?_ ?_ rfl
            (fun _ h => nomatch h)
          · rw [hreport]
            exact .reported page
          · intro slot hslot other hother
            exact List.getElem?_set_ne (hsound.place_ne hslots rfl hslot hother)
          · simp [BatchStage.isCounted, PageReport.succeeded]
          · simp [BatchStage.isCounted, PageReport.succeeded]

/-- However a schedule goes on, the invariant holds. -/
theorem sound_follow {pages : List BatchPage} {state final : BatchState} {schedule : List Nat}
    (hsound : Sound registries options pages state)
    (hfollow : state.follow threads registries options schedule = some final) :
    Sound registries options pages final := by
  induction schedule generalizing state with
  | nil =>
      cases hfollow
      exact hsound
  | cons index schedule ih =>
      rw [follow, List.foldlM_cons] at hfollow
      obtain ⟨next, hadvance, hrest⟩ := Option.bind_eq_some_iff.mp hfollow
      obtain ⟨before, after, page, stage, hslots, hstep⟩ := step_of_advance hadvance
      exact ih (hsound.step hslots hstep) hrest

end BatchState

end PageMarkup
