import Mathlib.Algebra.GroupWithZero.Nat
import PageMarkup.Proofs.Batch.Steps

/-! # Reports of batches

However the threads of a pool take turns, a batch comes to an end, and then it reports of each page
what the page reports when it is compiled alone, up to the first failure if it stops there.
-/

namespace PageMarkup

variable {threads : Option Nat → Nat} {registries : Registries} {options : BatchOptions}

/-! ## Ends -/

namespace BatchState

section Ends

variable {pages : List BatchPage} {state : BatchState}

theorem advance_middle {before after : List BatchSlot} {page : BatchPage} {stage : BatchStage}
    (hslots : state.slots = before ++ ⟨page, stage⟩ :: after) :
    state.advance threads registries options before.length =
      state.move threads registries options before.length page stage := by
  rw [advance, hslots, List.getElem?_append_right (Nat.le_refl _), Nat.sub_self]
  rfl

theorem Ended.move_eq_none (hended : state.Ended threads registries options)
    {before after : List BatchSlot} {page : BatchPage} {stage : BatchStage}
    (hslots : state.slots = before ++ ⟨page, stage⟩ :: after) :
    state.move threads registries options before.length page stage = none := by
  rw [← advance_middle hslots]
  refine Option.isNone_iff_eq_none.mp (hended before.length ?_)
  rw [hslots]
  simp

/-- At the end nobody is at work. -/
theorem Ended.isActive_eq_false (hended : state.Ended threads registries options) :
    ∀ slot ∈ state.slots, slot.stage.isActive = false := by
  rintro ⟨page, stage⟩ hslot
  obtain ⟨before, after, hslots⟩ := List.append_of_mem hslot
  have hnone := hended.move_eq_none hslots
  cases stage with
  | waiting | reported => rfl
  | counted => cases hnone
  | telling place ahead outcome => cases ahead <;> cases hnone

/-- At the end no page that waits may be taken up. -/
theorem Ended.mayStart_eq_false (hended : state.Ended threads registries options)
    {before after : List BatchSlot} {page : BatchPage}
    (hslots : state.slots = before ++ ⟨page, .waiting⟩ :: after) :
    state.mayStart threads options before.length = false := by
  have hnone := hended.move_eq_none hslots
  rw [move] at hnone
  split at hnone
  next => cases hnone
  next hmay => exact eq_false_of_ne_true hmay

end Ends

end BatchState

namespace BatchSlot

variable {recorders : List Recorder}

/-- A page that neither waits nor is at work is reported as it is when compiled alone. -/
theorem Stands.report?_eq {slot : BatchSlot} (hstands : slot.Stands registries recorders)
    (hidle : slot.stage.isActive = false) (hbegun : slot.stage.isWaiting = false) :
    slot.stage.report? = some (slot.page.alone registries) := by
  cases hstands with
  | waiting => cases hbegun
  | telling | counted => cases hidle
  | reported => rfl

/-- Pages that were taken one after the other are reported up to the first failure. -/
theorem reports_inTurn {slots : List BatchSlot}
    (hstands : ∀ slot ∈ slots, slot.Stands registries recorders)
    (hidle : ∀ slot ∈ slots, slot.stage.isActive = false)
    (hturn : slots.Pairwise fun earlier later =>
      earlier.stage.hasSucceeded ∨ later.stage.isWaiting)
    (hstuck : ∀ before page after, slots = before ++ ⟨page, .waiting⟩ :: after →
      ¬∀ slot ∈ before, slot.stage.hasSucceeded) :
    slots.filterMap (·.stage.report?) =
      Batch.upToFirst (!·.succeeded) (slots.map (·.page.alone registries)) := by
  induction slots with
  | nil => rfl
  | cons slot rest ih =>
      rw [List.forall_mem_cons] at hstands hidle
      obtain ⟨hlater, hrest⟩ := List.pairwise_cons.mp hturn
      have hbegun : slot.stage.isWaiting = false := by
        obtain ⟨page, stage⟩ := slot
        cases stage with
        | waiting => exact absurd (by simp) (hstuck [] page rest rfl)
        | _ => rfl
      have hreport := hstands.1.report?_eq hidle.1 hbegun
      rw [List.filterMap_cons, hreport, List.map_cons, Batch.upToFirst]
      cases hok : (slot.page.alone registries).succeeded with
      | true =>
          have hsucceeded : slot.stage.hasSucceeded := by
            rw [BatchStage.hasSucceeded, hreport]
            exact hok
          simp only [Bool.not_true, Bool.false_eq_true, if_false]
          rw [ih hstands.2 hidle.2 hrest]
          intro before page after hsplit hbefore
          refine hstuck (slot :: before) page after (by rw [hsplit]; rfl) ?_
          exact List.forall_mem_cons.mpr ⟨hsucceeded, hbefore⟩
      | false =>
          have hfailed : ¬slot.stage.hasSucceeded := by
            rw [BatchStage.hasSucceeded, hreport]
            simp [hok]
          have hnone : rest.filterMap (·.stage.report?) = [] := by
            refine List.filterMap_eq_nil_iff.mpr fun other hother => ?_
            have hwaiting := (hlater other hother).resolve_left hfailed
            obtain ⟨page, stage⟩ := other
            cases stage with
            | waiting => rfl
            | _ => cases hwaiting
          simp [hnone]

end BatchSlot

namespace BatchState

variable {pages : List BatchPage} {state : BatchState}

/-- At the end of a batch the reports are those of the pages alone, up to the first failure if the
batch stops there. -/
theorem Sound.results_of_ended (hsound : Sound registries options pages state)
    (hthreads : 0 < threads options.maxThreads)
    (hended : state.Ended threads registries options) :
    state.report.results =
      if options.continueOnError then pages.map (·.alone registries)
      else Batch.upToFirst (!·.succeeded) (pages.map (·.alone registries)) := by
  have hidle := hended.isActive_eq_false
  rw [← hsound.pages, List.map_map, Function.comp_def, report]
  split
  next hcontinues =>
    have hbegun : ∀ slot ∈ state.slots, slot.stage.isWaiting = false := by
      rintro ⟨page, stage⟩ hslot
      cases stage with
      | waiting =>
          obtain ⟨before, after, hslots⟩ := List.append_of_mem hslot
          have hmay := hended.mayStart_eq_false hslots
          have hnone : state.slots.countP (·.stage.isActive) = 0 :=
            List.countP_eq_zero.mpr fun slot hslot => by simp [hidle slot hslot]
          rw [mayStart, if_pos hcontinues, hnone] at hmay
          exact absurd (decide_eq_true hthreads) (by simp [hmay])
      | _ => rfl
    rw [← List.filterMap_eq_map]
    exact List.filterMap_congr fun slot hslot =>
      (hsound.stands slot hslot).report?_eq (hidle slot hslot) (hbegun slot hslot)
  next hstops =>
    refine BatchSlot.reports_inTurn hsound.stands hidle
      (hsound.inTurn (eq_false_of_ne_true hstops)) ?_
    intro before page after hslots hsucceeded
    have hmay := hended.mayStart_eq_false hslots
    rw [mayStart, if_neg hstops, hslots, List.take_left', List.all_eq_false] at hmay
    · obtain ⟨slot, hslot, hfailed⟩ := hmay
      exact hfailed (hsucceeded slot hslot)
    · rfl

/-- If nobody is at work, the pages that have been counted are those that have been reported. -/
theorem countP_isCounted (hidle : ∀ slot ∈ state.slots, slot.stage.isActive = false)
    (succeeded : Bool) :
    state.slots.countP (·.stage.isCounted succeeded) =
      state.report.results.countP (·.succeeded == succeeded) := by
  rw [report, List.countP_filterMap]
  refine List.countP_congr fun slot hslot => ?_
  have hactive := hidle slot hslot
  obtain ⟨page, stage⟩ := slot
  cases stage with
  | waiting => simp [BatchStage.isCounted, BatchStage.report?]
  | telling | counted => cases hactive
  | reported report => simp [BatchStage.isCounted, BatchStage.report?]

theorem Sound.stats_of_ended (hsound : Sound registries options pages state)
    (hended : state.Ended threads registries options) :
    state.report.stats =
      ⟨pages.length, state.report.results.countP (·.succeeded),
        state.report.results.countP (!·.succeeded)⟩ := by
  have hidle := hended.isActive_eq_false
  have hsucceeded := hsound.succeeded.trans (countP_isCounted hidle true)
  have hfailed := hsound.failed.trans (countP_isCounted hidle false)
  rw [← hsound.pages, List.length_map]
  simp only [beq_true, beq_false] at hsucceeded hfailed
  rw [← hsucceeded, ← hfailed]
  rfl

end BatchState

theorem Batch.upToFirst_map {α β : Type} (p : β → Bool) (f : α → β) (list : List α) :
    Batch.upToFirst p (list.map f) = (Batch.upToFirst (p ∘ f) list).map f := by
  induction list with
  | nil => rfl
  | cons a rest ih =>
      simp only [List.map_cons, upToFirst, Function.comp_apply, ih]
      split <;> rfl

/-- What a batch reports of a page that it has compiled. -/
def BatchResult.report (result : BatchResult) : PageReport :=
  ⟨result.id, result.compilation.outcome, result.compilation.diagnostics⟩

/-- However the threads take turns, the report is that of a batch whose pages are compiled in one
go. -/
theorem BatchState.Sound.report_eq_run {pages : List BatchPage} {state : BatchState}
    (hsound : Sound registries options pages state) (hthreads : 0 < threads options.maxThreads)
    (hended : state.Ended threads registries options) :
    state.report = ⟨(Batch.run registries options.continueOnError pages).results.map (·.report),
      (Batch.run registries options.continueOnError pages).stats⟩ := by
  have halone : pages.map (·.alone registries) =
      (pages.map (BatchPage.compile registries)).map (·.report) := by
    rw [List.map_map]
    exact List.map_congr_left fun page _ => page.alone_eq registries
  have hresults : state.report.results =
      (Batch.run registries options.continueOnError pages).results.map (·.report) := by
    rw [hsound.results_of_ended hthreads hended, halone, Batch.upToFirst_map, Batch.run,
      Batch.ofResults, Batch.untilFailure_eq_upToFirst]
    split <;> rfl
  have hstats := hsound.stats_of_ended hended
  rw [hresults, List.countP_map, List.countP_map] at hstats
  exact congr (congrArg BatchReport.mk hresults) hstats

/-! ## Runs to the end -/

/-- Number of steps that a page still takes. -/
def BatchSlot.remaining (registries : Registries) (options : BatchOptions) (slot : BatchSlot) :
    Nat :=
  match slot.stage with
  | .waiting => (slot.page.told registries options.ears).2.length + 3
  | .telling _ ahead _ => ahead.length + 2
  | .counted .. => 1
  | .reported _ => 0

namespace BatchState

/-- Number of steps that the pages of a batch still take. -/
def remaining (registries : Registries) (options : BatchOptions) (state : BatchState) : Nat :=
  (state.slots.map (·.remaining registries options)).sum

/-- Every step brings the batch one step closer to its end. -/
theorem Step.remaining_succ {state next : BatchState} {before after : List BatchSlot}
    {page : BatchPage} {stage : BatchStage}
    (hslots : state.slots = before ++ ⟨page, stage⟩ :: after)
    (hstep : Step threads registries options state before after page stage next) :
    next.remaining registries options + 1 = state.remaining registries options := by
  have hsum : ∀ stage, ((before ++ ⟨page, stage⟩ :: after).map
      (·.remaining registries options)).sum =
        BatchSlot.remaining registries options ⟨page, stage⟩ +
          ((before ++ after).map (·.remaining registries options)).sum := by
    intro stage
    simp only [List.map_append, List.map_cons, List.sum_append, List.sum_cons]
    omega
  rw [remaining, remaining, hslots, hsum]
  cases hstep with
  | start =>
      rw [hsum]
      simp only [BatchSlot.remaining]
      omega
  | @tell _ ear =>
      have hheard : ∀ state : BatchState, ∀ place diagnostic,
          (state.hear place diagnostic ear).slots = state.slots := by
        intro _ _ _
        cases ear <;> rfl
      rw [hheard, hsum]
      simp only [BatchSlot.remaining, List.length_cons]
      omega
  | count =>
      rw [count_slots, hsum]
      simp only [BatchSlot.remaining, List.length_nil]
      omega
  | report =>
      rw [hsum]
      simp only [BatchSlot.remaining]
      omega

/-- From every state of a batch the pages can go on to an end. -/
theorem exists_ended (threads : Option Nat → Nat) (registries : Registries)
    (options : BatchOptions) (state : BatchState) :
    ∃ schedule final, state.follow threads registries options schedule = some final ∧
      final.Ended threads registries options := by
  induction hremaining : state.remaining registries options using Nat.strongRecOn generalizing state
    with
  | ind remaining ih =>
      by_cases hended : state.Ended threads registries options
      · exact ⟨[], state, rfl, hended⟩
      · obtain ⟨index, -, hsome⟩ : ∃ index, index < state.slots.length ∧
            ¬(state.advance threads registries options index).isNone := by
          rw [Ended] at hended
          push Not at hended
          exact hended
        obtain ⟨next, hnext⟩ :=
          Option.ne_none_iff_exists'.mp (mt Option.isNone_iff_eq_none.mpr hsome)
        obtain ⟨before, after, page, stage, hslots, hstep⟩ := step_of_advance hnext
        have hless := hstep.remaining_succ hslots
        obtain ⟨schedule, final, hfollow, hfinal⟩ := ih _ (by omega) next rfl
        refine ⟨index :: schedule, final, ?_, hfinal⟩
        rw [follow, List.foldlM_cons, hnext]
        exact hfollow

theorem follow_append {state next : BatchState} {schedule : List Nat}
    (hfollow : state.follow threads registries options schedule = some next) (more : List Nat) :
    state.follow threads registries options (schedule ++ more) =
      next.follow threads registries options more := by
  rw [follow, List.foldlM_append]
  rw [follow] at hfollow
  rw [hfollow]
  rfl

/-- Whatever schedule a batch follows, it can go on to its end, and at its end it reports of every
page what is reported of the page alone, up to the first failure if the batch stops there. The
counters are the numbers of reported pages with and without a document. -/
theorem report_of_schedule (threads : Option Nat → Nat) (hthreads : ∀ cap, 0 < threads cap)
    (registries : Registries) (options : BatchOptions) (pages : List BatchPage)
    (schedule : List Nat) (state : BatchState)
    (hfollow : (start pages).follow threads registries options schedule = some state) :
    (∃ more final,
      (start pages).follow threads registries options (schedule ++ more) = some final ∧
      final.Ended threads registries options) ∧
    (state.Ended threads registries options →
      (options.continueOnError = true →
        state.report.results = pages.map (·.alone registries)) ∧
      (options.continueOnError = false →
        state.report.results =
          Batch.upToFirst (!·.succeeded) (pages.map (·.alone registries))) ∧
      state.report.stats.total = pages.length ∧
      state.report.stats.succeeded = state.report.results.countP (·.outcome.isOk) ∧
      state.report.stats.failed = state.report.results.countP (!·.outcome.isOk) ∧
      state.report.stats.succeeded + state.report.stats.failed = state.report.results.length ∧
      state.report.failures = state.report.results.filter (!·.outcome.isOk) ∧
      state.report.failures.length = state.report.stats.failed) := by
  constructor
  · obtain ⟨more, final, hmore, hended⟩ := exists_ended threads registries options state
    exact ⟨more, final, (follow_append hfollow more).trans hmore, hended⟩
  · intro hended
    have hsound := sound_follow (sound_start registries options pages) hfollow
    have hresults := hsound.results_of_ended (hthreads _) hended
    have hstats := hsound.stats_of_ended hended
    rw [hstats]
    refine ⟨?_, ?_, rfl, rfl, rfl, ?_, rfl, List.countP_eq_length_filter.symm⟩
    · intro hcontinues
      rw [hresults, if_pos hcontinues]
    · intro hstops
      rw [hresults, if_neg (by simp [hstops])]
    · rw [List.length_eq_countP_add_countP PageReport.succeeded]
      simp

/-- Two threads and three pages. The second page fails while the first is at work, and the third
page is taken up before the first is reported. -/
theorem report_of_schedule_three :
    let threads : Option Nat → Nat := fun cap => if cap.getD 0 = 0 then 4 else cap.getD 0
    let options : BatchOptions := { maxThreads := some 2 }
    let pages : List BatchPage :=
      [⟨"a", "!title A\n\x7bx\x7d", none⟩, ⟨"b", "*", some "file"⟩, ⟨"c", "!title C", none⟩]
    let schedule := [0, 1, 0, 1, 1, 1, 1] ++ List.replicate 9 2 ++ List.replicate 9 0
    (∀ cap, 0 < threads cap) ∧
    ∃ final, (start pages).follow threads .empty options schedule = some final ∧
      final.Ended threads .empty options ∧
      final.report.results = pages.map (·.alone .empty) ∧
      final.report.stats = ⟨3, 2, 1⟩ ∧ final.report.failures.map (·.id) = ["b"] := by
  intro threads options pages schedule
  have hthreads : ∀ cap, 0 < threads cap := by
    intro cap
    simp only [threads]
    split <;> omega
  have hrun : ((start pages).follow threads .empty options schedule).any (fun final =>
      final.Ended threads .empty options ∧ final.report.stats = ⟨3, 2, 1⟩ ∧
        final.report.failures.map (·.id) = ["b"]) = true := by decide +kernel
  obtain ⟨final, hfollow, hfinal⟩ := (Option.any_eq_true _ _).mp hrun
  obtain ⟨hended, hstats, hfailures⟩ := of_decide_eq_true hfinal
  have hreport := report_of_schedule threads hthreads .empty options pages schedule final hfollow
  exact ⟨hthreads, final, hfollow, hended, (hreport.2 hended).1 rfl, hstats, hfailures⟩

end BatchState

end PageMarkup
