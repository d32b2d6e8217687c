import PageMarkup.Page.Telling
import PageMarkup.Proofs.Page.Outcome

/-! # What listeners hear

Telling the listeners while a page is compiled comes to the same as compiling it first and
then delivering the diagnostics one by one. So the diagnostics and the outcome do not depend
on who listens. An error is among the diagnostics just if there is no document, and then it
is the last one and tells the fault.
-/

namespace PageMarkup

variable {m : Type → Type} [Monad m]

/-! ## Delivering -/

namespace Listeners

variable {Listener : Type}

theorem deliver_cons (listeners : Listeners Listener) (diagnostic : Diagnostic)
    (rest : List Diagnostic) :
    listeners.deliver (diagnostic :: rest) =
      (listeners.of diagnostic.severity).map (·, diagnostic) ++ listeners.deliver rest :=
  List.flatMap_cons

theorem deliver_append (listeners : Listeners Listener) (first second : List Diagnostic) :
    listeners.deliver (first ++ second) = listeners.deliver first ++ listeners.deliver second :=
  List.flatMap_append

variable (listeners : Listeners (Diagnostic → m Unit))

/-- Telling a diagnostic is making the calls that it leads to. -/
theorem call_deliver_singleton (diagnostic : Diagnostic) :
    call (listeners.deliver [diagnostic]) = listeners.tell diagnostic := by
  rw [deliver_cons, show listeners.deliver [] = [] from rfl, List.append_nil, call, tell]
  induction listeners.of diagnostic.severity with
  | nil => rfl
  | cons listener rest ih => simp only [List.map_cons, List.forM_cons, ih]

/-- Leaving out progress that nobody listens to makes no difference. -/
theorem notify_eq_tell (locate : Nat → Location) (notice : Notice) :
    listeners.notify locate notice = listeners.tell (.ofNotice locate notice) := by
  unfold notify
  split
  next hunheard =>
    obtain ⟨hverbose, hnobody⟩ := hunheard
    have hnone : listeners.of (Diagnostic.ofNotice locate notice).severity = [] := by
      rw [show (Diagnostic.ofNotice locate notice).severity = .verbose from hverbose, of]
      exact List.isEmpty_iff.mp hnobody
    rw [tell, hnone]
    rfl
  next => rfl

variable [LawfulMonad m]

theorem call_append (first second : List ((Diagnostic → m Unit) × Diagnostic)) :
    call (first ++ second) = (do call first; call second) :=
  List.forM_append

/-- Making the calls of a delivery is telling the diagnostics one after the other. -/
theorem call_deliver (diagnostics : List Diagnostic) :
    call (listeners.deliver diagnostics) = forM diagnostics listeners.tell := by
  induction diagnostics with
  | nil => rfl
  | cons diagnostic rest ih =>
      rw [List.forM_cons, ← ih, ← call_deliver_singleton, ← call_append, ← deliver_append,
        List.singleton_append]

end Listeners

/-! ## Compiling -/

/-- What has been noted, without the ends of the passes. -/
def Happening.notices (happenings : List Happening) : List Notice :=
  happenings.filterMap fun
    | .noted notice => some notice
    | .passed _ => none

namespace Happening

theorem notices_append (first second : List Happening) :
    notices (first ++ second) = notices first ++ notices second := List.filterMap_append

theorem notices_noted (notices : List Notice) :
    Happening.notices (notices.map .noted) = notices := by
  rw [Happening.notices, List.filterMap_map]
  exact List.filterMap_some

/-- The diagnostics among the events of happenings are those of the notices. -/
theorem diagnostics_events (locate : Nat → Location) (happenings : List Happening)
    (outcome : Except (Fault Location) Document) :
    Compilation.diagnostics ⟨happenings.map (Happening.event locate), outcome⟩ =
      (notices happenings).map (.ofNotice locate) := by
  rw [Compilation.diagnostics, List.filterMap_map, notices, List.map_filterMap]
  congr 1
  funext happening
  cases happening <;> rfl

end Happening

open Happening

variable [LawfulMonad m]

theorem Draft.runTelling_eq (source : Source) (registries : Registries) (notify : Notice → m Unit)
    (passes : List Pass) (draft : Draft) :
    runTelling source registries notify passes draft = (do
      forM (Happening.notices (runPasses source registries passes draft).1) notify
      pure (runPasses source registries passes draft).2) := by
  induction passes generalizing draft with
  | nil => simp [runTelling, runPasses, notices]
  | cons pass passes ih =>
      rw [runTelling, runPasses]
      cases pass.run source registries draft with
      | error fault => simp [notices]
      | ok result =>
          obtain ⟨next, notices⟩ := result
          dsimp only
          rw [ih next, notices_append, notices_noted, List.forM_append, bind_assoc]
          rfl

/-- What is told of the passes is what is noted, but for the last notice about a page that has a
document. -/
theorem Source.compileTelling_eq (source : Source) (registries : Registries)
    (notify : Notice → m Unit) :
    ∃ notices, source.compileTelling registries notify = (do
        forM notices notify
        pure (source.compile registries).2) ∧
      Happening.notices (source.compile registries).1 =
        notices ++ match (source.compile registries).2 with
          | .ok document => [⟨.pageParsed document.title.text, none⟩]
          | .error _ => [] := by
  rw [compileTelling, compile]
  cases hempty : source.isEmpty with
  | true => exact ⟨[], by simp, rfl⟩
  | false =>
      simp only [Bool.false_eq_true, if_false]
      cases hbody : Forest.ofLexemes source.lexemes with
      | error fault => exact ⟨[], by simp, rfl⟩
      | ok body =>
          dsimp only
          refine ⟨⟨.treeBuilt (body.size + 1), none⟩ ::
            Happening.notices (Draft.runPasses source registries Pass.inOrder { body }).1, ?_, ?_⟩
          · rw [Draft.runTelling_eq, List.forM_cons]
            cases hfinish :
                (Draft.runPasses source registries Pass.inOrder { body }).2.bind Draft.finish <;>
              simp [hfinish]
          · cases hfinish :
                (Draft.runPasses source registries Pass.inOrder { body }).2.bind Draft.finish <;>
              simp [notices]

/-- The diagnostics of a compilation are those of what was noted, and the fault at the end if there
is one. -/
theorem Source.diagnostics_compilation (source : Source) (file : Option String)
    (registries : Registries) :
    (source.compilation file registries).diagnostics =
      (Happening.notices (source.compile registries).1).map
          (.ofNotice (locationOn source.lineStarts file)) ++
        match (source.compilation file registries).outcome with
        | .ok _ => []
        | .error fault => [Diagnostic.ofFault fault] := by
  rw [compilation]
  generalize source.compile registries = run
  obtain ⟨happenings, outcome⟩ := run
  cases outcome with
  | ok document => exact (Happening.diagnostics_events ..).trans (List.append_nil _).symm
  | error fault =>
      refine List.filterMap_append.trans (congrArg (· ++ _) ?_)
      exact Happening.diagnostics_events _ happenings (.error .emptyInput)

/-- Telling is compiling, and then telling the diagnostics one after the other. -/
theorem Source.tell_eq (source : Source) (file : Option String)
    (listeners : Listeners (Diagnostic → m Unit)) (registries : Registries) :
    source.tell file listeners registries = (do
      forM (source.compilation file registries).diagnostics listeners.tell
      pure (source.compilation file registries).outcome) := by
  obtain ⟨notices, htold, hnotices⟩ :=
    source.compileTelling_eq registries (listeners.notify (locationOn source.lineStarts file))
  rw [diagnostics_compilation, hnotices, tell, htold, compilation]
  generalize source.compile registries = run
  obtain ⟨happenings, outcome⟩ := run
  have hnotify : listeners.notify (locationOn source.lineStarts file) =
      fun notice => listeners.tell (.ofNotice (locationOn source.lineStarts file) notice) :=
    funext fun notice => listeners.notify_eq_tell _ notice
  cases outcome with
  | ok document => simp [hnotify, List.forM_append, List.forM_map]
  | error fault => simp [hnotify, List.forM_append, List.forM_map]

/-! ## What is told -/

theorem Remark.severity_ne_error (remark : Remark) : remark.severity ≠ .error := by
  cases remark <;> exact Severity.noConfusion

/-- There is one error among the diagnostics if there is a fault, and there is none otherwise. -/
theorem Source.errors_compilation (source : Source) (file : Option String)
    (registries : Registries) :
    (source.compilation file registries).diagnostics.filter (·.severity = .error) =
      match (source.compilation file registries).outcome with
      | .ok _ => []
      | .error fault => [.ofFault fault] := by
  have hnoted : ((Happening.notices (source.compile registries).1).map
      (Diagnostic.ofNotice (locationOn source.lineStarts file))).filter (·.severity = .error) =
        [] := by
    rw [List.filter_eq_nil_iff]
    intro diagnostic hdiagnostic
    obtain ⟨notice, -, rfl⟩ := List.mem_map.mp hdiagnostic
    exact fun herror => notice.remark.severity_ne_error (of_decide_eq_true herror)
  rw [diagnostics_compilation, List.filter_append, hnoted, List.nil_append]
  cases (source.compilation file registries).outcome <;> rfl

/-- Whoever listens, to compile a text is to make the calls that deliver its diagnostics and to
return its outcome. Each diagnostic goes to the listeners of its severity, in their order, after
all calls for the ones before it and before all calls for the ones after it. If there is a fault,
the last diagnostic tells it and is the only error, and otherwise there is no error. -/
theorem tellPage_delivers (text : String) (file : Option String) (registries : Registries) :
    (∀ (m : Type → Type) [Monad m] [LawfulMonad m]
        (listeners : Listeners (Diagnostic → m Unit)),
      tellPage text file listeners registries = (do
        Listeners.call (listeners.deliver (compilePage text file registries).diagnostics)
        pure (compilePage text file registries).outcome)) ∧
    (∀ (Listener : Type) (listeners : Listeners Listener) before diagnostic after,
      (compilePage text file registries).diagnostics = before ++ diagnostic :: after →
      listeners.deliver (compilePage text file registries).diagnostics =
        listeners.deliver before ++
          (listeners.of diagnostic.severity).map (·, diagnostic) ++ listeners.deliver after) ∧
    (∀ fault, (compilePage text file registries).outcome = .error fault →
      ∃ diagnostic,
        (compilePage text file registries).diagnostics.getLast? = some diagnostic ∧
        (compilePage text file registries).diagnostics.filter (·.severity = .error) =
          [diagnostic] ∧
        diagnostic.message = fault.message ∧ diagnostic.location = fault.place?) ∧
    ∀ document, (compilePage text file registries).outcome = .ok document →
      ∀ diagnostic ∈ (compilePage text file registries).diagnostics,
        diagnostic.severity ≠ .error := by
  have herrors := (Source.ofText text).errors_compilation file registries
  have hall := (Source.ofText text).diagnostics_compilation file registries
  refine ⟨?_, ?_, ?_, ?_⟩
  · intro m _ _ listeners
    rw [Listeners.call_deliver]
    exact (Source.ofText text).tell_eq file listeners registries
  · intro Listener listeners before diagnostic after hsplit
    rw [hsplit, Listeners.deliver_append, Listeners.deliver_cons, List.append_assoc]
  · intro fault hfault
    have houtcome : ((Source.ofText text).compilation file registries).outcome = .error fault :=
      hfault
    rw [houtcome] at herrors hall
    exact ⟨.ofFault fault, (congrArg List.getLast? hall).trans List.getLast?_concat, herrors,
      rfl, rfl⟩
  · intro document hdocument diagnostic hmem herror
    have houtcome : ((Source.ofText text).compilation file registries).outcome = .ok document :=
      hdocument
    rw [houtcome] at herrors
    exact absurd (decide_eq_true herror) (List.filter_eq_nil_iff.mp herrors diagnostic hmem)

/-- A page with a warning and a fault, where nobody listens to progress, two listen to warnings
and one listens to errors, and a page that has a document. -/
theorem tellPage_delivers_both :
    let hear (listener : Nat) (diagnostic : Diagnostic) : StateM (List (Nat × String)) Unit :=
      modify (· ++ [(listener, diagnostic.message)])
    let faulty := compilePage "\x7b\x7d" none .empty
    let fine := compilePage "!title T" none .empty
    ((tellPage "\x7b\x7d" none ⟨[], [hear 0, hear 1], [hear 2]⟩ .empty).run []).2 =
      [(0, "Removed empty 'note_ref'"), (1, "Removed empty 'note_ref'"),
        (2, "Missing required 'title' directive")] ∧
    (∃ before diagnostic after, faulty.diagnostics = before ++ diagnostic :: after ∧
      (⟨[], [0, 1], [2]⟩ : Listeners Nat).deliver faulty.diagnostics =
        Listeners.deliver ⟨[], [0, 1], [2]⟩ before ++ [(0, diagnostic), (1, diagnostic)] ++
          Listeners.deliver ⟨[], [0, 1], [2]⟩ after) ∧
    (∃ fault diagnostic, faulty.outcome = .error fault ∧
      faulty.diagnostics.getLast? = some diagnostic ∧ diagnostic.message = fault.message) ∧
    ∃ document, fine.outcome = .ok document ∧
      ∀ diagnostic ∈ fine.diagnostics, diagnostic.severity ≠ .error := by
  intro hear faulty fine
  have hfault : ∃ fault, faulty.outcome = .error fault := by
    have hfailed : faulty.succeeded = false := by decide +kernel
    cases houtcome : faulty.outcome with
    | ok document => rw [Compilation.succeeded, houtcome] at hfailed; cases hfailed
    | error fault => exact ⟨fault, rfl⟩
  have hdocument : ∃ document, fine.outcome = .ok document := by
    have hdone : fine.succeeded = true := by decide +kernel
    cases houtcome : fine.outcome with
    | error fault => rw [Compilation.succeeded, houtcome] at hdone; cases hdone
    | ok document => exact ⟨document, rfl⟩
  obtain ⟨htold, hsplit, hfailed, -⟩ := tellPage_delivers "\x7b\x7d" none .empty
  refine ⟨?_, ?_, ?_, ?_⟩
  · rw [htold]
    decide +kernel
  · have hall : faulty.diagnostics = [⟨.verbose, "Built tree with 3 nodes", none⟩] ++
        ⟨.warning, "Removed empty 'note_ref'", some ⟨none, 0, 1, 1⟩⟩ ::
          [⟨.error, "Missing required 'title' directive", none⟩] := by decide +kernel
    exact ⟨_, _, _, hall, hsplit Nat ⟨[], [0, 1], [2]⟩ _ _ _ hall⟩
  · obtain ⟨fault, hfault⟩ := hfault
    obtain ⟨diagnostic, hlast, -, hmessage, -⟩ := hfailed fault hfault
    exact ⟨fault, diagnostic, hfault, hlast, hmessage⟩
  · obtain ⟨document, hdocument⟩ := hdocument
    exact ⟨document, hdocument,
      (tellPage_delivers "!title T" none .empty).2.2.2 document hdocument⟩

end PageMarkup
