import PageMarkup.Proofs.Directive.Lifting
import PageMarkup.Proofs.Line.Lexemes
import PageMarkup.Tree.Nesting

/-! # Pages with a title line

What stands at the root is never looked at again. So when some lexemes nest into a forest of
their own, what is nested after them is nested as if nothing stood before. A title line in
front of a page gives one more tree at the root, which is lifted, and what stands after it is
nested, checked and lifted as if it stood alone.
-/

namespace PageMarkup

/-! ## Nesting part by part -/

/-- Open aggregates with more trees at the start of the root. -/
def Pending.onto (base : Forest) : List Pending → List Pending
  | [] => []
  | [outermost] => [{ outermost with before := outermost.before ++ base }]
  | inner :: outer :: rest => inner :: onto base (outer :: rest)

namespace Nesting

/-- The state with more trees at the start of the root, latest first. -/
def onto (base : Forest) (state : Nesting) : Nesting :=
  match state.pending with
  | [] => ⟨[], state.level ++ base⟩
  | pending => ⟨Pending.onto base pending, state.level⟩

variable (base : Forest)

theorem enter_onto (state : Nesting) (lexeme : Lexeme) :
    (onto base state).enter lexeme = onto base (state.enter lexeme) := by
  obtain ⟨pending, level⟩ := state
  unfold enter
  cases lexeme.kind.starts? with
  | some aggregate => cases pending <;> rfl
  | none => cases pending <;> rfl

/-- What a lexeme does has nothing to do with the start of the root. -/
theorem step_onto (state : Nesting) (lexeme : Lexeme) :
    (onto base state).step lexeme = onto base (state.step lexeme) := by
  obtain ⟨pending, level⟩ := state
  cases pending with
  | nil => exact enter_onto base ⟨[], level⟩ lexeme
  | cons inner outer =>
      have hopen := enter_onto base ⟨inner :: outer, level⟩ lexeme
      cases outer <;>
        · simp only [onto, Pending.onto] at hopen
          simp only [step, onto, Pending.onto]
          split
          · rfl
          · exact hopen

theorem foldl_onto (lexemes : List Lexeme) (state : Nesting) :
    lexemes.foldl step (onto base state) = onto base (lexemes.foldl step state) := by
  induction lexemes generalizing state with
  | nil => rfl
  | cons lexeme rest ih => rw [List.foldl_cons, List.foldl_cons, step_onto, ih]

theorem finish_onto (state : Nesting) :
    (onto base state).finish = state.finish.map (base.reverse ++ ·) := by
  obtain ⟨pending, level⟩ := state
  match pending with
  | [] => simp [onto, finish, Except.map]
  | [outermost] => rfl
  | inner :: outer :: rest => rfl

/-- A nesting that can be finished has nothing open. -/
theorem eq_of_finish {state : Nesting} {forest : Forest} (hfinish : state.finish = .ok forest) :
    state = ⟨[], forest.reverse⟩ := by
  obtain ⟨pending, level⟩ := state
  cases pending with
  | nil =>
      cases hfinish
      simp
  | cons inner outer => cases hfinish

end Nesting

namespace Forest

/-- What follows lexemes that nest into a forest is nested on its own. -/
theorem ofLexemes_append {first : List Lexeme} {forest : Forest}
    (hfirst : ofLexemes first = .ok forest) (second : List Lexeme) :
    ofLexemes (first ++ second) = (ofLexemes second).map (forest ++ ·) := by
  have hstate : first.foldl Nesting.step {} = Nesting.onto forest.reverse {} := by
    rw [Nesting.eq_of_finish hfirst]
    rfl
  unfold ofLexemes
  rw [List.foldl_append, hstate, Nesting.foldl_onto, Nesting.finish_onto, List.reverse_reverse]

/-- Lexemes that open nothing are the leaves of their forest. -/
theorem ofLexemes_leaves {lexemes : List Lexeme}
    (hleaves : ∀ lexeme ∈ lexemes, lexeme.kind.starts? = none) :
    ofLexemes lexemes = .ok (lexemes.map Nesting.leafOf) := by
  induction lexemes with
  | nil => rfl
  | cons lexeme rest ih =>
      obtain ⟨hlexeme, hrest⟩ := List.forall_mem_cons.mp hleaves
      have hfirst : ofLexemes [lexeme] = .ok [Nesting.leafOf lexeme] := by
        simp [ofLexemes, Nesting.step, Nesting.enter, hlexeme, Nesting.finish]
      rw [← List.singleton_append, ofLexemes_append hfirst, ih hrest]
      rfl

end Forest

/-! ## The title line -/

namespace Source

/-- The clusters of the line that gives a page the title `T`. -/
def titleLine : List String := ["!", "t", "i", "t", "l", "e", " ", "T"]

/-- The directive of the title line. -/
def titleDirective : Directive := ⟨"title", "", "T", 0⟩

theorem openLexemes_titleLine : (ofClusters titleLine).openLexemes =
    [⟨.lineMark .directive, ⟨0, 6⟩, "!title"⟩, ⟨.text, ⟨6, 8⟩, " T"⟩] := by decide +kernel

theorem directives_titleLine : (ofClusters titleLine).directives = [titleDirective] := by
  decide +kernel

theorem lexemes_titled (rest : List String) {ending : String} (hending : isNewline ending = true) :
    (ofClusters (titleLine ++ ending :: rest)).lexemes =
      (ofClusters titleLine).openLexemes ++ ⟨.newline, ⟨8, 9⟩, ending⟩ ::
        (ofClusters rest).lexemes.map (Lexeme.shift 9) := lexemes_line titleLine rest hending

theorem directives_titled (rest : List String) {ending : String}
    (hending : isNewline ending = true) :
    (ofClusters (titleLine ++ ending :: rest)).directives =
      titleDirective :: (ofClusters rest).directives.map (Directive.shift 9) := by
  rw [directives_line _ _ hending, directives_titleLine]
  rfl

end Source

/-- The tree of the title line. -/
def Tree.title : Tree :=
  Nesting.close ⟨.line .directive, ⟨0, 6⟩, []⟩ ⟨8, 9⟩ [Nesting.leafOf ⟨.text, ⟨6, 8⟩, " T"⟩]

namespace Forest

theorem ofLexemes_titled (ending : String) (lexemes : List Lexeme) :
    ofLexemes ((Source.ofClusters Source.titleLine).openLexemes ++
        ⟨.newline, ⟨8, 9⟩, ending⟩ :: lexemes) =
      (ofLexemes lexemes).map (Tree.title :: ·) := by
  have htitle : ofLexemes ((Source.ofClusters Source.titleLine).openLexemes ++
      [⟨.newline, ⟨8, 9⟩, ending⟩]) = .ok [Tree.title] := by
    rw [Source.openLexemes_titleLine]
    rfl
  rw [← List.singleton_append, ← List.append_assoc, ofLexemes_append htitle]
  rfl

theorem check_titled (forest : Forest) : check (Tree.title :: forest) = forest.check := by
  have htitle : Tree.title.faults true = [] := by decide +kernel
  simp [check, Tree.forestFaults, htitle]

theorem lifted_titled (forest : Forest) : lifted (Tree.title :: forest) = forest.lifted := by
  rw [lifted_cons, lifted_directive rfl, List.nil_append]

end Forest

end PageMarkup
