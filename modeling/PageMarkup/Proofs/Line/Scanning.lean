import Mathlib.Data.List.TakeWhile
import PageMarkup.Lexeme

/-! # Scanning line by line

No mark reaches over a newline, and after one the scanner is where it was at the start
of the source: a line starts, nothing is taken away by a backslash, and no text goes on
the text before. So the tokens of a source are those of its lines one after the other,
each line's spans counted on from the end of the line before.
-/

namespace PageMarkup

/-- The span counted from `distance` clusters earlier. -/
def Span.shift (distance : Nat) (span : Span) : Span :=
  ⟨span.start + distance, span.stop + distance⟩

theorem Span.cover_shift (distance : Nat) (a b : Span) :
    (a.shift distance).cover (b.shift distance) = (a.cover b).shift distance := by
  simp [cover, shift, Nat.add_min_add_right, Nat.add_max_add_right]

/-! ## Seeing a cluster -/

namespace Glyph

theorem isEscapable_of_ofMarker? {characters : List Char} {glyph : Glyph}
    (hmarker : ofMarker? characters = some glyph) : glyph.isEscapable = true := by
  unfold ofMarker? at hmarker
  split at hmarker <;> cases hmarker <;> rfl

/-- What the scanner sees of a cluster, and what that tells of the cluster. -/
inductive Sees (cluster : String) : Glyph → Prop where
  | newline (hline : Source.isNewline cluster = true) : Sees cluster .newline
  | carriageReturn (hreturn : cluster = "\r") : Sees cluster .carriageReturn
  | marker {glyph : Glyph} (hmarker : ofMarker? cluster.toList = some glyph)
      (hescapable : glyph.isEscapable = true) : Sees cluster glyph
  | blank (hblank : cluster.toList.head?.any Text.isBlank = true) : Sees cluster .blank
  | other : Sees cluster .other

theorem sees_ofCluster (cluster : String) : Sees cluster (ofCluster cluster) := by
  unfold ofCluster
  split
  next hline => exact .newline hline
  next =>
    split
    next hreturn => exact .carriageReturn (String.toList_inj.mp hreturn)
    next =>
      split
      next hmarker => exact .marker hmarker (isEscapable_of_ofMarker? hmarker)
      next =>
        split
        next hblank => exact .blank hblank
        next => exact .other

end Glyph

namespace Token

/-- The token counted from `distance` clusters earlier. -/
def shift (distance : Nat) (token : Token) : Token := ⟨token.kind, token.span.shift distance⟩

@[simp] theorem kind_shift (distance : Nat) (token : Token) :
    (token.shift distance).kind = token.kind := rfl

/-! ## Pushing a token -/

/-- What is no text stands by itself. -/
theorem push_of_ne_text {kind : Kind} (hkind : kind ≠ .text) (span : Span) (done : List Token) :
    Token.push kind span done = ⟨kind, span⟩ :: done := by
  cases done <;> simp [Token.push, hkind]

/-- A token stands by itself, or it is a text and goes on the text that ends where it starts. -/
theorem push_cases (kind : Kind) (start stop : Nat) (done : List Token) :
    push kind ⟨start, stop⟩ done = ⟨kind, ⟨start, stop⟩⟩ :: done ∨
      ∃ first before, kind = .text ∧ done = ⟨.text, ⟨first, start⟩⟩ :: before ∧
        push kind ⟨start, stop⟩ done = ⟨.text, ⟨first, stop⟩⟩ :: before := by
  unfold push
  split
  next => exact .inl rfl
  next token before =>
    obtain ⟨other, first, last⟩ := token
    split
    next hjoin =>
      obtain ⟨rfl, hother, hlast⟩ := hjoin
      obtain rfl : other = .text := hother
      obtain rfl : last = start := hlast
      exact .inr ⟨first, before, rfl, rfl, rfl⟩
    next => exact .inl rfl

/-- What holds of a token and goes on with a text holds of all tokens. -/
theorem forall_mem_push {P : Token → Prop} {kind : Kind} {start stop : Nat} {done : List Token}
    (hnew : P ⟨kind, ⟨start, stop⟩⟩)
    (hjoined : ∀ first, P ⟨.text, ⟨first, start⟩⟩ → P ⟨.text, ⟨first, stop⟩⟩)
    (hdone : ∀ token ∈ done, P token) : ∀ token ∈ push kind ⟨start, stop⟩ done, P token := by
  rcases push_cases kind start stop done with hpush | ⟨first, before, -, rfl, hpush⟩
  · rw [hpush]
    exact List.forall_mem_cons.mpr ⟨hnew, hdone⟩
  · obtain ⟨hfirst, hbefore⟩ := List.forall_mem_cons.mp hdone
    rw [hpush]
    exact List.forall_mem_cons.mpr ⟨hjoined first hfirst, hbefore⟩

/-! ## After a newline -/

section Base

variable {base : List Token}

theorem atLineStart_append (hbase : atLineStart base = true) (done : List Token) :
    atLineStart (done ++ base) = atLineStart done := by
  cases done with
  | nil => exact hbase
  | cons => rfl

theorem escapes_append (hbase : atLineStart base = true) (done : List Token) (index : Nat) :
    escapes (done ++ base) index = escapes done index := by
  cases done with
  | cons => rfl
  | nil =>
      cases base with
      | nil => rfl
      | cons token before =>
          have hkind : token.kind = .newline := by simpa [atLineStart] using hbase
          simp [escapes, hkind]

theorem push_append (hbase : atLineStart base = true) (kind : Kind) (span : Span)
    (done : List Token) : push kind span (done ++ base) = push kind span done ++ base := by
  cases done with
  | cons token before =>
      simp only [List.cons_append, push]
      split <;> rfl
  | nil =>
      cases base with
      | nil => rfl
      | cons token before =>
          have hkind : token.kind = .newline := by simpa [atLineStart] using hbase
          simp [push, hkind]

theorem step_append (hbase : atLineStart base = true) (done : List Token) (index : Nat)
    (glyph : Glyph) (rest : List Glyph) :
    step (done ++ base) index glyph rest =
      ((step done index glyph rest).1 ++ base, (step done index glyph rest).2) := by
  unfold step
  rw [escapes_append hbase, atLineStart_append hbase]
  split_ifs with hreturn hescape
  · rfl
  · -- only a token that was passed since the base takes a meaning away
    cases done with
    | nil => cases hescape.1
    | cons token before => simp [push_append hbase]
  · simp [push_append hbase]

theorem scan_append_base (hbase : atLineStart base = true) (done : List Token)
    (index skip : Nat) (glyphs : List Glyph) :
    scan (done ++ base) index skip glyphs = scan done index skip glyphs ++ base := by
  induction glyphs generalizing done index skip with
  | nil => rfl
  | cons glyph rest ih =>
      cases skip with
      | succ skip => exact ih done (index + 1) skip
      | zero => simp only [scan, step_append hbase, ih]

end Base

section Shift

variable (distance : Nat)

theorem atLineStart_shift (done : List Token) :
    atLineStart (done.map (shift distance)) = atLineStart done := by
  cases done <;> rfl

theorem escapes_shift (done : List Token) (index : Nat) :
    escapes (done.map (shift distance)) (index + distance) = escapes done index := by
  cases done with
  | nil => rfl
  | cons token before =>
      have hstop : (token.span.stop + distance == index + distance) = (token.span.stop == index) :=
        by simp
      simp only [List.map_cons, escapes, shift, Span.shift, hstop]

theorem push_shift (kind : Kind) (span : Span) (done : List Token) :
    push kind (span.shift distance) (done.map (shift distance)) =
      (push kind span done).map (shift distance) := by
  cases done with
  | nil => rfl
  | cons token before =>
      simp only [List.map_cons, push, shift, Span.shift, Nat.add_right_cancel_iff]
      split <;> rfl

theorem step_shift (done : List Token) (index : Nat) (glyph : Glyph) (rest : List Glyph) :
    step (done.map (shift distance)) (index + distance) glyph rest =
      ((step done index glyph rest).1.map (shift distance), (step done index glyph rest).2) := by
  have hspan : ∀ width, (⟨index + distance, index + distance + width⟩ : Span) =
      Span.shift distance ⟨index, index + width⟩ := by
    intro width
    simp [Span.shift, Nat.add_right_comm]
  unfold step
  rw [escapes_shift, atLineStart_shift]
  simp only [hspan, ← List.map_tail, push_shift]
  split_ifs <;> rfl

theorem scan_shift (done : List Token) (index skip : Nat) (glyphs : List Glyph) :
    scan (done.map (shift distance)) (index + distance) skip glyphs =
      (scan done index skip glyphs).map (shift distance) := by
  induction glyphs generalizing done index skip with
  | nil => rfl
  | cons glyph rest ih =>
      have hindex : index + distance + 1 = index + 1 + distance := Nat.add_right_comm _ _ _
      cases skip with
      | succ skip => simp only [scan, hindex, ih]
      | zero => simp only [scan, step_shift, hindex, ih]

end Shift

/-- Glyphs that no mark takes and no run goes on over. -/
def EndsMark (closer : Glyph) : Prop := closer = .newline ∨ closer = .carriageReturn

section EndsMark

variable {closer : Glyph}

/-- A run that a glyph would break off is broken off by it. -/
theorem takeWhile_closer {p : Glyph → Bool} (hp : p closer = false)
    (line rest : List Glyph) : (line ++ closer :: rest).takeWhile p = line.takeWhile p := by
  induction line with
  | nil => simp [hp]
  | cons glyph line ih =>
      simp only [List.cons_append, List.takeWhile_cons, ih]

theorem runLength_closer {glyph : Glyph} (hglyph : glyph ≠ closer) (line rest : List Glyph) :
    runLength glyph (line ++ closer :: rest) = runLength glyph line := by
  unfold runLength
  rw [takeWhile_closer]
  simpa using hglyph.symm

theorem markAt_closer (hcloser : EndsMark closer) (lineStart : Bool) (glyph : Glyph)
    (line rest : List Glyph) :
    markAt lineStart glyph (line ++ closer :: rest) = markAt lineStart glyph line := by
  cases glyph with
  | bang =>
      have hblank : (fun glyph : Glyph => !glyph.isBlank) closer = false := by
        rcases hcloser with rfl | rfl <;> rfl
      simp only [markAt, takeWhile_closer (p := fun glyph => !glyph.isBlank) hblank]
  | hash | star | equals | openBracket | closeBracket =>
      simp only [markAt]
      rw [runLength_closer (by rcases hcloser with rfl | rfl <;> decide)]
  | _ => rfl

theorem step_closer (hcloser : EndsMark closer) (done : List Token) (index : Nat) (glyph : Glyph)
    (line rest : List Glyph) :
    step done index glyph (line ++ closer :: rest) = step done index glyph line := by
  unfold step
  rw [markAt_closer hcloser]

end EndsMark

theorem runLength_le (glyph : Glyph) (glyphs : List Glyph) :
    runLength glyph glyphs ≤ glyphs.length := (List.takeWhile_sublist _).length_le

theorem width_bracketMark (mark : Bracket → Kind) {run : Nat} (hrun : 0 < run) :
    (bracketMark mark run).2 ≤ run := by
  unfold bracketMark
  split
  · exact hrun
  · exact Nat.le_refl 2
  next hone htwo => exact Nat.lt_of_le_of_ne (Nat.lt_of_le_of_ne hrun (Ne.symm hone)) (Ne.symm htwo)

theorem width_starMark {run : Nat} (hrun : 0 < run) : (starMark run).2 ≤ run := by
  unfold starMark
  split
  · exact hrun
  · exact Nat.le_refl 2
  next hone htwo => exact Nat.lt_of_le_of_ne (Nat.lt_of_le_of_ne hrun (Ne.symm hone)) (Ne.symm htwo)

/-- A token takes no more glyphs than there are. -/
theorem width_markAt (lineStart : Bool) (glyph : Glyph) (rest : List Glyph) :
    (markAt lineStart glyph rest).2 ≤ rest.length + 1 := by
  have hrun (glyph : Glyph) : runLength glyph rest + 1 ≤ rest.length + 1 :=
    Nat.succ_le_succ (runLength_le glyph rest)
  have hpos (glyph : Glyph) : 0 < runLength glyph rest + 1 := Nat.succ_pos _
  cases glyph with
  | bang =>
      have hword := (rest.takeWhile_sublist (!·.isBlank)).length_le
      simp only [markAt]
      split <;> simp [hword]
  | hash =>
      simp only [markAt, hashMark]
      split
      next htwo => exact htwo ▸ hrun .hash
      next => exact hrun .hash
  | star => exact (width_starMark (hpos .star)).trans (hrun .star)
  | equals =>
      simp only [markAt, equalsMark]
      split <;> exact hrun .equals
  | openBracket => exact (width_bracketMark _ (hpos .openBracket)).trans (hrun .openBracket)
  | closeBracket => exact (width_bracketMark _ (hpos .closeBracket)).trans (hrun .closeBracket)
  | greater => cases lineStart <;> simp [markAt]
  | _ => simp [markAt]

theorem width_step (done : List Token) (index : Nat) (glyph : Glyph) (rest : List Glyph) :
    (step done index glyph rest).2 ≤ rest.length + 1 := by
  unfold step
  split_ifs
  · simp
  · simp
  · exact width_markAt _ _ _

theorem step_of_newline (done : List Token) (index : Nat) (rest : List Glyph) :
    step done index .newline rest = (⟨.newline, ⟨index, index + 1⟩⟩ :: done, 1) := by
  have hkind : Kind.newline ≠ .text := nofun
  simp [step, Glyph.isEscapable, markAt, push_of_ne_text hkind]

/-- The glyphs before a newline are scanned as if nothing followed, those after it as if nothing
stood before. -/
theorem scan_line (done : List Token) (index skip : Nat) (line rest : List Glyph)
    (hskip : skip ≤ line.length) :
    scan done index skip (line ++ .newline :: rest) =
      scan (⟨.newline, ⟨index + line.length, index + line.length + 1⟩⟩ ::
        scan done index skip line) (index + line.length + 1) 0 rest := by
  induction line generalizing done index skip with
  | nil =>
      obtain rfl : skip = 0 := by simpa using hskip
      simp [scan, step_of_newline]
  | cons glyph line ih =>
      have hindex : index + (line.length + 1) = index + 1 + line.length := by omega
      cases skip with
      | succ skip =>
          simp only [List.cons_append, scan, List.length_cons, hindex]
          exact ih done (index + 1) skip (by simpa using hskip)
      | zero =>
          have hwidth := width_step done index glyph line
          simp only [List.cons_append, scan, step_closer (.inl rfl), List.length_cons, hindex]
          exact ih _ _ _ (by omega)

/-- A carriage return at the end leaves no token. -/
theorem scan_carriageReturn (done : List Token) (index skip : Nat) (line : List Glyph)
    (hskip : skip ≤ line.length) :
    scan done index skip (line ++ [Glyph.carriageReturn]) = scan done index skip line := by
  induction line generalizing done index skip with
  | nil =>
      obtain rfl : skip = 0 := by simpa using hskip
      simp [scan, step]
  | cons glyph line ih =>
      cases skip with
      | succ skip => exact ih done (index + 1) skip (by simpa using hskip)
      | zero =>
          have hwidth := width_step done index glyph line
          simp only [List.cons_append, scan, step_closer (.inr rfl)]
          exact ih _ _ _ (by omega)

/-- A scan covers no offset past its end. -/
theorem stop_scan {done : List Token} {index skip limit : Nat} {glyphs : List Glyph}
    (hlimit : index + glyphs.length ≤ limit) (hdone : ∀ token ∈ done, token.span.stop ≤ limit) :
    ∀ token ∈ scan done index skip glyphs, token.span.stop ≤ limit := by
  induction glyphs generalizing done index skip with
  | nil => exact hdone
  | cons glyph rest ih =>
      simp only [List.length_cons] at hlimit
      have hrest : index + 1 + rest.length ≤ limit := by omega
      cases skip with
      | succ skip => exact ih hrest hdone
      | zero =>
          simp only [scan]
          refine ih hrest ?_
          have hwidth := width_markAt (atLineStart done) glyph rest
          unfold step
          split_ifs
          · exact hdone
          · have hspan : index + 1 ≤ limit := by omega
            exact forall_mem_push hspan (fun _ _ => hspan) fun token hmem =>
              hdone token (List.mem_of_mem_tail hmem)
          · have hspan : index + (markAt (atLineStart done) glyph rest).2 ≤ limit := by omega
            exact forall_mem_push hspan (fun _ _ => hspan) hdone

end Token

namespace Source

/-- A source given by its clusters. -/
def ofClusters (clusters : List String) : Source := ⟨clusters.toArray⟩

@[simp] theorem glyphs_ofClusters (clusters : List String) :
    (ofClusters clusters).glyphs = clusters.map Glyph.ofCluster := by simp [glyphs, ofClusters]

@[simp] theorem length_ofClusters (clusters : List String) :
    (ofClusters clusters).length = clusters.length := by simp [length, ofClusters]

/-- The tokens before the newline that ends the last line. -/
def openTokens (source : Source) : List Token := (Token.scan [] 0 0 source.glyphs).reverse

theorem tokens_eq (source : Source) :
    source.tokens =
      source.openTokens ++ [⟨.newline, ⟨source.length, source.length + 1⟩⟩] := by
  simp [tokens, openTokens]

theorem stop_openTokens {source : Source} :
    ∀ token ∈ source.openTokens, token.span.stop ≤ source.length := by
  intro token hmem
  have hlength : source.glyphs.length = source.length := by simp [glyphs, length]
  exact Token.stop_scan (by simp [hlength]) (by simp) token (List.mem_reverse.mp hmem)

theorem ofCluster_newline {ending : String} (hending : isNewline ending = true) :
    Glyph.ofCluster ending = .newline := by simp [Glyph.ofCluster, hending]

theorem openTokens_carriageReturn (line : List String) :
    (ofClusters (line ++ ["\r"])).openTokens = (ofClusters line).openTokens := by
  have hglyph : Glyph.ofCluster "\r" = .carriageReturn := by decide
  have hscan := Token.scan_carriageReturn [] 0 0 (line.map Glyph.ofCluster) (Nat.zero_le _)
  simp [openTokens, hglyph, hscan]

/-- Scanning goes line by line. -/
theorem tokens_line (line rest : List String) {ending : String}
    (hending : isNewline ending = true) :
    (ofClusters (line ++ ending :: rest)).tokens =
      (ofClusters line).tokens ++
        (ofClusters rest).tokens.map (Token.shift (line.length + 1)) := by
  have hscan := Token.scan_line [] 0 0 (line.map Glyph.ofCluster) (rest.map Glyph.ofCluster)
    (Nat.zero_le _)
  have hstart : Token.atLineStart (⟨.newline, ⟨line.length, line.length + 1⟩⟩ ::
      Token.scan [] 0 0 (line.map Glyph.ofCluster)) = true := rfl
  have hbase := Token.scan_append_base hstart [] (line.length + 1) 0 (rest.map Glyph.ofCluster)
  have hshift := Token.scan_shift (line.length + 1) [] 0 0 (rest.map Glyph.ofCluster)
  simp only [List.length_map, Nat.zero_add, List.nil_append, List.map_nil] at hscan hbase hshift
  simp [tokens, ofCluster_newline hending, hscan, hbase, hshift, Token.shift, Span.shift,
    Nat.add_comm, Nat.add_left_comm]

end Source

end PageMarkup
