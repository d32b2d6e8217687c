import PageMarkup.Proofs.Line.Kinds
import PageMarkup.Proofs.Nesting.Markers

/-! # What tokens cover

The tokens passed stand one before the other and tile the glyphs taken so far. A glyph that none
of them covers is a lone carriage return, or a backslash that takes away the meaning of what
stands right after it. A text may still go on and a backslash may still go, so a step is followed
through the kinds that the offsets are covered with: adding a token adds its own span to what
is covered with its kind, whether or not it goes on the text before.
-/

namespace PageMarkup

/-- The offset lies in the span. -/
def Span.Contains (span : Span) (offset : Nat) : Prop := span.start ≤ offset ∧ offset < span.stop

instance (span : Span) (offset : Nat) : Decidable (span.Contains offset) :=
  inferInstanceAs (Decidable (_ ∧ _))

namespace Token

/-- A token of the kind covers the offset. -/
def Covered (tokens : List Token) (kind : Kind) (offset : Nat) : Prop :=
  ∃ token ∈ tokens, token.kind = kind ∧ token.span.Contains offset

theorem covered_cons {token : Token} {tokens : List Token} {kind : Kind} {offset : Nat} :
    Covered (token :: tokens) kind offset ↔
      token.kind = kind ∧ token.span.Contains offset ∨ Covered tokens kind offset := by
  simp [Covered]

/-- Every token covers something. -/
def Forward (tokens : List Token) : Prop := ∀ token ∈ tokens, token.span.start < token.span.stop

/-- The tokens passed, latest first, stand one before the other, and all before the limit. -/
structure Placed (limit : Nat) (done : List Token) : Prop where
  forward : Forward done
  within : ∀ token ∈ done, token.span.stop ≤ limit
  apart : done.Pairwise fun later earlier => earlier.span.stop ≤ later.span.start

theorem Placed.nil (limit : Nat) : Placed limit [] := ⟨nofun, nofun, .nil⟩

theorem Placed.tail {limit : Nat} {done : List Token} (hdone : Placed limit done) :
    Placed limit done.tail :=
  ⟨fun token hmem => hdone.forward token (List.mem_of_mem_tail hmem),
    fun token hmem => hdone.within token (List.mem_of_mem_tail hmem), hdone.apart.tail⟩

theorem Placed.mono {limit further : Nat} {done : List Token} (hdone : Placed limit done)
    (hle : limit ≤ further) : Placed further done :=
  ⟨hdone.forward, fun token hmem => (hdone.within token hmem).trans hle, hdone.apart⟩

theorem mem_push {token : Token} {done : List Token} (hmem : token ∈ done)
    (hkind : token.kind ≠ .text) (kind : Kind) (start stop : Nat) :
    token ∈ push kind ⟨start, stop⟩ done := by
  rcases push_cases kind start stop done with hpush | ⟨first, before, -, rfl, hpush⟩
  · rw [hpush]
    exact List.mem_cons_of_mem _ hmem
  · rw [hpush]
    rcases List.mem_cons.mp hmem with rfl | hmem
    · exact absurd rfl hkind
    · exact List.mem_cons_of_mem _ hmem

theorem Forward.push {done : List Token} (hdone : Forward done) {start stop : Nat}
    (hspan : start < stop) (kind : Kind) : Forward (push kind ⟨start, stop⟩ done) := by
  apply forall_mem_push hspan _ hdone
  exact fun first hfirst => Nat.lt_trans hfirst hspan

theorem Placed.push {start stop : Nat} {done : List Token} (hdone : Placed start done)
    (hspan : start < stop) (kind : Kind) : Placed stop (push kind ⟨start, stop⟩ done) := by
  refine ⟨hdone.forward.push hspan kind, ?_, ?_⟩
  · apply forall_mem_push (Nat.le_refl stop) _ (hdone.mono hspan.le).within
    exact fun first _ => Nat.le_refl stop
  · rcases push_cases kind start stop done with hpush | ⟨first, before, -, rfl, hpush⟩
    · rw [hpush]
      exact List.pairwise_cons.mpr ⟨hdone.within, hdone.apart⟩
    · -- the text before goes on to the new end and starts where it started
      rw [hpush]
      exact List.pairwise_cons.mpr (List.pairwise_cons.mp hdone.apart)

/-- A new token covers its own span, and what was covered before stays so. -/
theorem covered_push {start stop : Nat} {done : List Token}
    (hforward : Forward done) (hspan : start < stop) (kind other : Kind) (offset : Nat) :
    Covered (push kind ⟨start, stop⟩ done) other offset ↔
      Covered done other offset ∨ kind = other ∧ start ≤ offset ∧ offset < stop := by
  rcases push_cases kind start stop done with hpush | ⟨first, before, rfl, rfl, hpush⟩
  · rw [hpush]
    exact covered_cons.trans or_comm
  · have hfirst : first < start := hforward _ List.mem_cons_self
    have hsplit : first ≤ offset ∧ offset < stop ↔
        first ≤ offset ∧ offset < start ∨ start ≤ offset ∧ offset < stop := by omega
    rw [hpush]
    simp only [covered_cons, Span.Contains]
    rw [hsplit, and_or_left, or_right_comm]

theorem markAt_eq_newline_iff {lineStart : Bool} {glyph : Glyph} {rest : List Glyph} :
    (markAt lineStart glyph rest).1 = .newline ↔ glyph = .newline := by
  refine ⟨fun hkind => ?_, fun hglyph => by rw [hglyph]; rfl⟩
  by_contra hnewline
  exact markAt_ne_newline hnewline lineStart rest hkind

theorem markAt_eq_backslash_iff {lineStart : Bool} {glyph : Glyph} {rest : List Glyph} :
    (markAt lineStart glyph rest).1 = .backslash ↔ glyph = .backslash := by
  refine ⟨fun hkind => ?_, fun hglyph => by rw [hglyph]; rfl⟩
  by_contra hbackslash
  have hnewline : glyph ≠ .newline := by
    rintro rfl
    cases hkind
  exact markAt_cases (P := (· ≠ .backslash)) nofun nofun nofun nofun nofun hnewline hbackslash
    lineStart rest hkind

theorem width_markAt_pos (lineStart : Bool) (glyph : Glyph) (rest : List Glyph) :
    0 < (markAt lineStart glyph rest).2 := by
  cases glyph with
  | bang | greater => cases lineStart <;> simp [markAt]
  | hash =>
      simp only [markAt, hashMark]
      split <;> simp
  | star =>
      simp only [markAt, starMark]
      split <;> simp
  | equals =>
      simp only [markAt, equalsMark]
      split <;> simp
  | openBracket | closeBracket =>
      simp only [markAt, bracketMark]
      split <;> simp
  | _ => simp [markAt]

/-- A token takes a run of its first glyph, unless it is the mark of a directive, which takes
everything up to the next white space. -/
theorem markAt_taken (lineStart : Bool) (glyph : Glyph) (rest : List Glyph) :
    List.replicate (markAt lineStart glyph rest).2 glyph <+: glyph :: rest ∨
      glyph = .bang ∧ markAt lineStart glyph rest =
        (.lineMark .directive, (rest.takeWhile (!·.isBlank)).length + 1) := by
  have hrun : ∀ {width}, width ≤ runLength glyph rest + 1 →
      List.replicate width glyph <+: glyph :: rest := replicate_of_runLength
  cases glyph with
  | bang =>
      cases lineStart with
      | true => exact .inr ⟨rfl, rfl⟩
      | false => exact .inl (hrun (Nat.le_add_left 1 _))
  | greater =>
      left
      apply hrun
      cases lineStart <;> exact Nat.le_add_left 1 _
  | hash =>
      left
      apply hrun
      simp only [markAt, hashMark]
      split <;> omega
  | star => exact .inl (hrun (width_starMark (Nat.succ_pos _)))
  | equals =>
      left
      apply hrun
      simp only [markAt, equalsMark]
      split <;> exact Nat.le_refl _
  | openBracket | closeBracket => exact .inl (hrun (width_bracketMark _ (Nat.succ_pos _)))
  | _ => exact .inl (hrun (Nat.le_add_left 1 _))

/-- A token takes a newline only if it is one. -/
theorem newline_taken_iff {lineStart : Bool} {glyph : Glyph} {rest : List Glyph} {count : Nat}
    (hcount : count < (markAt lineStart glyph rest).2) :
    (glyph :: rest)[count]? = some .newline ↔ glyph = .newline := by
  rcases markAt_taken lineStart glyph rest with ⟨after, hrun⟩ | ⟨rfl, hmark⟩
  · rw [← hrun, List.getElem?_append_left (by simpa using hcount), List.getElem?_replicate,
      if_pos hcount, Option.some.injEq]
  · refine iff_of_false (fun hnewline => ?_) nofun
    rw [hmark] at hcount
    cases count with
    | zero => cases hnewline
    | succ count =>
        have hword : count < (rest.takeWhile (!·.isBlank)).length := Nat.lt_of_succ_lt_succ hcount
        obtain ⟨after, hafter⟩ := rest.takeWhile_prefix (!·.isBlank)
        have hget : (rest.takeWhile (!·.isBlank))[count]? = some .newline := by
          rwa [← List.getElem?_append_left hword, hafter]
        have hblank := List.mem_takeWhile_imp (List.mem_of_getElem? hget)
        cases hblank

theorem width_step_pos (done : List Token) (index : Nat) (glyph : Glyph) (rest : List Glyph) :
    0 < (step done index glyph rest).2 := by
  unfold step
  split_ifs
  · exact Nat.one_pos
  · exact Nat.one_pos
  · exact width_markAt_pos _ _ _

/-! ## Scanning -/

section Scanning

variable {glyphs before rest : List Glyph} {done : List Token} {glyph : Glyph}

/-- The glyph leaves no token: a lone carriage return, or a backslash that takes the meaning of the
next glyph away, so that this is text. -/
def Silent (glyphs : List Glyph) (done : List Token) (offset : Nat) : Prop :=
  glyphs[offset]? = some .carriageReturn ∨
    glyphs[offset]? = some .backslash ∧ (∃ next, glyphs[offset + 1]? = some next ∧
      next.isEscapable = true) ∧ Covered done .text (offset + 1)

theorem Silent.mono {more : List Token} {offset : Nat} (hsilent : Silent glyphs done offset)
    (hmore : ∀ offset, Covered done .text offset → Covered more .text offset) :
    Silent glyphs more offset :=
  hsilent.imp id fun ⟨hbackslash, hnext, htext⟩ => ⟨hbackslash, hnext, hmore _ htext⟩

/-- Tokens of newlines cover newlines only and other tokens none; a backslash covers itself. -/
structure Faithful (glyphs : List Glyph) (done : List Token) : Prop where
  newlines : ∀ {kind offset}, Covered done kind offset →
    (glyphs[offset]? = some .newline ↔ kind = .newline)
  backslashes : ∀ token ∈ done, token.kind = .backslash →
    token.span.stop = token.span.start + 1 ∧ glyphs[token.span.start]? = some .backslash

theorem Faithful.tail (hdone : Faithful glyphs done) : Faithful glyphs done.tail :=
  ⟨fun ⟨token, hmem, hcovers⟩ => hdone.newlines ⟨token, List.mem_of_mem_tail hmem, hcovers⟩,
    fun token hmem => hdone.backslashes token (List.mem_of_mem_tail hmem)⟩

theorem Faithful.push {start stop : Nat} {kind : Kind} (hdone : Faithful glyphs done)
    (hforward : Forward done) (hspan : start < stop)
    (hnewlines : ∀ offset, start ≤ offset → offset < stop →
      (glyphs[offset]? = some .newline ↔ kind = .newline))
    (hbackslash : kind = .backslash → stop = start + 1 ∧ glyphs[start]? = some .backslash) :
    Faithful glyphs (push kind ⟨start, stop⟩ done) := by
  refine ⟨fun hcovered => ?_, ?_⟩
  · rcases (covered_push hforward hspan ..).mp hcovered with hbefore | ⟨rfl, hle, hlt⟩
    · exact hdone.newlines hbefore
    · exact hnewlines _ hle hlt
  · exact forall_mem_push hbackslash (fun _ _ => nofun) hdone.backslashes

/-- The tokens passed tile the glyphs up to the limit: what none of them covers is silent. -/
structure Tiles (glyphs : List Glyph) (limit : Nat) (done : List Token) : Prop where
  placed : Placed limit done
  faithful : Faithful glyphs done
  silent : ∀ offset < limit, (∀ kind, ¬ Covered done kind offset) → Silent glyphs done offset

theorem Tiles.nil (glyphs : List Glyph) : Tiles glyphs 0 [] :=
  { placed := .nil 0
    faithful := ⟨fun ⟨_, hmem, _⟩ => (nomatch hmem), nofun⟩
    silent := nofun }

/-- A lone carriage return is passed over. -/
theorem Tiles.pass (hdone : Tiles (before ++ .carriageReturn :: rest) before.length done) :
    Tiles (before ++ .carriageReturn :: rest) (before.length + 1) done := by
  refine ⟨hdone.placed.mono (Nat.le_succ _), hdone.faithful, fun offset hlt huncovered => ?_⟩
  by_cases hlast : offset = before.length
  · left
    simp [hlast]
  · exact hdone.silent offset (by omega) huncovered

/-- A backslash goes, and what stands after it becomes text. -/
theorem Tiles.escape (hdone : Tiles (before ++ glyph :: rest) before.length done)
    (hescapes : escapes done before.length = true) (hescapable : glyph.isEscapable = true) :
    Tiles (before ++ glyph :: rest) (before.length + 1)
      (push .text ⟨before.length, before.length + 1⟩ done.tail) := by
  have hspan := Nat.lt_succ_self before.length
  have hplaced := hdone.placed.tail
  have hhere : (before ++ glyph :: rest)[before.length]? = some glyph := by simp
  refine ⟨hplaced.push hspan _, hdone.faithful.tail.push hplaced.forward hspan ?_ nofun, ?_⟩
  · intro offset hle hlt
    obtain rfl : offset = before.length := by omega
    rw [hhere]
    refine iff_of_false (fun hnewline => ?_) nofun
    obtain rfl := Option.some.inj hnewline
    cases hescapable
  · intro offset hlt huncovered
    simp only [covered_push hplaced.forward hspan, not_or, not_and] at huncovered
    have hbefore : offset < before.length := by
      by_contra hge
      exact (huncovered .text).2 rfl (by omega) hlt
    cases done with
    | nil => cases hescapes
    | cons token earlier =>
        rw [escapes, Bool.and_eq_true, beq_iff_eq, beq_iff_eq] at hescapes
        obtain ⟨hkind, hstop⟩ := hescapes
        obtain ⟨hlength, hbackslash⟩ := hdone.faithful.backslashes token List.mem_cons_self hkind
        have hnew : Covered (push .text ⟨before.length, before.length + 1⟩ earlier) .text
            before.length := (covered_push hplaced.forward hspan ..).mpr (.inr ⟨rfl, Nat.le_refl _, hspan⟩)
        by_cases htoken : offset = token.span.start
        · -- the gap that the backslash leaves
          right
          have hnext : offset + 1 = before.length := by omega
          rw [hnext, htoken]
          exact ⟨hbackslash, ⟨glyph, hhere, hescapable⟩, hnew⟩
        · refine (hdone.silent offset hbefore fun kind hcovered => ?_).mono fun other hcovered => ?_
          · rcases covered_cons.mp hcovered with ⟨-, hstart, hlt⟩ | hearlier
            · omega
            · exact (huncovered kind).1 hearlier
          · rcases covered_cons.mp hcovered with ⟨htext, -⟩ | hearlier
            · rw [hkind] at htext
              cases htext
            · exact (covered_push hplaced.forward hspan ..).mpr (.inl hearlier)

/-- A token is taken from the glyphs at the limit. -/
theorem Tiles.take (hdone : Tiles (before ++ glyph :: rest) before.length done)
    (lineStart : Bool) :
    Tiles (before ++ glyph :: rest) (before.length + (markAt lineStart glyph rest).2)
      (push (markAt lineStart glyph rest).1
        ⟨before.length, before.length + (markAt lineStart glyph rest).2⟩ done) := by
  have hspan : before.length < before.length + (markAt lineStart glyph rest).2 :=
    Nat.lt_add_of_pos_right (width_markAt_pos lineStart glyph rest)
  refine ⟨hdone.placed.push hspan _, hdone.faithful.push hdone.placed.forward hspan ?_ ?_, ?_⟩
  · intro offset hle hlt
    obtain ⟨count, rfl⟩ := Nat.exists_eq_add_of_le hle
    have hget : (before ++ glyph :: rest)[before.length + count]? = (glyph :: rest)[count]? := by
      simp [List.getElem?_append_right]
    have hcount : count < (markAt lineStart glyph rest).2 := by omega
    rw [hget, markAt_eq_newline_iff, newline_taken_iff hcount]
  · intro hkind
    obtain rfl := markAt_eq_backslash_iff.mp hkind
    exact ⟨rfl, by simp⟩
  · intro offset hlt huncovered
    simp only [covered_push hdone.placed.forward hspan, not_or, not_and] at huncovered
    have hbefore : offset < before.length := by
      by_contra hge
      exact (huncovered _).2 rfl (by omega) hlt
    refine (hdone.silent offset hbefore fun kind => (huncovered kind).1).mono fun other hcovered => ?_
    exact (covered_push hdone.placed.forward hspan ..).mpr (.inl hcovered)

theorem Tiles.step (hdone : Tiles (before ++ glyph :: rest) before.length done) :
    Tiles (before ++ glyph :: rest) (before.length + (step done before.length glyph rest).2)
      (step done before.length glyph rest).1 := by
  unfold Token.step
  split_ifs with hreturn hescape
  · subst hreturn
    exact hdone.pass
  · exact hdone.escape hescape.1 hescape.2
  · exact hdone.take _

/-- What every step keeps, a scan keeps. The motive speaks of the glyphs that are taken and the
tokens passed. -/
theorem scan_induction {motive : Nat → List Token → Prop}
    (hstep : ∀ {before glyph rest done}, glyphs = before ++ glyph :: rest →
      motive before.length done →
      motive (before.length + (step done before.length glyph rest).2)
        (step done before.length glyph rest).1)
    (hglyphs : glyphs = before ++ rest) {skip : Nat} (hskip : skip ≤ rest.length)
    (hstart : motive (before.length + skip) done) :
    motive glyphs.length (scan done before.length skip rest) := by
  induction rest generalizing before done skip with
  | nil =>
      obtain rfl : skip = 0 := by simpa using hskip
      simpa [Token.scan, hglyphs] using hstart
  | cons glyph rest ih =>
      have hnext : glyphs = (before ++ [glyph]) ++ rest := by simpa using hglyphs
      have hlength : before.length + 1 = (before ++ [glyph]).length := by simp
      cases skip with
      | succ skip =>
          rw [Token.scan, hlength]
          apply ih hnext (by simpa using hskip)
          rwa [← hlength, Nat.add_right_comm, Nat.add_assoc]
      | zero =>
          -- a token is counted when it is taken, and its other glyphs are then only passed over
          have hwidth := width_step done before.length glyph rest
          have hpos := width_step_pos done before.length glyph rest
          have hlimit : before.length + 1 + ((Token.step done before.length glyph rest).2 - 1) =
              before.length + (Token.step done before.length glyph rest).2 := by omega
          simp only [Token.scan]
          rw [hlength]
          apply ih hnext (by omega)
          rw [← hlength, hlimit]
          exact hstep hglyphs hstart

/-- The tokens of a source tile all of its glyphs. -/
theorem tiles_scan (glyphs : List Glyph) : Tiles glyphs glyphs.length (scan [] 0 0 glyphs) := by
  have hglyphs : glyphs = [] ++ glyphs := rfl
  apply scan_induction (fun hsplit hdone => ?_) hglyphs (Nat.zero_le _) (.nil glyphs)
  subst hsplit
  exact hdone.step

/-! ## What a scan keeps -/

/-- What covers the offsets before the limit is kept, except that a backslash may go. -/
structure Kept (limit : Nat) (earlier later : List Token) : Prop where
  before : ∀ {kind offset}, offset < limit → Covered later kind offset → Covered earlier kind offset
  covered : ∀ {kind offset}, kind ≠ .backslash → Covered earlier kind offset →
    Covered later kind offset
  marks : ∀ token ∈ earlier, token.kind ≠ .text → token.kind ≠ .backslash → token ∈ later

section Kept

variable {limit : Nat} {earlier later : List Token}

theorem Kept.refl (limit : Nat) (tokens : List Token) : Kept limit tokens tokens :=
  ⟨fun _ => id, fun _ => id, fun _ hmem _ _ => hmem⟩

theorem Kept.push (hkept : Kept limit earlier later) (hforward : Forward later) {start stop : Nat}
    (hlimit : limit ≤ start) (hspan : start < stop) (kind : Kind) :
    Kept limit earlier (push kind ⟨start, stop⟩ later) := by
  refine ⟨fun hlt hcovered => ?_, fun hkind hcovered => ?_, fun token hmem htext hkind => ?_⟩
  · rcases (covered_push hforward hspan ..).mp hcovered with hlater | ⟨-, hle, -⟩
    · exact hkept.before hlt hlater
    · omega
  · exact (covered_push hforward hspan ..).mpr (.inl (hkept.covered hkind hcovered))
  · exact mem_push (hkept.marks token hmem htext hkind) htext ..

theorem Kept.tail (hkept : Kept limit earlier later) {index : Nat}
    (hescapes : escapes later index = true) : Kept limit earlier later.tail := by
  cases later with
  | nil => cases hescapes
  | cons token later =>
      rw [escapes, Bool.and_eq_true, beq_iff_eq, beq_iff_eq] at hescapes
      obtain ⟨hbackslash, -⟩ := hescapes
      refine ⟨fun hlt hcovered => ?_, fun hkind hcovered => ?_, fun other hmem htext hkind => ?_⟩
      · exact hkept.before hlt (covered_cons.mpr (.inr hcovered))
      · rcases covered_cons.mp (hkept.covered hkind hcovered) with ⟨rfl, -⟩ | hlater
        · exact absurd hbackslash hkind
        · exact hlater
      · rcases List.mem_cons.mp (hkept.marks other hmem htext hkind) with rfl | hlater
        · exact absurd hbackslash hkind
        · exact hlater

theorem Kept.step (hkept : Kept limit earlier later) (hforward : Forward later) {index : Nat}
    (hlimit : limit ≤ index) (glyph : Glyph) (rest : List Glyph) :
    Kept limit earlier (step later index glyph rest).1 ∧
      Forward (step later index glyph rest).1 := by
  unfold Token.step
  split_ifs with hreturn hescape
  · exact ⟨hkept, hforward⟩
  · have htail : Forward later.tail := fun token hmem => hforward token (List.mem_of_mem_tail hmem)
    have hspan := Nat.lt_succ_self index
    exact ⟨(hkept.tail hescape.1).push htail hlimit hspan _, htail.push hspan _⟩
  · have hspan := Nat.lt_add_of_pos_right (n := index)
      (width_markAt_pos (atLineStart later) glyph rest)
    exact ⟨hkept.push hforward hlimit hspan _, hforward.push hspan _⟩

/-- A scan keeps what is passed, wherever it goes on. -/
theorem Kept.scan (hkept : Kept limit earlier later) (hforward : Forward later) {index : Nat}
    (hlimit : limit ≤ index) (skip : Nat) (rest : List Glyph) :
    Kept limit earlier (scan later index skip rest) := by
  induction rest generalizing later index skip with
  | nil => exact hkept
  | cons glyph rest ih =>
      cases skip with
      | succ skip => exact ih hkept hforward (Nat.le_succ_of_le hlimit) skip
      | zero =>
          obtain ⟨hstep, hnext⟩ := hkept.step hforward hlimit glyph rest
          exact ih hstep hnext (Nat.le_succ_of_le hlimit) _

end Kept

/-! ## Where a scan stops -/

/-- Glyphs of a token that is there are passed over. -/
theorem scan_skip (done : List Token) (index : Nat) (front rest : List Glyph) :
    scan done index front.length (front ++ rest) = scan done (index + front.length) 0 rest := by
  induction front generalizing index with
  | nil => rfl
  | cons glyph front ih =>
      rw [List.cons_append, List.length_cons, scan, ih, Nat.add_right_comm, Nat.add_assoc]

/-- A step takes a glyph and those of its token after it. -/
theorem scan_taken {index : Nat} {taken : List Glyph}
    (hwidth : (step done index glyph (taken ++ rest)).2 = taken.length + 1) :
    scan done index 0 (glyph :: (taken ++ rest)) =
      scan (step done index glyph (taken ++ rest)).1 (index + (taken.length + 1)) 0 rest := by
  have hstep : scan done index 0 (glyph :: (taken ++ rest)) =
      scan (step done index glyph (taken ++ rest)).1 (index + 1)
        ((step done index glyph (taken ++ rest)).2 - 1) (taken ++ rest) := rfl
  rw [hstep, hwidth, Nat.add_sub_cancel, scan_skip, Nat.add_assoc, Nat.add_comm 1]

/-- The scanner comes by an offset, or a step takes it from before the offset to behind it. -/
theorem stops_or_straddles {middle : List Glyph} (hglyphs : glyphs = before ++ (middle ++ rest))
    (hdone : Tiles glyphs before.length done) :
    (∃ passed, Tiles glyphs (before ++ middle).length passed ∧
      scan done before.length 0 (middle ++ rest) = scan passed (before ++ middle).length 0 rest) ∨
    ∃ front glyph left passed, before ++ middle = front ++ glyph :: left ∧
      Tiles glyphs front.length passed ∧
      scan done before.length 0 (middle ++ rest) =
        scan passed front.length 0 (glyph :: (left ++ rest)) ∧
      left.length + 1 < (step passed front.length glyph (left ++ rest)).2 := by
  induction hlength : middle.length using Nat.strongRecOn generalizing before middle done with
  | ind length ih =>
      cases middle with
      | nil => exact .inl ⟨done, by simpa using hdone, by simp⟩
      | cons glyph left =>
          by_cases hover : left.length + 1 < (Token.step done before.length glyph (left ++ rest)).2
          · exact .inr ⟨before, glyph, left, done, rfl, hdone, rfl, hover⟩
          · -- the step ends before the offset, and the scan goes on from there
            have hpos := width_step_pos done before.length glyph (left ++ rest)
            obtain ⟨taken, back, rfl, hwidth⟩ : ∃ taken back, left = taken ++ back ∧
                (Token.step done before.length glyph (left ++ rest)).2 = taken.length + 1 := by
              refine ⟨left.take ((Token.step done before.length glyph (left ++ rest)).2 - 1), _,
                (List.take_append_drop _ left).symm, ?_⟩
              rw [List.length_take]
              omega
            rw [List.append_assoc] at hwidth
            have hstep : Tiles glyphs (before ++ glyph :: taken).length
                (Token.step done before.length glyph (taken ++ (back ++ rest))).1 := by
              subst hglyphs
              have hhere : Tiles (before ++ glyph :: (taken ++ (back ++ rest))) before.length done := by
                simpa using hdone
              have hstep := hhere.step
              simpa [hwidth] using hstep
            have hshorter : back.length < length := by
              rw [← hlength, List.length_cons, List.length_append]
              omega
            have hnext := ih back.length hshorter (by simp [hglyphs]) hstep rfl
            have hfront : before ++ glyph :: (taken ++ back) = before ++ glyph :: taken ++ back := by
              simp
            have hlast : before.length + (taken.length + 1) = (before ++ glyph :: taken).length := by
              simp
            rw [List.cons_append, List.append_assoc, scan_taken hwidth, hfront, hlast]
            exact hnext

end Scanning

end Token

end PageMarkup
