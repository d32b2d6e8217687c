import PageMarkup.Proofs.Line.Tiling

/-! # Runs of marks

Stars and brackets are taken three at a time and a run of hashes or equals signs is taken whole,
so what a run is scanned into can be computed from its length. Backslashes before the run go in
pairs, each of which leaves one backslash as text; if their number is odd, the last of them makes
a text of the first glyph of the run, and the run that is scanned starts after it.
-/

namespace PageMarkup

/-- The glyphs of which a run makes different marks. -/
inductive RunMark where
  | star
  | hash
  | equals
  | openBracket
  | closeBracket
  deriving DecidableEq, Repr

namespace RunMark

/-- The cluster that the run repeats. -/
def cluster : RunMark → String
  | .star => "*"
  | .hash => "#"
  | .equals => "="
  | .openBracket => "["
  | .closeBracket => "]"

/-- What the scanner sees of the cluster. -/
def glyph : RunMark → Glyph
  | .star => .star
  | .hash => .hash
  | .equals => .equals
  | .openBracket => .openBracket
  | .closeBracket => .closeBracket

/-- Tokens of three glyphs each, and one token of what is left over. -/
def byThrees (one two three : Kind) (start count : Nat) : List Token :=
  let left := start + 3 * (count / 3)
  (List.range (count / 3)).map (fun i => ⟨three, ⟨start + 3 * i, start + 3 * i + 3⟩⟩) ++
    match count % 3 with
    | 1 => [⟨one, ⟨left, left + 1⟩⟩]
    | 2 => [⟨two, ⟨left, left + 2⟩⟩]
    | _ => []

/-- One token of all the glyphs, if there are any. -/
def whole (kind : Kind) (start count : Nat) : List Token :=
  if count = 0 then [] else [⟨kind, ⟨start, start + count⟩⟩]

/-- What a number of equals signs is. -/
def headingKind : Nat → Kind
  | 2 => .styleMark (.heading .two)
  | 3 => .styleMark (.heading .three)
  | 4 => .styleMark (.heading .four)
  | 5 => .styleMark (.heading .five)
  | 6 => .styleMark (.heading .six)
  | _ => .text

/-- The tokens of a run that no backslash concerns, from its first glyph on. -/
def tokens (mark : RunMark) (start count : Nat) : List Token :=
  match mark with
  | .star => byThrees (.styleMark .em) (.styleMark .bold) (.styleMark .emBold) start count
  | .hash => whole (if count = 2 then .styleMark .strikethrough else .text) start count
  | .equals => whole (headingKind count) start count
  | .openBracket =>
    byThrees .text (.bracketStart .externalLink) (.bracketStart .embeddedFile) start count
  | .closeBracket =>
    byThrees .text (.bracketEnd .externalLink) (.bracketEnd .embeddedFile) start count

theorem ofCluster_cluster (mark : RunMark) : Glyph.ofCluster mark.cluster = mark.glyph := by
  cases mark <;> decide

/-! ## The first token of a run -/

/-- Kind and width of the first token of a run. -/
def first : RunMark → Nat → Kind × Nat
  | .star => Token.starMark
  | .hash => Token.hashMark
  | .equals => Token.equalsMark
  | .openBracket => Token.bracketMark .bracketStart
  | .closeBracket => Token.bracketMark .bracketEnd

theorem markAt_glyph (mark : RunMark) (lineStart : Bool) (rest : List Glyph) :
    Token.markAt lineStart mark.glyph rest = mark.first (Token.runLength mark.glyph rest + 1) := by
  cases mark <;> rfl

theorem byThrees_add_three (one two three : Kind) (start count : Nat) :
    byThrees one two three start (count + 3) =
      ⟨three, ⟨start, start + 3⟩⟩ :: byThrees one two three (start + 3) count := by
  have hthird : (count + 3) / 3 = count / 3 + 1 := by omega
  have hrest : (count + 3) % 3 = count % 3 := by omega
  have hleft : start + 3 * (count / 3 + 1) = start + 3 + 3 * (count / 3) := by omega
  have hshift : ∀ i, start + 3 * (i + 1) = start + 3 + 3 * i := fun i => by omega
  unfold byThrees
  rw [hthird, hrest, hleft, List.range_succ_eq_map, List.map_cons, List.map_map, List.cons_append]
  simp only [Function.comp_def, Nat.succ_eq_add_one, hshift, Nat.mul_zero, Nat.add_zero]

theorem byThrees_eq_cons (take : Nat → Kind × Nat) {one two three : Kind} (hone : take 1 = (one, 1))
    (htwo : take 2 = (two, 2)) (hthree : ∀ count, take (count + 3) = (three, 3)) (start : Nat)
    {count : Nat} (hcount : 0 < count) :
    (take count).2 ≤ count ∧ byThrees one two three start count =
      ⟨(take count).1, ⟨start, start + (take count).2⟩⟩ ::
        byThrees one two three (start + (take count).2) (count - (take count).2) := by
  match count with
  | 1 => simp [hone, byThrees]
  | 2 => simp [htwo, byThrees]
  | count + 3 =>
      rw [hthree, byThrees_add_three]
      exact ⟨Nat.le_add_left 3 count, rfl⟩

theorem headingMark?_getD (count : Nat) : (Kind.headingMark? count).getD .text = headingKind count := by
  unfold Kind.headingMark? HeadingLevel.ofNumber? headingKind
  split <;> simp_all

/-- A run gives the token that the scanner takes first and those of the run after it. -/
theorem tokens_eq_cons (mark : RunMark) (start : Nat) {count : Nat} (hcount : 0 < count) :
    (mark.first count).2 ≤ count ∧ mark.tokens start count =
      ⟨(mark.first count).1, ⟨start, start + (mark.first count).2⟩⟩ ::
        mark.tokens (start + (mark.first count).2) (count - (mark.first count).2) := by
  cases mark with
  | star => exact byThrees_eq_cons Token.starMark rfl rfl (fun _ => rfl) start hcount
  | openBracket =>
      exact byThrees_eq_cons (Token.bracketMark .bracketStart) rfl rfl (fun _ => rfl) start hcount
  | closeBracket =>
      exact byThrees_eq_cons (Token.bracketMark .bracketEnd) rfl rfl (fun _ => rfl) start hcount
  | hash =>
      by_cases htwo : count = 2
      · subst htwo
        exact ⟨Nat.le_refl 2, rfl⟩
      · simp [first, Token.hashMark, tokens, whole, htwo, hcount.ne']
  | equals =>
      have hkind := headingMark?_getD count
      cases hmark : Kind.headingMark? count with
      | none =>
          rw [hmark, Option.getD_none] at hkind
          simp [first, Token.equalsMark, hmark, tokens, whole, ← hkind, hcount.ne']
      | some kind =>
          rw [hmark, Option.getD_some] at hkind
          simp [first, Token.equalsMark, hmark, tokens, whole, ← hkind, hcount.ne']

theorem tokens_zero (mark : RunMark) (start : Nat) : mark.tokens start 0 = [] := by
  cases mark <;> rfl

/-- The scanner takes some glyphs of any run, and no backslash from it. -/
theorem exists_markAt_eq_first (mark : RunMark) {count : Nat} (hcount : 0 < count) :
    ∃ rest, Token.markAt false mark.glyph rest = mark.first count := by
  refine ⟨List.replicate (count - 1) mark.glyph, ?_⟩
  rw [mark.markAt_glyph]
  congr 1
  simp [Token.runLength]
  omega

theorem first_pos (mark : RunMark) {count : Nat} (hcount : 0 < count) :
    0 < (mark.first count).2 := by
  obtain ⟨rest, hrest⟩ := mark.exists_markAt_eq_first hcount
  rw [← hrest]
  exact Token.width_markAt_pos _ _ _

theorem first_ne_backslash (mark : RunMark) {count : Nat} (hcount : 0 < count) :
    (mark.first count).1 ≠ .backslash := by
  obtain ⟨rest, hrest⟩ := mark.exists_markAt_eq_first hcount
  rw [← hrest, ne_eq, Token.markAt_eq_backslash_iff]
  cases mark <;> decide

/-- The tokens of a run follow each other from its first glyph to its last. -/
theorem tokens_induction (mark : RunMark) {motive : Nat → Nat → List Token → Prop}
    (hnil : ∀ start, motive start 0 [])
    (hcons : ∀ {start width left kind tokens}, 0 < width → kind ≠ .backslash →
      motive (start + width) left tokens →
      motive start (width + left) (⟨kind, ⟨start, start + width⟩⟩ :: tokens))
    (start count : Nat) : motive start count (mark.tokens start count) := by
  -- what the first token leaves is a run again, a shorter one that starts further on
  induction count using Nat.strongRecOn generalizing start with
  | ind count ih =>
      rcases Nat.eq_zero_or_pos count with rfl | hcount
      · rw [tokens_zero]
        exact hnil start
      · obtain ⟨hwidth, htokens⟩ := mark.tokens_eq_cons start hcount
        have hpos := mark.first_pos hcount
        have hrest := hcons hpos (mark.first_ne_backslash hcount)
          (ih _ (Nat.sub_lt hcount hpos) (start + (mark.first count).2))
        rwa [← htokens, Nat.add_sub_cancel' hwidth] at hrest

theorem within_tokens (mark : RunMark) (start count : Nat) :
    ∀ token ∈ mark.tokens start count, start ≤ token.span.start ∧
      token.span.start < token.span.stop ∧ token.span.stop ≤ start + count := by
  apply mark.tokens_induction
    (motive := fun start count tokens => ∀ token ∈ tokens, start ≤ token.span.start ∧
      token.span.start < token.span.stop ∧ token.span.stop ≤ start + count)
  · exact fun _ => nofun
  · intro start width left kind tokens hpos _ hrest
    refine List.forall_mem_cons.mpr ⟨⟨Nat.le_refl start, ?_, ?_⟩, fun token hmem => ?_⟩
    · exact Nat.lt_add_of_pos_right hpos
    · exact Nat.add_le_add_left (Nat.le_add_right width left) start
    · have hwithin := hrest token hmem
      omega

theorem ascending_tokens (mark : RunMark) (start count : Nat) :
    (mark.tokens start count).Pairwise fun earlier later =>
      earlier.span.start < later.span.start := by
  have hboth := mark.tokens_induction
    (motive := fun start _ tokens => (∀ token ∈ tokens, start ≤ token.span.start) ∧
      tokens.Pairwise fun earlier later => earlier.span.start < later.span.start)
    (fun _ => ⟨nofun, .nil⟩) ?_ start count
  · exact hboth.2
  · intro start width left kind tokens hpos _ ⟨hstart, hrest⟩
    refine ⟨List.forall_mem_cons.mpr ⟨Nat.le_refl start, fun token hmem => ?_⟩,
      List.pairwise_cons.mpr ⟨fun token hmem => ?_, hrest⟩⟩
    · exact (Nat.le_add_right start width).trans (hstart token hmem)
    · exact Nat.lt_of_lt_of_le (Nat.lt_add_of_pos_right hpos) (hstart token hmem)

theorem tokens_ne_backslash (mark : RunMark) (start count : Nat) :
    ∀ token ∈ mark.tokens start count, token.kind ≠ .backslash := by
  apply mark.tokens_induction
    (motive := fun _ _ tokens => ∀ token ∈ tokens, token.kind ≠ .backslash)
  · exact fun _ => nofun
  · exact fun _ hkind hrest => List.forall_mem_cons.mpr ⟨hkind, hrest⟩

end RunMark

namespace Token

/-! ## Pushing a list of tokens -/

/-- The tokens passed and more of them, in order. -/
def pushAll (tokens done : List Token) : List Token :=
  tokens.foldl (fun done token => push token.kind token.span done) done

theorem pushAll_cons (token : Token) (tokens done : List Token) :
    pushAll (token :: tokens) done = pushAll tokens (push token.kind token.span done) := rfl

theorem pushAll_append (first second done : List Token) :
    pushAll (first ++ second) done = pushAll second (pushAll first done) := List.foldl_append

theorem Forward.pushAll {tokens done : List Token} (hdone : Forward done)
    (htokens : Forward tokens) : Forward (pushAll tokens done) := by
  induction tokens generalizing done with
  | nil => exact hdone
  | cons token tokens ih =>
      obtain ⟨htoken, htokens⟩ := List.forall_mem_cons.mp htokens
      exact ih (hdone.push htoken _) htokens

/-- Pushed tokens cover their own spans, and what was covered before stays so. -/
theorem covered_pushAll {tokens done : List Token} (hdone : Forward done)
    (htokens : Forward tokens) (kind : Kind) (offset : Nat) :
    Covered (pushAll tokens done) kind offset ↔
      Covered done kind offset ∨ Covered tokens kind offset := by
  induction tokens generalizing done with
  | nil => simp [pushAll, Covered]
  | cons token tokens ih =>
      obtain ⟨htoken, htokens⟩ := List.forall_mem_cons.mp htokens
      rw [pushAll_cons, ih (hdone.push htoken _) htokens, covered_push hdone htoken, covered_cons,
        or_assoc]
      rfl

/-- A mark is pushed as it is and stays. -/
theorem mem_pushAll {token : Token} {tokens done : List Token}
    (hmem : token ∈ done ∨ token ∈ tokens) (hkind : token.kind ≠ .text) :
    token ∈ pushAll tokens done := by
  induction tokens generalizing done with
  | nil => simpa [pushAll] using hmem
  | cons next tokens ih =>
      rw [pushAll_cons]
      apply ih
      rcases hmem with hdone | hnew
      · exact .inl (mem_push hdone hkind _ _ _)
      · rcases List.mem_cons.mp hnew with rfl | hnew
        · left
          rw [push_of_ne_text hkind]
          exact List.mem_cons_self
        · exact .inr hnew

theorem escapes_push {kind : Kind} (hkind : kind ≠ .backslash) (start stop : Nat)
    (done : List Token) (index : Nat) : escapes (push kind ⟨start, stop⟩ done) index = false := by
  rcases push_cases kind start stop done with hpush | ⟨first, before, -, -, hpush⟩
  · rw [hpush]
    simp [escapes, hkind]
  · rw [hpush]
    rfl

/-! ## Scanning a run -/

theorem runLength_replicate (glyph : Glyph) (count : Nat) {after : List Glyph}
    (hafter : after.head? ≠ some glyph) :
    runLength glyph (List.replicate count glyph ++ after) = count := by
  have hnone : after.takeWhile (· == glyph) = [] := by
    cases after with
    | nil => rfl
    | cons next after =>
        have hnext : (next == glyph) = false := by simpa using hafter
        rw [List.takeWhile_cons, hnext]
        rfl
  rw [runLength, List.takeWhile_append_of_pos (by simp), hnone]
  simp

/-- What the scanner takes where nothing is taken away. -/
theorem step_run (mark : RunMark) {done : List Token} {start : Nat}
    (hescapes : escapes done start = false) {after : List Glyph}
    (hafter : after.head? ≠ some mark.glyph) (count : Nat) :
    step done start mark.glyph (List.replicate count mark.glyph ++ after) =
      (push (mark.first (count + 1)).1 ⟨start, start + (mark.first (count + 1)).2⟩ done,
        (mark.first (count + 1)).2) := by
  have hreturn : mark.glyph ≠ .carriageReturn := by cases mark <;> decide
  have hpending : ¬ (escapes done start = true ∧ mark.glyph.isEscapable = true) := by
    simp [hescapes]
  unfold step
  rw [if_neg hreturn, if_neg hpending, mark.markAt_glyph, runLength_replicate _ _ hafter]

/-- A run that no backslash concerns is scanned into its tokens. -/
theorem scan_run (mark : RunMark) {done : List Token} {start : Nat}
    (hescapes : escapes done start = false) {after : List Glyph}
    (hafter : after.head? ≠ some mark.glyph) (count : Nat) :
    scan done start 0 (List.replicate count mark.glyph ++ after) =
      scan (pushAll (mark.tokens start count) done) (start + count) 0 after := by
  induction count using Nat.strongRecOn generalizing start done with
  | ind count ih =>
      rcases Nat.eq_zero_or_pos count with rfl | hcount
      · rw [mark.tokens_zero]
        rfl
      · obtain ⟨hwidth, htokens⟩ := mark.tokens_eq_cons start hcount
        have hpos := mark.first_pos hcount
        obtain ⟨more, left, rfl, hmore⟩ : ∃ more left, count = more + left + 1 ∧
            (mark.first count).2 = more + 1 :=
          ⟨(mark.first count).2 - 1, count - (mark.first count).2, by omega, by omega⟩
        have hstep := step_run mark hescapes hafter (more + left)
        have hkind := mark.first_ne_backslash hcount
        -- only the width of the token matters from here on, not how it follows from the run
        generalize mark.first (more + left + 1) = taken at *
        obtain ⟨kind, width⟩ := taken
        obtain rfl : width = more + 1 := hmore
        have hglyphs : List.replicate (more + left) mark.glyph ++ after =
            List.replicate more mark.glyph ++ (List.replicate left mark.glyph ++ after) := by
          rw [← List.append_assoc, List.replicate_append_replicate]
        have hleft : more + left + 1 - (more + 1) = left := by omega
        have hstop : start + (more + 1) + left = start + (more + left + 1) := by omega
        rw [hglyphs] at hstep
        rw [htokens, hleft, pushAll_cons, List.replicate_succ, List.cons_append, hglyphs, scan_taken,
          hstep, List.length_replicate, ih left (by omega) (escapes_push hkind ..), hstop]
        rw [hstep, List.length_replicate]

/-! ## Backslashes before a run -/

/-- The backslashes that pairs of backslashes leave as texts. -/
def literals (start pairs : Nat) : List Token :=
  (List.range pairs).map fun i => ⟨.text, ⟨start + 2 * i + 1, start + 2 * i + 2⟩⟩

theorem literals_succ (start pairs : Nat) :
    literals start (pairs + 1) =
      ⟨.text, ⟨start + 1, start + 1 + 1⟩⟩ :: literals (start + 2) pairs := by
  have hshift : ∀ i, start + 2 * (i + 1) = start + 2 + 2 * i := fun i => by omega
  unfold literals
  rw [List.range_succ_eq_map, List.map_cons, List.map_map]
  simp only [Function.comp_def, Nat.succ_eq_add_one, hshift, Nat.mul_zero, Nat.add_zero]

/-- Pairs of backslashes are scanned into one literal backslash each, and nothing is pending
after them. -/
theorem scan_pairs {done : List Token} {start : Nat} (hescapes : escapes done start = false)
    (pairs : Nat) (rest : List Glyph) :
    scan done start 0 (List.replicate (2 * pairs) Glyph.backslash ++ rest) =
        scan (pushAll (literals start pairs) done) (start + 2 * pairs) 0 rest ∧
      escapes (pushAll (literals start pairs) done) (start + 2 * pairs) = false := by
  induction pairs generalizing done start with
  | zero => exact ⟨rfl, hescapes⟩
  | succ pairs ih =>
      have hlength : 2 * (pairs + 1) = 2 * pairs + 1 + 1 := by omega
      have hstop : start + (2 * pairs + 1 + 1) = start + 1 + 1 + 2 * pairs := by omega
      have hescapable : Glyph.backslash.isEscapable = true := rfl
      have hreturn : Glyph.backslash ≠ .carriageReturn := nofun
      have htext : Kind.text ≠ .backslash := nofun
      have hpair := ih (escapes_push htext (start + 1) (start + 1 + 1) done (start + 1 + 1))
      rw [hlength, List.replicate_succ, List.replicate_succ, List.cons_append, List.cons_append,
        scan_escaped hescapes hescapable hreturn, literals_succ, pushAll_cons, hstop]
      exact hpair

/-- The tokens of a run after backslashes, from the first backslash on. -/
def afterBackslashes (mark : RunMark) (start backslashes count : Nat) : List Token :=
  literals start (backslashes / 2) ++
    (if backslashes % 2 = 1 then
      [⟨.text, ⟨start + backslashes, start + backslashes + 1⟩⟩] else []) ++
    mark.tokens (start + backslashes + backslashes % 2) (count - backslashes % 2)

theorem scan_afterBackslashes (mark : RunMark) {done : List Token} {start : Nat}
    (hescapes : escapes done start = false) {after : List Glyph}
    (hafter : after.head? ≠ some mark.glyph) (backslashes : Nat) {count : Nat} (hcount : 0 < count) :
    scan done start 0
        (List.replicate backslashes Glyph.backslash ++
          (List.replicate count mark.glyph ++ after)) =
      scan (pushAll (afterBackslashes mark start backslashes count) done)
        (start + backslashes + count) 0 after := by
  unfold afterBackslashes
  obtain ⟨pairs, rfl | rfl⟩ : ∃ pairs, backslashes = 2 * pairs ∨ backslashes = 2 * pairs + 1 :=
    ⟨backslashes / 2, by omega⟩
  · -- nothing is pending in front of the run
    obtain ⟨hscan, hnone⟩ := scan_pairs hescapes pairs (List.replicate count mark.glyph ++ after)
    have hhalf : 2 * pairs / 2 = pairs := by omega
    have heven : 2 * pairs % 2 = 0 := by omega
    rw [hscan, scan_run mark hnone hafter, hhalf, heven, if_neg nofun, List.append_nil,
      pushAll_append, Nat.add_zero, Nat.sub_zero]
  · -- one backslash is left over, and goes with the first glyph of the run
    have hhalf : (2 * pairs + 1) / 2 = pairs := by omega
    have hodd : (2 * pairs + 1) % 2 = 1 := by omega
    obtain ⟨left, rfl⟩ : ∃ left, count = left + 1 := ⟨count - 1, by omega⟩
    have hescapable : mark.glyph.isEscapable = true := by cases mark <;> rfl
    have hreturn : mark.glyph ≠ .carriageReturn := by cases mark <;> decide
    have htext : Kind.text ≠ .backslash := nofun
    obtain ⟨hscan, hnone⟩ := scan_pairs hescapes pairs
      (.backslash :: mark.glyph :: (List.replicate left mark.glyph ++ after))
    have hlist : List.replicate (2 * pairs + 1) Glyph.backslash ++
          (List.replicate (left + 1) mark.glyph ++ after) =
        List.replicate (2 * pairs) Glyph.backslash ++
          Glyph.backslash :: mark.glyph :: (List.replicate left mark.glyph ++ after) := by
      rw [List.replicate_succ', List.append_assoc, List.replicate_succ]
      rfl
    rw [hlist, hscan, scan_escaped hnone hescapable hreturn,
      scan_run mark (escapes_push htext _ _ _ _) hafter, hhalf, hodd, if_pos rfl, pushAll_append,
      pushAll_append, pushAll_cons, Nat.add_sub_cancel]
    congr 1
    omega

theorem filter_afterBackslashes (mark : RunMark) (start backslashes count : Nat) :
    (afterBackslashes mark start backslashes count).filter (·.kind ≠ .text) =
      (mark.tokens (start + backslashes + backslashes % 2) (count - backslashes % 2)).filter
        (·.kind ≠ .text) := by
  have hliterals : (literals start (backslashes / 2)).filter (·.kind ≠ .text) = [] := by
    simp [literals]
  unfold afterBackslashes
  rw [List.filter_append, List.filter_append, hliterals]
  split <;> simp

theorem covered_afterBackslashes {mark : RunMark} {start backslashes count : Nat} {kind : Kind}
    {offset : Nat} :
    Covered (afterBackslashes mark start backslashes count) kind offset ↔
      .text = kind ∧ (∃ pair < backslashes / 2, offset = start + 2 * pair + 1) ∨
      .text = kind ∧ backslashes % 2 = 1 ∧ offset = start + backslashes ∨
      Covered (mark.tokens (start + backslashes + backslashes % 2) (count - backslashes % 2))
        kind offset := by
  have happend : ∀ first second : List Token,
      Covered (first ++ second) kind offset ↔ Covered first kind offset ∨ Covered second kind offset := by
    intro first second
    simp [Covered, or_and_right, exists_or]
  have hliterals : Covered (literals start (backslashes / 2)) kind offset ↔
      .text = kind ∧ ∃ pair < backslashes / 2, offset = start + 2 * pair + 1 := by
    have hone : ∀ pair, start + 2 * pair + 1 ≤ offset ∧ offset < start + 2 * pair + 2 ↔
        offset = start + 2 * pair + 1 := fun pair => by omega
    simp only [Covered, literals, List.mem_map, List.mem_range, Span.Contains]
    constructor
    · rintro ⟨_, ⟨pair, hpair, rfl⟩, hkind, hcontains⟩
      exact ⟨hkind, pair, hpair, (hone pair).mp hcontains⟩
    · rintro ⟨hkind, pair, hpair, hoffset⟩
      exact ⟨_, ⟨pair, hpair, rfl⟩, hkind, (hone pair).mpr hoffset⟩
  have hescaped : Covered (if backslashes % 2 = 1 then
        [⟨.text, ⟨start + backslashes, start + backslashes + 1⟩⟩] else []) kind offset ↔
      .text = kind ∧ backslashes % 2 = 1 ∧ offset = start + backslashes := by
    have hone : start + backslashes ≤ offset ∧ offset < start + backslashes + 1 ↔
        offset = start + backslashes := by omega
    have hnone : ¬ Covered [] kind offset := by
      rintro ⟨_, hmem, -⟩
      cases hmem
    split
    next hodd => simp only [covered_cons, hnone, or_false, Span.Contains, hone, hodd, true_and]
    next heven => simp only [hnone, heven, false_and, and_false]
  unfold afterBackslashes
  rw [happend, happend, hliterals, hescaped, or_assoc]

theorem within_afterBackslashes (mark : RunMark) (start backslashes : Nat) {count : Nat}
    (hcount : 0 < count) :
    ∀ token ∈ afterBackslashes mark start backslashes count, start ≤ token.span.start ∧
      token.span.start < token.span.stop ∧ token.span.stop ≤ start + backslashes + count := by
  intro token hmem
  rcases List.mem_append.mp hmem with hmem | hmem
  · rcases List.mem_append.mp hmem with hmem | hmem
    · obtain ⟨pair, hpair, rfl⟩ := List.mem_map.mp hmem
      have hpair := List.mem_range.mp hpair
      dsimp only
      omega
    · split at hmem
      · obtain rfl := List.mem_singleton.mp hmem
        dsimp only
        omega
      · cases hmem
  · have hwithin := mark.within_tokens _ _ token hmem
    omega

theorem forward_afterBackslashes (mark : RunMark) (start backslashes : Nat) {count : Nat}
    (hcount : 0 < count) : Forward (afterBackslashes mark start backslashes count) :=
  fun token hmem => (within_afterBackslashes mark start backslashes hcount token hmem).2.1

theorem afterBackslashes_ne_backslash {mark : RunMark} {start backslashes count : Nat} {kind : Kind}
    {offset : Nat} (hcovered : Covered (afterBackslashes mark start backslashes count) kind offset) :
    kind ≠ .backslash := by
  rcases covered_afterBackslashes.mp hcovered with ⟨rfl, -⟩ | ⟨rfl, -⟩ | ⟨token, hmem, rfl, -⟩
  · exact nofun
  · exact nofun
  · exact mark.tokens_ne_backslash _ _ token hmem

end Token
end PageMarkup
