import PageMarkup.Proofs.Line.MarkRuns

/-! # Runs of marks in a source

What stands before a run and the backslashes before it does not matter, as long as the run is not
a part of the mark of a directive. The scanner comes by the first backslash with nothing to be
taken over from the glyphs before, since a token takes nothing but equal glyphs together. What
stands after the run does not matter either: no token is changed once the scanner is past it,
except that a text goes on and a backslash goes.
-/

namespace PageMarkup

namespace Token

/-! ## In front of a run -/

theorem escapes_eq_false_of_getLast? {front rest : List Glyph} {done : List Token}
    (hdone : Tiles (front ++ rest) front.length done) (hlast : front.getLast? ≠ some .backslash) :
    escapes done front.length = false := by
  cases done with
  | nil => rfl
  | cons token before =>
      by_contra hescapes
      rw [escapes, Bool.not_eq_false, Bool.and_eq_true, beq_iff_eq, beq_iff_eq] at hescapes
      obtain ⟨hstop, hbackslash⟩ := hdone.faithful.backslashes token List.mem_cons_self hescapes.1
      have hpos : token.span.start = front.length - 1 := by omega
      have hlt : token.span.start < front.length := by omega
      rw [List.getElem?_append_left hlt, hpos, ← List.getLast?_eq_getElem?] at hbackslash
      exact hlast hbackslash

/-- A mark that the scanner takes stays. -/
theorem mem_scan_of_step {done : List Token} {index : Nat} {glyph : Glyph} {rest : List Glyph}
    (hforward : Forward done) {token : Token} (hmem : token ∈ (step done index glyph rest).1)
    (htext : token.kind ≠ .text) (hbackslash : token.kind ≠ .backslash) :
    token ∈ scan done index 0 (glyph :: rest) := by
  have hnext := ((Kept.refl 0 done).step hforward (Nat.zero_le index) glyph rest).2
  have hkept := (Kept.refl 0 (step done index glyph rest).1).scan hnext (Nat.zero_le (index + 1))
    ((step done index glyph rest).2 - 1) rest
  exact hkept.marks token hmem htext hbackslash

/-- A token of several glyphs takes nothing away. -/
theorem step_of_one_lt {done : List Token} {index : Nat} {glyph : Glyph} {rest : List Glyph}
    (hwidth : 1 < (step done index glyph rest).2) :
    step done index glyph rest =
      (push (markAt (atLineStart done) glyph rest).1
        ⟨index, index + (markAt (atLineStart done) glyph rest).2⟩ done,
        (markAt (atLineStart done) glyph rest).2) := by
  unfold step at hwidth ⊢
  split_ifs at hwidth ⊢
  · exact absurd hwidth (Nat.lt_irrefl 1)
  · exact absurd hwidth (Nat.lt_irrefl 1)
  · rfl

/-- A token of equal glyphs that goes over a place has one of them on each side. -/
theorem same_across {before left rest : List Glyph} {glyph : Glyph} {width : Nat}
    (hrun : List.replicate width glyph <+: glyph :: (left ++ rest))
    (hover : left.length + 1 < width) :
    (before ++ glyph :: left).getLast? = some glyph ∧ rest.head? = some glyph := by
  obtain ⟨after, hafter⟩ := hrun
  have hsame : ∀ count < width, (glyph :: (left ++ rest))[count]? = some glyph := by
    intro count hcount
    rw [← hafter, List.getElem?_append_left (by simpa using hcount), List.getElem?_replicate,
      if_pos hcount]
  constructor
  · have hget := hsame left.length (Nat.lt_of_succ_lt hover)
    rw [← List.cons_append, List.getElem?_append_left (by simp)] at hget
    rw [List.getLast?_append_of_ne_nil _ (List.cons_ne_nil _ _), List.getLast?_eq_getElem?,
      List.length_cons, Nat.add_sub_cancel, hget]
  · have hget := hsame (left.length + 1) hover
    rwa [List.getElem?_cons_succ, List.getElem?_append_right (Nat.le_refl _), Nat.sub_self,
      ← List.head?_eq_getElem?] at hget

/-- What goes on past the end of a list takes all of it. -/
theorem length_takeWhile_append {p : Glyph → Bool} {left rest : List Glyph}
    (hover : left.length < ((left ++ rest).takeWhile p).length) :
    ((left ++ rest).takeWhile p).length = left.length + (rest.takeWhile p).length := by
  rw [List.takeWhile_append] at hover ⊢
  split
  next => rw [List.length_append]
  next hshort =>
    rw [if_neg hshort] at hover
    exact absurd (left.takeWhile_prefix p).length_le hover.not_ge

/-- The scanner stops in front of a glyph that differs from the one before it, unless the mark of
a directive takes both. -/
theorem exists_scan_front {front rest : List Glyph} {glyph : Glyph}
    (hhead : rest.head? = some glyph) (hlast : front.getLast? ≠ some glyph) {distance : Nat}
    (hword : distance < (rest.takeWhile (!·.isBlank)).length)
    (houtside : ∀ token ∈ scan [] 0 0 (front ++ rest), token.kind = .lineMark .directive →
      ¬ token.span.Contains (front.length + distance)) :
    ∃ done, Tiles (front ++ rest) front.length done ∧
      scan [] 0 0 (front ++ rest) = scan done front.length 0 rest := by
  have hglyphs : front ++ rest = [] ++ (front ++ rest) := rfl
  rcases stops_or_straddles hglyphs (Tiles.nil _) with
    hstops | ⟨before, first, left, done, hfront, hdone, hscan, hover⟩
  · exact hstops
  rw [List.nil_append] at hfront
  subst hfront
  exfalso
  have hstep := step_of_one_lt (Nat.lt_of_le_of_lt (Nat.le_add_left 1 left.length) hover)
  rw [hstep] at hover
  rcases markAt_taken (atLineStart done) first (left ++ rest) with hrun | ⟨-, hmark⟩
  · -- the glyphs on both sides of the offset would be the same
    obtain ⟨hprevious, hnext⟩ := same_across hrun hover
    rw [hnext] at hhead
    exact hlast (hprevious.trans hhead)
  · -- the mark of a directive goes on up to white space
    have htext : Kind.lineMark .directive ≠ .text := nofun
    have hbackslash : Kind.lineMark .directive ≠ .backslash := nofun
    rw [hmark] at hstep hover
    rw [push_of_ne_text htext] at hstep
    have hmem := mem_scan_of_step hdone.placed.forward
      (by rw [hstep]; exact List.mem_cons_self) htext hbackslash
    rw [← hscan] at hmem
    have htake := length_takeWhile_append (Nat.lt_of_succ_lt_succ hover)
    have hfront : (before ++ first :: left).length = before.length + (left.length + 1) := by simp
    apply houtside _ hmem rfl
    constructor
    · rw [hfront, Nat.add_assoc]
      exact Nat.le_add_right ..
    · dsimp only
      omega

end Token

/-! ## Runs in a source -/

/-- A run of a mark and the backslashes right before it, between what stands before and after
them. -/
structure Source.HasRun (source : Source) (mark : RunMark) (before after : List String)
    (backslashes count : Nat) : Prop where
  clusters : source.clusters.toList = before ++ (List.replicate backslashes "\\" ++
    (List.replicate count mark.cluster ++ after))
  occurs : 0 < count
  /-- No backslash is left before those counted. -/
  fromBackslash : before.getLast? ≠ some "\\"
  /-- No part of the run is left before the glyphs counted, … -/
  fromFirst : backslashes = 0 → before.getLast? ≠ some mark.cluster
  /-- … and none after them. -/
  toLast : after.head? ≠ some mark.cluster
  outside : ∀ token ∈ source.tokens, token.kind = .lineMark .directive →
    ¬ token.span.Contains (before.length + backslashes)

/-- What the tokens of a source make of a run and of the backslashes before it. The run goes on
after an odd backslash with one glyph less, and one offset further. -/
structure Source.Splits (source : Source) (mark : RunMark) (start backslashes count : Nat) :
    Prop where
  /-- The first backslash of a pair, and the last of an odd number of them, leaves nothing. -/
  gone : ∀ pair, 2 * pair < backslashes → ¬ source.Covers (start + 2 * pair)
  /-- The second backslash of a pair is text. -/
  literal : ∀ pair, 2 * pair + 1 < backslashes →
    Token.Covered source.tokens .text (start + 2 * pair + 1)
  /-- The glyph after an odd number of backslashes is text. -/
  escaped : backslashes % 2 = 1 → Token.Covered source.tokens .text (start + backslashes)
  run : ∀ offset, start + backslashes + backslashes % 2 ≤ offset →
    offset < start + backslashes + count → ∀ kind, Token.Covered source.tokens kind offset ↔
      Token.Covered (mark.tokens (start + backslashes + backslashes % 2) (count - backslashes % 2))
        kind offset
  /-- What is no text is what the run is split into, token for token. -/
  marks : source.tokens.filter (fun token => token.kind ≠ .text ∧ start ≤ token.span.start ∧
      token.span.start < start + backslashes + count) =
    (mark.tokens (start + backslashes + backslashes % 2) (count - backslashes % 2)).filter
      (·.kind ≠ .text)

section HasRun

open Token

variable {source : Source} {mark : RunMark} {before after : List String} {backslashes count : Nat}

namespace Source

theorem HasRun.glyphs (hrun : source.HasRun mark before after backslashes count) :
    source.glyphs = before.map Glyph.ofCluster ++ (List.replicate backslashes Glyph.backslash ++
      (List.replicate count mark.glyph ++ after.map Glyph.ofCluster)) := by
  have hbackslash : Glyph.ofCluster "\\" = .backslash := by decide
  rw [Source.glyphs, hrun.clusters]
  simp [hbackslash, mark.ofCluster_cluster]

theorem map_ne_of_ne {found : Option String} {marker : String} (hmarker : marker ∈ markers)
    (hne : found ≠ some marker) : found.map Glyph.ofCluster ≠ some (Glyph.ofCluster marker) := by
  intro hglyph
  obtain ⟨cluster, rfl, hsame⟩ := Option.map_eq_some_iff.mp hglyph
  exact hne (congrArg some (Glyph.ofCluster_inj hmarker hsame))

theorem HasRun.getLast?_ne_backslash (hrun : source.HasRun mark before after backslashes count) :
    (before.map Glyph.ofCluster).getLast? ≠ some .backslash := by
  have hescape : "\\" ∈ markers := by decide
  rw [List.getLast?_map]
  exact map_ne_of_ne hescape hrun.fromBackslash

/-- The backslashes and the run start with a glyph that differs from the one before them. -/
theorem HasRun.exists_head (hrun : source.HasRun mark before after backslashes count) :
    ∃ head, (List.replicate backslashes Glyph.backslash ++
        (List.replicate count mark.glyph ++ after.map Glyph.ofCluster)).head? = some head ∧
      (before.map Glyph.ofCluster).getLast? ≠ some head := by
  cases backslashes with
  | zero =>
      have hmarker : mark.cluster ∈ markers := by cases mark <;> decide
      refine ⟨mark.glyph, ?_, ?_⟩
      · simp [List.head?_append, List.head?_replicate, hrun.occurs.ne']
      · rw [List.getLast?_map, ← mark.ofCluster_cluster]
        exact map_ne_of_ne hmarker (hrun.fromFirst rfl)
  | succ backslashes =>
      refine ⟨.backslash, ?_, hrun.getLast?_ne_backslash⟩
      rw [List.replicate_succ]
      rfl

/-- No white space parts the run from the backslashes before it. -/
theorem HasRun.lt_length_word (hrun : source.HasRun mark before after backslashes count) :
    backslashes < ((List.replicate backslashes Glyph.backslash ++
      (List.replicate count mark.glyph ++ after.map Glyph.ofCluster)).takeWhile
        (!·.isBlank)).length := by
  have hblank : mark.glyph.isBlank = false := by cases mark <;> rfl
  have hpos := hrun.occurs
  rw [List.takeWhile_append_of_pos (by simp [Glyph.isBlank]),
    List.takeWhile_append_of_pos (by simp [hblank]), List.length_append, List.length_append,
    List.length_replicate, List.length_replicate]
  omega

/-- The scanner comes by the first backslash, splits the run and goes on behind it. -/
theorem HasRun.exists_scan (hrun : source.HasRun mark before after backslashes count) :
    ∃ done, Tiles source.glyphs before.length done ∧
      source.openTokens.reverse =
        scan (pushAll (afterBackslashes mark before.length backslashes count) done)
          (before.length + backslashes + count) 0 (after.map Glyph.ofCluster) := by
  have hmarker : mark.cluster ∈ markers := by cases mark <;> decide
  have hafter : (after.map Glyph.ofCluster).head? ≠ some mark.glyph := by
    rw [List.head?_map, ← mark.ofCluster_cluster]
    exact map_ne_of_ne hmarker hrun.toLast
  have hscanned : source.openTokens.reverse = scan [] 0 0 source.glyphs := by
    rw [openTokens, List.reverse_reverse]
  have houtside : ∀ token ∈ scan [] 0 0 source.glyphs, token.kind = .lineMark .directive →
      ¬ token.span.Contains ((before.map Glyph.ofCluster).length + backslashes) := by
    intro token hmem
    rw [List.length_map]
    apply hrun.outside token
    rw [tokens_eq]
    rw [← hscanned] at hmem
    exact List.mem_append_left _ (List.mem_reverse.mp hmem)
  obtain ⟨head, hhead, hlast⟩ := hrun.exists_head
  rw [hrun.glyphs] at houtside
  obtain ⟨done, hdone, hscan⟩ := exists_scan_front hhead hlast hrun.lt_length_word houtside
  have hescapes := escapes_eq_false_of_getLast? hdone hrun.getLast?_ne_backslash
  rw [← hrun.glyphs] at hdone hscan
  rw [List.length_map] at hdone hscan hescapes
  refine ⟨done, hdone, ?_⟩
  rw [hscanned, hscan, scan_afterBackslashes mark hescapes hafter backslashes hrun.occurs]

/-- What is scanned after the run keeps the tokens that the run is split into. -/
theorem HasRun.exists_kept (hrun : source.HasRun mark before after backslashes count) :
    ∃ done, Placed before.length done ∧
      Kept (before.length + backslashes + count)
        (pushAll (afterBackslashes mark before.length backslashes count) done)
        source.openTokens.reverse := by
  obtain ⟨done, hdone, hscan⟩ := hrun.exists_scan
  have hnew := forward_afterBackslashes mark before.length backslashes hrun.occurs
  refine ⟨done, hdone.placed, ?_⟩
  rw [hscan]
  exact (Kept.refl _ _).scan (hdone.placed.forward.pushAll hnew) (Nat.le_refl _) 0 _

theorem HasRun.length_eq (hrun : source.HasRun mark before after backslashes count) :
    source.length = before.length + backslashes + count + after.length := by
  rw [← length_glyphs, hrun.glyphs]
  simp [Nat.add_assoc]

/-- What covers the backslashes and the run are the tokens that these are split into. -/
theorem HasRun.covered_iff (hrun : source.HasRun mark before after backslashes count)
    {kind : Kind} {offset : Nat} (hstart : before.length ≤ offset)
    (hstop : offset < before.length + backslashes + count) :
    Covered source.tokens kind offset ↔
      Covered (afterBackslashes mark before.length backslashes count) kind offset := by
  obtain ⟨done, hplaced, hkept⟩ := hrun.exists_kept
  have hnew := forward_afterBackslashes mark before.length backslashes hrun.occurs
  have hopen : Covered source.tokens kind offset ↔ Covered source.openTokens.reverse kind offset := by
    have hlength := hrun.length_eq
    have hlast : offset ≠ source.length := by omega
    rw [covered_tokens_iff, covered_reverse]
    simp [hlast]
  rw [hopen]
  constructor
  · intro hcovered
    rcases (covered_pushAll hplaced.forward hnew ..).mp (hkept.before hstop hcovered) with
      ⟨token, hmem, -, hcontains⟩ | hcovered
    · -- what was passed before ends before the first backslash
      exact absurd (hcontains.2.trans_le (hplaced.within token hmem)) hstart.not_gt
    · exact hcovered
  · intro hcovered
    apply hkept.covered (afterBackslashes_ne_backslash hcovered)
    exact (covered_pushAll hplaced.forward hnew ..).mpr (.inr hcovered)

theorem HasRun.mem_tokens (hrun : source.HasRun mark before after backslashes count) {token : Token}
    (hmem : token ∈ afterBackslashes mark before.length backslashes count)
    (hkind : token.kind ≠ .text) : token ∈ source.tokens := by
  obtain ⟨done, -, hkept⟩ := hrun.exists_kept
  have hforward := forward_afterBackslashes mark before.length backslashes hrun.occurs token hmem
  have hbackslash : token.kind ≠ .backslash :=
    afterBackslashes_ne_backslash ⟨token, hmem, rfl, Nat.le_refl _, hforward⟩
  have hopen := hkept.marks token (mem_pushAll (.inr hmem) hkind) hkind hbackslash
  rw [tokens_eq]
  exact List.mem_append_left _ (List.mem_reverse.mp hopen)

/-- A token that starts on the backslashes or on the run and is no text comes from the run. -/
theorem HasRun.mem_tokens_iff (hrun : source.HasRun mark before after backslashes count)
    {token : Token} (hkind : token.kind ≠ .text) :
    token ∈ source.tokens ∧ before.length ≤ token.span.start ∧
        token.span.start < before.length + backslashes + count ↔
      token ∈ afterBackslashes mark before.length backslashes count := by
  constructor
  · rintro ⟨hmem, hstart, hstop⟩
    have hforward := source.placed_tokens.forward token (List.mem_reverse.mpr hmem)
    have hcovered : Covered source.tokens token.kind token.span.start :=
      ⟨token, hmem, rfl, Nat.le_refl _, hforward⟩
    obtain ⟨other, hother, hsame, hcontains⟩ := (hrun.covered_iff hstart hstop).mp hcovered
    rw [← hsame] at hkind
    -- no text is left at the start of a mark, so the two are one token
    have heq := eq_of_contains hmem (hrun.mem_tokens hother hkind) ⟨Nat.le_refl _, hforward⟩ hcontains
    rwa [heq]
  · intro hmem
    have hwithin := within_afterBackslashes mark before.length backslashes hrun.occurs token hmem
    exact ⟨hrun.mem_tokens hmem hkind, hwithin.1, hwithin.2.1.trans_le hwithin.2.2⟩

/-- What starts on the backslashes or on the run and is no text is what the run is split into. -/
theorem HasRun.filter_tokens (hrun : source.HasRun mark before after backslashes count) :
    source.tokens.filter (fun token => token.kind ≠ .text ∧ before.length ≤ token.span.start ∧
        token.span.start < before.length + backslashes + count) =
      (mark.tokens (before.length + backslashes + backslashes % 2) (count - backslashes % 2)).filter
        (·.kind ≠ .text) := by
  rw [← filter_afterBackslashes]
  let Earlier (first second : Token) : Prop := first.span.start < second.span.start
  have hirrefl : Std.Irrefl Earlier := ⟨fun token => Nat.lt_irrefl token.span.start⟩
  have hantisymm : Std.Antisymm Earlier :=
    ⟨fun _ _ hfirst hsecond => absurd hsecond (Nat.lt_asymm hfirst)⟩
  -- both lists ascend, so they are equal once they have the same members
  apply List.Pairwise.eq_of_mem_iff (r := Earlier)
  · refine (source.apart_tokens.imp_of_mem ?_).filter _
    intro first second hfirst _ happly
    exact (source.placed_tokens.forward first (List.mem_reverse.mpr hfirst)).trans_le happly
  · rw [filter_afterBackslashes]
    exact (mark.ascending_tokens _ _).filter _
  · intro token
    simp only [List.mem_filter, decide_eq_true_eq]
    constructor
    · rintro ⟨hmem, hkind, hinside⟩
      exact ⟨(hrun.mem_tokens_iff hkind).mp ⟨hmem, hinside⟩, hkind⟩
    · rintro ⟨hmem, hkind⟩
      obtain ⟨hmem, hinside⟩ := (hrun.mem_tokens_iff hkind).mpr hmem
      exact ⟨hmem, hkind, hinside⟩

/-- Every run of a mark is split by its length and the number of backslashes before it, whatever
stands before and after. -/
theorem tokens_split (source : Source) (mark : RunMark) (before after : List String)
    (backslashes count : Nat) (hrun : source.HasRun mark before after backslashes count) :
    source.Splits mark before.length backslashes count := by
  have hpos := hrun.occurs
  have hwithin := mark.within_tokens (before.length + backslashes + backslashes % 2)
    (count - backslashes % 2)
  refine ⟨fun pair hpair => ?_, fun pair hpair => ?_, fun hodd => ?_, ?_, ?_⟩
  · rintro ⟨token, hmem, hcontains⟩
    have hcovered := (hrun.covered_iff (by omega) (by omega)).mp ⟨token, hmem, rfl, hcontains⟩
    rcases covered_afterBackslashes.mp hcovered with ⟨-, other, -, hoffset⟩ | ⟨-, hodd, hoffset⟩ |
      ⟨other, hother, -, hinto⟩
    · omega
    · omega
    · have hstart := (hwithin other hother).1
      have hle := hinto.1
      omega
  · apply (hrun.covered_iff (by omega) (by omega)).mpr
    exact covered_afterBackslashes.mpr (.inl ⟨rfl, pair, by omega, rfl⟩)
  · apply (hrun.covered_iff (by omega) (by omega)).mpr
    exact covered_afterBackslashes.mpr (.inr (.inl ⟨rfl, hodd, rfl⟩))
  · intro offset hstart hstop kind
    rw [hrun.covered_iff (by omega) hstop, covered_afterBackslashes]
    have hpairs : ¬ ∃ pair < backslashes / 2, offset = before.length + 2 * pair + 1 := by
      rintro ⟨pair, hpair, rfl⟩
      omega
    have hescaped : ¬ (backslashes % 2 = 1 ∧ offset = before.length + backslashes) := by omega
    simp only [hpairs, hescaped, and_false, false_or]
  · exact hrun.filter_tokens

/-- Three backslashes leave one and take a star away; the other four are split in two. -/
theorem splits_four_stars : (ofClusters ["a", "\\", "\\", "\\", "*", "*", "*", "*", "*", "b"]).HasRun
      .star ["a"] ["b"] 3 5 ∧
    (ofClusters ["a", "\\", "\\", "\\", "*", "*", "*", "*", "*", "b"]).Splits .star 1 3 5 := by
  have hrun : (ofClusters ["a", "\\", "\\", "\\", "*", "*", "*", "*", "*", "b"]).HasRun
      .star ["a"] ["b"] 3 5 :=
    ⟨rfl, by decide, by decide, by decide, by decide, by decide⟩
  exact ⟨hrun, tokens_split _ _ _ _ _ _ hrun⟩

end Source
end HasRun

end PageMarkup
