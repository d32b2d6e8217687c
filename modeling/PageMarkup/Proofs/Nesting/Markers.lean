import PageMarkup.Directive.Basic
import PageMarkup.Proofs.Line.Scanning

/-! # Opening markers

A token that opens an aggregate stands on the characters of the marker: the scanner takes a
run of them for the mark only if there are enough. So an opening marker can be read back from
the source at the offset where its token starts.
-/

namespace PageMarkup

namespace Aggregate

/-- The character that the opening marker is made of. -/
def markCharacter : Aggregate → Char
  | .style .strikethrough => '#'
  | .style (.heading _) => '='
  | .style _ => '*'
  | .bracket .noteRef => '\x7b'
  | .bracket _ => '['
  | .line .blockquote => '>'
  | .line .directive => '!'

/-- How often the character stands in the opening marker. The name of a directive does not count
as part of its marker. -/
def markLength : Aggregate → Nat
  | .style s => s.markLength
  | .bracket b => b.markLength
  | .line _ => 1

/-- The clusters of the opening marker. -/
def marker (aggregate : Aggregate) : List String :=
  List.replicate aggregate.markLength (String.singleton aggregate.markCharacter)

/-- What the scanner sees of every cluster of the opening marker. -/
def glyph : Aggregate → Glyph
  | .style .strikethrough => .hash
  | .style (.heading _) => .equals
  | .style _ => .star
  | .bracket .noteRef => .openBrace
  | .bracket _ => .openBracket
  | .line .blockquote => .greater
  | .line .directive => .bang

theorem markLength_pos (aggregate : Aggregate) : 0 < aggregate.markLength := by
  rcases aggregate with (_ | _ | _ | _ | (_ | _ | _ | _ | _)) | (_ | _ | _) | (_ | _) <;> decide

end Aggregate

theorem HeadingLevel.number_of_ofNumber? {number : Nat} {level : HeadingLevel}
    (hlevel : ofNumber? number = some level) : level.number = number := by
  unfold ofNumber? at hlevel
  split at hlevel <;> cases hlevel <;> rfl

namespace Glyph

/-- Only a cluster of the one character is seen as a part of the marker. -/
theorem eq_of_ofCluster {aggregate : Aggregate} {cluster : String}
    (hglyph : ofCluster cluster = aggregate.glyph) :
    cluster = String.singleton aggregate.markCharacter := by
  have hsees := sees_ofCluster cluster
  rw [hglyph] at hsees
  have hescapable : aggregate.glyph.isEscapable = true := by
    rcases aggregate with (_ | _ | _ | _ | _) | (_ | _ | _) | (_ | _) <;> rfl
  have hmarker : ofMarker? cluster.toList = some aggregate.glyph := by
    generalize aggregate.glyph = glyph at hsees hescapable
    cases hsees with
    | marker hmarker => exact hmarker
    | _ => cases hescapable
  rw [← String.toList_inj, String.toList_singleton]
  unfold ofMarker? at hmarker
  split at hmarker <;>
    rcases aggregate with (_ | _ | _ | _ | _) | (_ | _ | _) | (_ | _) <;>
    first | (cases hmarker; done) | assumption

end Glyph

namespace Token

/-! ## Scanning -/

/-- If the token opens an aggregate, then it covers the marker first. -/
def OnMarker (glyphs : List Glyph) (token : Token) : Prop :=
  ∀ aggregate : Aggregate, token.kind = aggregate.startedBy →
    List.replicate aggregate.markLength aggregate.glyph <+: glyphs.drop token.span.start ∧
      token.span.start < token.span.stop

theorem onMarker_of_text {glyphs : List Glyph} (span : Span) : OnMarker glyphs ⟨.text, span⟩ := by
  intro aggregate hkind
  cases aggregate <;> cases hkind

/-- A run of a glyph is at least as long as a mark that is taken from it. -/
theorem replicate_of_runLength {glyph : Glyph} {rest : List Glyph} {count : Nat}
    (hcount : count ≤ runLength glyph rest + 1) :
    List.replicate count glyph <+: glyph :: rest := by
  have hrun : rest.takeWhile (· == glyph) = List.replicate (runLength glyph rest) glyph :=
    List.eq_replicate_iff.mpr ⟨rfl, fun next hmem => by
      simpa using List.mem_takeWhile_imp hmem⟩
  have hprefix : List.replicate (runLength glyph rest) glyph <+: rest :=
    hrun ▸ List.takeWhile_prefix _
  refine List.IsPrefix.trans ?_ (List.prefix_cons_inj glyph |>.mpr hprefix)
  rw [← List.replicate_succ]
  exact List.prefix_replicate_iff.mpr ⟨by simpa using hcount, by simp⟩

/-- A mark that opens an aggregate is taken from its marker. -/
theorem markAt_opening {lineStart : Bool} {glyph : Glyph} {rest : List Glyph}
    {aggregate : Aggregate} (hkind : (markAt lineStart glyph rest).1 = aggregate.startedBy) :
    List.replicate aggregate.markLength aggregate.glyph <+: glyph :: rest ∧
      0 < (markAt lineStart glyph rest).2 := by
  have hstarts := Kind.starts?_eq_some_iff.mpr hkind
  clear hkind
  cases glyph with
  | bang =>
      cases lineStart <;> cases hstarts
      exact ⟨replicate_of_runLength (Nat.le_add_left 1 _), Nat.succ_pos _⟩
  | greater =>
      cases lineStart <;> cases hstarts
      exact ⟨replicate_of_runLength (Nat.le_add_left 1 _), Nat.one_pos⟩
  | hash =>
      simp only [markAt, hashMark] at hstarts ⊢
      split at hstarts
      next hrun =>
        cases hstarts
        exact ⟨replicate_of_runLength hrun.ge, by simp [hrun]⟩
      next => cases hstarts
  | star =>
      simp only [markAt] at hstarts ⊢
      generalize hrun : runLength .star rest + 1 = run at hstarts ⊢
      unfold starMark at hstarts ⊢
      split at hstarts
      next => cases hstarts; exact ⟨replicate_of_runLength hrun.ge, Nat.one_pos⟩
      next => cases hstarts; exact ⟨replicate_of_runLength hrun.ge, Nat.two_pos⟩
      next hone htwo =>
        cases hstarts
        refine ⟨replicate_of_runLength ?_, Nat.succ_pos 2⟩
        change 3 ≤ runLength .star rest + 1
        have hfew : run ≠ 1 ∧ run ≠ 2 := ⟨hone, htwo⟩
        omega
  | equals =>
      simp only [markAt, equalsMark, Kind.headingMark?] at hstarts ⊢
      cases hlevel : HeadingLevel.ofNumber? (runLength .equals rest + 1) with
      | none => rw [hlevel] at hstarts; cases hstarts
      | some level =>
          rw [hlevel] at hstarts
          cases hstarts
          exact ⟨replicate_of_runLength (HeadingLevel.number_of_ofNumber? hlevel).le,
            Nat.succ_pos _⟩
  | openBracket =>
      simp only [markAt] at hstarts ⊢
      generalize hrun : runLength .openBracket rest + 1 = run at hstarts ⊢
      unfold bracketMark at hstarts ⊢
      split at hstarts
      next => cases hstarts
      next => cases hstarts; exact ⟨replicate_of_runLength hrun.ge, Nat.two_pos⟩
      next hone htwo =>
        cases hstarts
        refine ⟨replicate_of_runLength ?_, Nat.succ_pos 2⟩
        change 3 ≤ runLength .openBracket rest + 1
        have hfew : run ≠ 1 ∧ run ≠ 2 := ⟨hone, htwo⟩
        omega
  | openBrace =>
      cases hstarts
      exact ⟨replicate_of_runLength (Nat.le_add_left 1 _), Nat.one_pos⟩
  | closeBracket =>
      simp only [markAt, bracketMark] at hstarts
      split at hstarts <;> cases hstarts
  | _ => cases hstarts

theorem onMarker_step {before : List Glyph} {done : List Token} {glyph : Glyph}
    {rest : List Glyph} (hdone : ∀ token ∈ done, token.OnMarker (before ++ glyph :: rest)) :
    ∀ token ∈ (step done before.length glyph rest).1,
      token.OnMarker (before ++ glyph :: rest) := by
  unfold step
  split
  next => exact hdone
  next =>
    split
    next =>
      exact forall_mem_push (onMarker_of_text _) (fun _ _ => onMarker_of_text _) fun token hmem =>
        hdone token (List.mem_of_mem_tail hmem)
    next =>
      refine forall_mem_push (fun aggregate hkind => ?_) (fun _ _ => onMarker_of_text _) hdone
      obtain ⟨hmarker, hwidth⟩ := markAt_opening hkind
      exact ⟨by simpa using hmarker, Nat.lt_add_of_pos_right hwidth⟩

theorem onMarker_scan (before rest : List Glyph) {done : List Token} (skip : Nat)
    (hdone : ∀ token ∈ done, token.OnMarker (before ++ rest)) :
    ∀ token ∈ scan done before.length skip rest, token.OnMarker (before ++ rest) := by
  induction rest generalizing before done skip with
  | nil => exact hdone
  | cons glyph rest ih =>
      have hnext : before ++ glyph :: rest = before ++ [glyph] ++ rest := by simp
      have hlength : before.length + 1 = (before ++ [glyph]).length := by simp
      unfold scan
      rw [hlength]
      cases skip with
      | zero => exact hnext ▸ ih _ _ (hnext ▸ onMarker_step hdone)
      | succ skip => exact hnext ▸ ih _ skip (hnext ▸ hdone)

end Token

theorem Lexeme.mem_of_mem_coalesce {lexeme : Lexeme} (hkind : lexeme.kind ≠ .text)
    {lexemes : List Lexeme} (hmem : lexeme ∈ coalesce lexemes) : lexeme ∈ lexemes := by
  induction lexemes with
  | nil => exact hmem
  | cons first rest ih =>
      change lexeme ∈ prepend first (coalesce rest) at hmem
      unfold prepend at hmem
      split at hmem
      next =>
        rw [List.mem_singleton.mp hmem]
        exact List.mem_cons_self
      next next tail hcoalesce =>
        rw [hcoalesce] at ih
        split at hmem
        next =>
          rcases List.mem_cons.mp hmem with rfl | hmem
          · exact absurd rfl hkind
          · exact List.mem_cons_of_mem _ (ih (List.mem_cons_of_mem _ hmem))
        next =>
          rcases List.mem_cons.mp hmem with rfl | hmem
          · exact List.mem_cons_self
          · exact List.mem_cons_of_mem _ (ih hmem)

namespace Source

/-! ## Sources -/

/-- A token that opens the aggregate starts at the offset, and its marker stands there. -/
def Opens (source : Source) (aggregate : Aggregate) (offset : Nat) : Prop :=
  (∃ token ∈ source.tokens, token.kind = aggregate.startedBy ∧ token.span.start = offset) ∧
    aggregate.marker <+: source.clusters.toList.drop offset

/-- Where an aggregate is opened there is a cluster of the source. -/
theorem Opens.lt_length {source : Source} {aggregate : Aggregate} {offset : Nat}
    (hopens : source.Opens aggregate offset) : offset < source.length := by
  have hlength := hopens.2.length_le
  rw [Aggregate.marker, List.length_replicate, List.length_drop, Array.length_toList] at hlength
  have hmark := aggregate.markLength_pos
  unfold length
  omega

theorem onMarker_tokens (source : Source) : ∀ token ∈ source.tokens,
    token.OnMarker source.glyphs := by
  intro token hmem
  rcases List.mem_cons.mp (List.mem_reverse.mp hmem) with rfl | hmem
  · intro aggregate hkind
    cases aggregate <;> cases hkind
  · exact Token.onMarker_scan [] source.glyphs 0 (by simp) token hmem

/-- A token that opens an aggregate stands on its marker. -/
theorem opens_of_mem_tokens {source : Source} {token : Token} (hmem : token ∈ source.tokens)
    {aggregate : Aggregate} (hkind : token.kind = aggregate.startedBy) :
    source.Opens aggregate token.span.start := by
  refine ⟨⟨token, hmem, hkind, rfl⟩, ?_⟩
  obtain ⟨⟨after, hglyphs⟩, -⟩ := source.onMarker_tokens token hmem aggregate hkind
  rw [glyphs, ← List.map_drop] at hglyphs
  obtain ⟨marker, rest, hclusters, hmarker, -⟩ := List.map_eq_append_iff.mp hglyphs.symm
  rw [hclusters, Aggregate.marker]
  obtain ⟨hlength, hall⟩ := List.eq_replicate_iff.mp hmarker
  have hsame : marker = List.replicate aggregate.markLength
      (String.singleton aggregate.markCharacter) := by
    refine List.eq_replicate_iff.mpr ⟨by simpa using hlength, fun cluster hmem => ?_⟩
    exact Glyph.eq_of_ofCluster (hall _ (List.mem_map_of_mem hmem))
  rw [hsame]
  exact List.prefix_append _ _

/-- A lexeme that opens an aggregate is a token that does. -/
theorem exists_token_of_starts {source : Source} {lexeme : Lexeme}
    (hmem : lexeme ∈ source.lexemes) {aggregate : Aggregate}
    (hkind : lexeme.kind = aggregate.startedBy) :
    ∃ token ∈ source.tokens, token.kind = aggregate.startedBy ∧ token.span = lexeme.span := by
  have hne : lexeme.kind ≠ .text := by
    rw [hkind]
    cases aggregate <;> nofun
  obtain ⟨token, htoken, rfl⟩ := List.mem_map.mp (Lexeme.mem_of_mem_coalesce hne hmem)
  refine ⟨token, htoken, ?_, rfl⟩
  unfold Lexeme.ofToken at hkind hne
  dsimp only at hkind hne
  split at hkind
  next htext => exact absurd (if_pos htext) hne
  next => exact hkind

theorem opens_of_mem_lexemes {source : Source} {lexeme : Lexeme} (hmem : lexeme ∈ source.lexemes)
    {aggregate : Aggregate} (hkind : lexeme.kind = aggregate.startedBy) :
    source.Opens aggregate lexeme.span.start := by
  obtain ⟨token, htoken, hstarts, hspan⟩ := exists_token_of_starts hmem hkind
  exact hspan ▸ opens_of_mem_tokens htoken hstarts

end Source

/-! ## Marks of directives -/

namespace Source

/-- The text under the mark of a directive begins with an exclamation mark. -/
theorem slice_directive {source : Source} {token : Token} (hmem : token ∈ source.tokens)
    (hkind : token.kind = .lineMark .directive) :
    ∃ rest, (source.slice token.span).toList = '!' :: rest := by
  have hopens : source.Opens (.line .directive) token.span.start := opens_of_mem_tokens hmem hkind
  have hlt : token.span.start < token.span.stop :=
    (source.onMarker_tokens token hmem (.line .directive) hkind).2
  obtain ⟨after, hclusters⟩ := hopens.2
  have hcluster : source.clusters[token.span.start]? = some "!" := by
    have hhead := congrArg List.head? hclusters.symm
    rwa [List.head?_drop, Array.getElem?_toList] at hhead
  have hhead : source.cluster? token.span.start = some "!" := by
    rw [cluster?, if_neg (Nat.ne_of_lt hopens.lt_length), hcluster]
  have hlength : token.span.length = (token.span.length - 1) + 1 := by
    unfold Span.length
    omega
  rw [slice, hlength, List.range'_succ, List.filterMap_cons, hhead]
  simp [String.join_cons]

end Source

/-- The mark of a directive can be read. -/
theorem Directive.parseOpening?_isSome {source : Source} {lexeme : Lexeme}
    (hmem : lexeme ∈ source.lexemes) (hkind : lexeme.kind = .lineMark .directive) :
    (parseOpening? (source.slice lexeme.span)).isSome := by
  have hstarts : lexeme.kind = Aggregate.startedBy (.line .directive) := hkind
  obtain ⟨token, htoken, htokenKind, hspan⟩ := Source.exists_token_of_starts hmem hstarts
  obtain ⟨rest, hslice⟩ := source.slice_directive htoken htokenKind
  rw [hspan] at hslice
  simp only [parseOpening?, hslice]
  split <;> rfl

end PageMarkup
