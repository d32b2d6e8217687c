import Mathlib.Data.List.Sort
import PageMarkup.Proofs.Line.Coverage
import PageMarkup.Proofs.Line.Literal

/-! # Tokens and lexemes tile the source

The tokens of a source stand one before the other and end with the newline of the last line.
Nothing is lost between them but carriage returns and the backslashes that took a meaning away,
and what is left is the text that the lexemes say. A newline parts the tokens: those before it are
the tokens of the text before it, and those after it are the tokens of the text after it.
-/

namespace PageMarkup

/-! ## Lexemes -/

namespace Lexeme

/-- Joining neighbouring texts loses nothing. -/
theorem join_coalesce (lexemes : List Lexeme) :
    String.join ((coalesce lexemes).map Lexeme.text) = String.join (lexemes.map Lexeme.text) := by
  induction lexemes with
  | nil => rfl
  | cons lexeme rest ih =>
      rw [List.map_cons, String.join_cons, ← ih]
      change String.join ((prepend lexeme (coalesce rest)).map Lexeme.text) = _
      unfold prepend
      split
      next hcoalesce => simp [hcoalesce]
      next hcoalesce =>
        rw [hcoalesce]
        split <;> simp [String.append_assoc]

/-- No text is left right before a text. -/
theorem isChain_coalesce (lexemes : List Lexeme) :
    (coalesce lexemes).IsChain fun first second => ¬ (first.kind = .text ∧ second.kind = .text) := by
  induction lexemes with
  | nil => exact .nil
  | cons lexeme rest ih =>
      change (prepend lexeme (coalesce rest)).IsChain _
      unfold prepend
      split
      next => exact .singleton _
      next next others hcoalesce =>
        rw [hcoalesce] at ih
        split
        next hjoin =>
          -- what follows the joined text followed a text before
          obtain ⟨hnext, hothers⟩ := List.isChain_cons.mp ih
          refine List.isChain_cons.mpr ⟨fun other hmem hboth => ?_, hothers⟩
          exact hnext other hmem ⟨hjoin.2, hboth.2⟩
        next hjoin =>
          refine List.isChain_cons.mpr ⟨fun other hmem => ?_, ih⟩
          obtain rfl : next = other := by simpa using hmem
          exact hjoin

/-- Lexemes that stand one before the other. -/
structure Placed (lexemes : List Lexeme) : Prop where
  forward : ∀ lexeme ∈ lexemes, lexeme.span.start < lexeme.span.stop
  apart : lexemes.Pairwise fun first second => first.span.stop ≤ second.span.start

theorem start_coalesce {bound : Nat} {lexemes : List Lexeme}
    (hbound : ∀ lexeme ∈ lexemes, bound ≤ lexeme.span.start) :
    ∀ lexeme ∈ coalesce lexemes, bound ≤ lexeme.span.start := by
  induction lexemes with
  | nil => exact hbound
  | cons lexeme rest ih =>
      obtain ⟨hlexeme, hrest⟩ := List.forall_mem_cons.mp hbound
      have ih := ih hrest
      change ∀ other ∈ prepend lexeme (coalesce rest), _
      unfold prepend
      split
      next => exact List.forall_mem_singleton.mpr hlexeme
      next next others hcoalesce =>
        rw [hcoalesce] at ih
        obtain ⟨hnext, hothers⟩ := List.forall_mem_cons.mp ih
        split
        · exact List.forall_mem_cons.mpr ⟨Nat.le_min.mpr ⟨hlexeme, hnext⟩, hothers⟩
        · exact List.forall_mem_cons.mpr ⟨hlexeme, ih⟩

/-- Joined texts cover what lies between them, so the lexemes stay one before the other. -/
theorem Placed.coalesce {lexemes : List Lexeme} (hplaced : Placed lexemes) :
    Placed (coalesce lexemes) := by
  induction lexemes with
  | nil => exact hplaced
  | cons lexeme rest ih =>
      obtain ⟨hlexeme, hrest⟩ := List.forall_mem_cons.mp hplaced.forward
      obtain ⟨hfirst, hothers⟩ := List.pairwise_cons.mp hplaced.apart
      obtain ⟨hforward, hapart⟩ := ih ⟨hrest, hothers⟩
      have hbound := start_coalesce hfirst
      change Placed (prepend lexeme (Lexeme.coalesce rest))
      unfold prepend
      split
      next => exact ⟨List.forall_mem_singleton.mpr hlexeme, List.pairwise_singleton _ _⟩
      next next others hcoalesce =>
        rw [hcoalesce] at hforward hapart hbound
        split
        next =>
          obtain ⟨hnext, hforward⟩ := List.forall_mem_cons.mp hforward
          obtain ⟨hbeside, hapart⟩ := List.pairwise_cons.mp hapart
          obtain ⟨hbefore, -⟩ := List.forall_mem_cons.mp hbound
          have hstop : max lexeme.span.stop next.span.stop = next.span.stop := by omega
          refine ⟨List.forall_mem_cons.mpr ⟨?_, hforward⟩, List.pairwise_cons.mpr ⟨?_, hapart⟩⟩
          · change min lexeme.span.start next.span.start < max lexeme.span.stop next.span.stop
            omega
          · intro other hmem
            change max lexeme.span.stop next.span.stop ≤ other.span.start
            rw [hstop]
            exact hbeside other hmem
        next =>
          exact ⟨List.forall_mem_cons.mpr ⟨hlexeme, hforward⟩,
            List.pairwise_cons.mpr ⟨hbound, hapart⟩⟩

end Lexeme

/-! ## Sources -/

namespace Glyph

/-- Only a marker can lose its meaning. -/
theorem mem_markers_of_isEscapable {cluster : String}
    (hescapable : (ofCluster cluster).isEscapable = true) : cluster ∈ Source.markers := by
  have hsees := sees_ofCluster cluster
  generalize ofCluster cluster = glyph at hsees hescapable
  cases hsees with
  | marker hmarker => exact mem_markers_of_ofMarker? hmarker
  | _ => cases hescapable

/-- A glyph whose meaning a backslash can take away belongs to one marker only. -/
theorem ofCluster_inj {cluster marker : String} (hmarker : marker ∈ Source.markers)
    (hglyph : ofCluster cluster = ofCluster marker) : cluster = marker := by
  have hall : ∀ first ∈ Source.markers, ∀ second ∈ Source.markers,
      ofCluster first = ofCluster second → first = second := by decide
  apply hall cluster _ marker hmarker hglyph
  apply mem_markers_of_isEscapable
  rw [hglyph]
  exact (ofCluster_of_marker hmarker).1

end Glyph

namespace Source

/-- A token covers the offset. -/
def Covers (source : Source) (offset : Nat) : Prop :=
  ∃ token ∈ source.tokens, token.span.Contains offset

instance (source : Source) (offset : Nat) : Decidable (source.Covers offset) :=
  inferInstanceAs (Decidable (∃ token ∈ source.tokens, token.span.Contains offset))

/-- The clusters of the text that tokens cover, in order. -/
def keptClusters (source : Source) : List String :=
  ((List.range source.length).filter fun offset => source.Covers offset).filterMap
    fun offset => source.clusters[offset]?

/-- Tokens that stand one before the other cover their offsets in ascending order. -/
theorem flatMap_offsets {tokens : List Token} {limit : Nat}
    (hapart : tokens.Pairwise fun first second => first.span.stop ≤ second.span.start)
    (hwithin : ∀ token ∈ tokens, token.span.stop ≤ limit) :
    (tokens.flatMap fun token => List.range' token.span.start token.span.length) =
      (List.range limit).filter fun offset => ∃ token ∈ tokens, token.span.Contains offset := by
  -- both sides ascend, so they are equal once they have the same members
  apply List.Pairwise.eq_of_mem_iff (r := (· < ·))
  · rw [List.pairwise_flatMap]
    refine ⟨fun token _ => List.pairwise_lt_range' , hapart.imp fun hle first hfirst second hsecond => ?_⟩
    rw [List.mem_range'_1, Span.length] at hfirst hsecond
    omega
  · exact List.pairwise_lt_range.filter _
  · intro offset
    rw [List.mem_flatMap, List.mem_filter, List.mem_range, decide_eq_true_iff]
    constructor
    · rintro ⟨token, hmem, hoffset⟩
      rw [List.mem_range'_1, Span.length] at hoffset
      have hstop := hwithin token hmem
      exact ⟨by omega, token, hmem, by omega, by omega⟩
    · rintro ⟨-, token, hmem, hle, hlt⟩
      refine ⟨token, hmem, ?_⟩
      rw [List.mem_range'_1, Span.length]
      omega

theorem join_flatMap {α : Type} (pieces : α → List String) (list : List α) :
    String.join (list.flatMap pieces) = String.join (list.map fun a => String.join (pieces a)) := by
  induction list with
  | nil => rfl
  | cons a rest ih => simp [String.join_append, ih]

/-- Tokens that stand one before the other say what they cover. -/
theorem join_slices {source : Source} {tokens : List Token} {limit : Nat}
    (hapart : tokens.Pairwise fun first second => first.span.stop ≤ second.span.start)
    (hwithin : ∀ token ∈ tokens, token.span.stop ≤ limit) :
    String.join (tokens.map fun token => source.slice token.span) =
      String.join (((List.range limit).filter fun offset =>
        ∃ token ∈ tokens, token.span.Contains offset).filterMap source.cluster?) := by
  rw [← flatMap_offsets hapart hwithin, List.filterMap_flatMap, join_flatMap]
  rfl

theorem length_glyphs (source : Source) : source.glyphs.length = source.length := by
  simp [glyphs, length]

theorem getElem?_glyphs (source : Source) (offset : Nat) :
    source.glyphs[offset]? = source.clusters[offset]?.map Glyph.ofCluster := by
  simp [glyphs]

/-- The tokens that are scanned, latest first. -/
theorem tiles_openTokens (source : Source) :
    Token.Tiles source.glyphs source.length source.openTokens.reverse := by
  rw [openTokens, List.reverse_reverse, ← length_glyphs]
  exact Token.tiles_scan source.glyphs

theorem reverse_tokens (source : Source) :
    source.tokens.reverse =
      Token.push .newline ⟨source.length, source.length + 1⟩ source.openTokens.reverse := by
  rw [Token.push_of_ne_text (by decide), tokens_eq, List.reverse_append, List.reverse_singleton,
    List.singleton_append]

/-- The tokens of a source stand one before the other. -/
theorem placed_tokens (source : Source) :
    Token.Placed (source.length + 1) source.tokens.reverse := by
  rw [reverse_tokens]
  exact source.tiles_openTokens.placed.push (Nat.lt_succ_self source.length) .newline

theorem apart_tokens (source : Source) :
    source.tokens.Pairwise fun first second => first.span.stop ≤ second.span.start :=
  List.pairwise_reverse.mp source.placed_tokens.apart

/-- Two tokens of a source that cover the same offset are one. -/
theorem eq_of_contains {source : Source} {first second : Token} (hfirst : first ∈ source.tokens)
    (hsecond : second ∈ source.tokens) {offset : Nat} (hin : first.span.Contains offset)
    (hinto : second.span.Contains offset) : first = second := by
  by_contra hne
  let Apart (first second : Token) : Prop :=
    first.span.stop ≤ second.span.start ∨ second.span.stop ≤ first.span.start
  have hsymm : Std.Symm Apart := ⟨fun _ _ => Or.symm⟩
  have hapart : source.tokens.Pairwise Apart := source.apart_tokens.imp Or.inl
  rcases hapart.forall hfirst hsecond hne with hle | hle
  · exact absurd (hin.2.trans_le hle) hinto.1.not_gt
  · exact absurd (hinto.2.trans_le hle) hin.1.not_gt

theorem covered_reverse {tokens : List Token} {kind : Kind} {offset : Nat} :
    Token.Covered tokens.reverse kind offset ↔ Token.Covered tokens kind offset := by
  simp [Token.Covered]

theorem covered_tokens_iff {source : Source} {kind : Kind} {offset : Nat} :
    Token.Covered source.tokens kind offset ↔
      Token.Covered source.openTokens kind offset ∨ .newline = kind ∧ offset = source.length := by
  rw [← covered_reverse, reverse_tokens, Token.covered_push source.tiles_openTokens.placed.forward
    (Nat.lt_succ_self source.length), covered_reverse]
  have hlast : source.length ≤ offset ∧ offset < source.length + 1 ↔ offset = source.length := by
    omega
  rw [hlast]

/-- What the tokens of a source cover, and what is left out between them. -/
structure Tiled (source : Source) : Prop where
  /-- Every step of the scanner goes on, and none goes past the end. -/
  progress : ∀ done index glyph rest, source.glyphs.drop index = glyph :: rest →
    index < index + (Token.step done index glyph rest).2 ∧
      index + (Token.step done index glyph rest).2 ≤ source.length
  forward : ∀ token ∈ source.tokens, token.span.start < token.span.stop
  apart : source.tokens.Pairwise fun first second => first.span.stop ≤ second.span.start
  last : source.tokens.getLast? = some ⟨.newline, ⟨source.length, source.length + 1⟩⟩
  /-- Newlines are covered by tokens of newlines only, and these cover nothing else. -/
  newlines : ∀ token ∈ source.tokens, ∀ offset, token.span.Contains offset →
    ∀ cluster ∈ source.cluster? offset, isNewline cluster = true ↔ token.kind = .newline
  /-- A cluster that no token covers is a lone carriage return, or a backslash right before a
  marker, which is then text. -/
  silent : ∀ offset, ∀ cluster ∈ source.clusters[offset]?, ¬ source.Covers offset →
    cluster = "\r" ∨ cluster = "\\" ∧ (∃ marker ∈ markers, source.clusters[offset + 1]? = some marker) ∧
      ∃ token ∈ source.tokens, token.kind = .text ∧ token.span.Contains (offset + 1)
  lexemesForward : ∀ lexeme ∈ source.lexemes, lexeme.span.start < lexeme.span.stop
  lexemesApart : source.lexemes.Pairwise fun first second => first.span.stop ≤ second.span.start
  /-- No two texts are neighbours. -/
  lexemesJoined : source.lexemes.IsChain fun first second =>
    ¬ (first.kind = .text ∧ second.kind = .text)
  /-- The lexemes say the text, except for what no token covers, and end with a newline. -/
  texts : String.join (source.lexemes.map Lexeme.text) = String.join source.keptClusters ++ "\n"

theorem ofCluster_eq_newline_iff {cluster : String} :
    Glyph.ofCluster cluster = .newline ↔ isNewline cluster = true := by
  refine ⟨fun hglyph => ?_, ofCluster_newline⟩
  by_contra hline
  exact ofCluster_ne_newline (Bool.eq_false_of_not_eq_true hline) hglyph

theorem eq_of_ofCluster_carriageReturn {cluster : String}
    (hglyph : Glyph.ofCluster cluster = .carriageReturn) : cluster = "\r" := by
  have hsees := Glyph.sees_ofCluster cluster
  rw [hglyph] at hsees
  cases hsees with
  | carriageReturn hreturn => exact hreturn
  | marker _ hescapable => cases hescapable

/-- Tokens of newlines cover newlines, and no other token does. -/
theorem isNewline_iff_of_contains {source : Source} {token : Token} (hmem : token ∈ source.tokens)
    {offset : Nat} (hcontains : token.span.Contains offset) {cluster : String}
    (hcluster : source.cluster? offset = some cluster) :
    isNewline cluster = true ↔ token.kind = .newline := by
  rcases covered_tokens_iff.mp ⟨token, hmem, rfl, hcontains⟩ with ⟨other, hopen, hkind, hcovers⟩ | ⟨hkind, rfl⟩
  · have hlt : offset < source.length := by
      exact Nat.lt_of_lt_of_le hcovers.2 (stop_openTokens other hopen)
    rw [cluster?, if_neg hlt.ne] at hcluster
    have hiff := source.tiles_openTokens.faithful.newlines
      ⟨other, List.mem_reverse.mpr hopen, hkind, hcovers⟩
    rw [← hiff, getElem?_glyphs, hcluster, Option.map_some, Option.some.injEq,
      ofCluster_eq_newline_iff]
  · rw [cluster?_length] at hcluster
    obtain rfl := Option.some.inj hcluster
    exact iff_of_true (by decide) hkind.symm

theorem silent_of_not_covers {source : Source} {offset : Nat} {cluster : String}
    (hcluster : source.clusters[offset]? = some cluster) (huncovered : ¬ source.Covers offset) :
    cluster = "\r" ∨ cluster = "\\" ∧ (∃ marker ∈ markers, source.clusters[offset + 1]? = some marker) ∧
      ∃ token ∈ source.tokens, token.kind = .text ∧ token.span.Contains (offset + 1) := by
  have hlt : offset < source.length := (Array.getElem?_eq_some_iff.mp hcluster).1
  have hopen : ∀ kind, ¬ Token.Covered source.openTokens.reverse kind offset := by
    rintro kind ⟨token, hmem, -, hcontains⟩
    refine huncovered ⟨token, ?_, hcontains⟩
    rw [tokens_eq]
    exact List.mem_append_left _ (List.mem_reverse.mp hmem)
  rcases source.tiles_openTokens.silent offset hlt hopen with hreturn | ⟨hbackslash, hnext, htext⟩
  · left
    rw [getElem?_glyphs, hcluster, Option.map_some, Option.some.injEq] at hreturn
    exact eq_of_ofCluster_carriageReturn hreturn
  · right
    obtain ⟨next, hnext, hescapable⟩ := hnext
    obtain ⟨token, hmem, hkind, hcontains⟩ := htext
    rw [getElem?_glyphs, hcluster, Option.map_some, Option.some.injEq] at hbackslash
    rw [getElem?_glyphs] at hnext
    obtain ⟨marker, hmarker, rfl⟩ := Option.map_eq_some_iff.mp hnext
    refine ⟨Glyph.ofCluster_inj (by decide) hbackslash, ?_, token, ?_, hkind, hcontains⟩
    · exact ⟨marker, Glyph.mem_markers_of_isEscapable hescapable, hmarker⟩
    · rw [tokens_eq]
      exact List.mem_append_left _ (List.mem_reverse.mp hmem)

theorem placed_lexemes (source : Source) : Lexeme.Placed source.lexemes := by
  apply Lexeme.Placed.coalesce
  constructor
  · intro lexeme hmem
    obtain ⟨token, htoken, rfl⟩ := List.mem_map.mp hmem
    exact source.placed_tokens.forward token (List.mem_reverse.mpr htoken)
  · rw [List.pairwise_map]
    exact source.apart_tokens

theorem ascending_lexemes (source : Source) :
    (source.lexemes.map (·.span.start)).Pairwise (· < ·) := by
  rw [List.pairwise_map]
  refine source.placed_lexemes.apart.imp_of_mem fun hfirst _ hle => ?_
  exact (source.placed_lexemes.forward _ hfirst).trans_le hle

/-- The lexemes say what tokens cover, and then the newline that ends the last line. -/
theorem join_lexemes (source : Source) :
    String.join (source.lexemes.map Lexeme.text) = String.join source.keptClusters ++ "\n" := by
  have hwithin : ∀ token ∈ source.tokens, token.span.stop ≤ source.length + 1 := fun token hmem =>
    source.placed_tokens.within token (List.mem_reverse.mpr hmem)
  have hlast : source.Covers source.length := by
    refine ⟨⟨.newline, ⟨source.length, source.length + 1⟩⟩, ?_, Nat.le_refl _, Nat.lt_succ_self _⟩
    simp [tokens_eq]
  have hclusters : ((List.range source.length).filter fun offset => source.Covers offset).filterMap
      source.cluster? = source.keptClusters := by
    refine List.filterMap_congr fun offset hmem => ?_
    have hlt := List.mem_range.mp (List.mem_of_mem_filter hmem)
    exact if_neg hlt.ne
  calc String.join (source.lexemes.map Lexeme.text)
      = String.join ((source.tokens.map (Lexeme.ofToken source)).map Lexeme.text) :=
        Lexeme.join_coalesce _
    _ = String.join (source.tokens.map fun token => source.slice token.span) := by
        rw [List.map_map]
        rfl
    _ = String.join (((List.range (source.length + 1)).filter fun offset =>
          source.Covers offset).filterMap source.cluster?) :=
        join_slices source.apart_tokens hwithin
    _ = String.join source.keptClusters ++ "\n" := by
        rw [List.range_succ, List.filter_append, List.filterMap_append, hclusters,
          List.filter_singleton, decide_eq_true hlast]
        simp [String.join_append, cluster?_length]

/-- The scanner tiles every source. -/
theorem tokens_tile (source : Source) : source.Tiled where
  progress := by
    intro done index glyph rest hdrop
    have hlength := congrArg List.length hdrop
    rw [List.length_drop, length_glyphs, List.length_cons] at hlength
    have hpos := Token.width_step_pos done index glyph rest
    have hwidth := Token.width_step done index glyph rest
    omega
  forward := fun token hmem => source.placed_tokens.forward token (List.mem_reverse.mpr hmem)
  apart := source.apart_tokens
  last := by rw [tokens_eq, List.getLast?_concat]
  newlines := fun _ hmem _ hcontains _ hcluster => isNewline_iff_of_contains hmem hcontains hcluster
  silent := fun _ _ hcluster huncovered => silent_of_not_covers hcluster huncovered
  lexemesForward := source.placed_lexemes.forward
  lexemesApart := source.placed_lexemes.apart
  lexemesJoined := Lexeme.isChain_coalesce _
  texts := source.join_lexemes

/-! ## Lines -/

/-- What is scanned before a newline and after it does not depend on the other side. The newline
takes the place of the one that ends the last line of what stands before it, and the tokens say
what they say on their own side alone. -/
theorem tokens_around_newline (first second : List String) {ending : String}
    (hending : isNewline ending = true) :
    (ofClusters (first ++ ending :: second)).tokens =
        (ofClusters first).tokens ++
          (ofClusters second).tokens.map (Token.shift (first.length + 1)) ∧
      (ofClusters first).tokens.getLast? =
        some ⟨.newline, ⟨first.length, first.length + 1⟩⟩ ∧
      (ofClusters (first ++ ending :: second)).slice ⟨first.length, first.length + 1⟩ = ending ∧
      (∀ token ∈ (ofClusters first).tokens.dropLast,
        (ofClusters (first ++ ending :: second)).slice token.span =
          (ofClusters first).slice token.span) ∧
      ∀ token ∈ (ofClusters second).tokens,
        (ofClusters (first ++ ending :: second)).slice (token.shift (first.length + 1)).span =
          (ofClusters second).slice token.span := by
  refine ⟨tokens_line first second hending, ?_, slice_ending .., fun token hmem => ?_, fun token _ => ?_⟩
  · rw [tokens_eq, List.getLast?_concat, length_ofClusters]
  · rw [tokens_eq, List.dropLast_concat] at hmem
    have hstop := stop_openTokens token hmem
    rw [length_ofClusters] at hstop
    exact slice_line _ _ _ hstop
  · exact slice_shift _ _ _ token.span

/-- A star left open and a backslash at the end of a line do nothing to the quote mark after it. -/
theorem tokens_around_crlf : isNewline "\r\n" = true ∧
    (ofClusters ["*", "a", "\\", "\r\n", ">", "\\", "*"]).tokens =
      (ofClusters ["*", "a", "\\"]).tokens ++
        (ofClusters [">", "\\", "*"]).tokens.map (Token.shift 4) :=
  ⟨by decide, (tokens_around_newline ["*", "a", "\\"] [">", "\\", "*"] (by decide)).1⟩

end Source
end PageMarkup
