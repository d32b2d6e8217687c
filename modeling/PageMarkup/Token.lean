import PageMarkup.Glyph
import PageMarkup.Kind

/-!
# Tokens

A source is scanned from left to right into tokens, each a kind and the clusters it covers. The
scanner never fails. Three things depend on the token before: whether a line starts, whether a
backslash takes the meaning of a glyph away, and whether a piece of text goes on the text before
it.

The tokens cover the whole source except for lone carriage returns and for backslashes that took a
meaning away. The last token is the newline that ends the last line.
-/

namespace PageMarkup

/-- A kind and the clusters that it covers. -/
structure Token where
  kind : Kind
  span : Span
  deriving DecidableEq, Repr

namespace Token

/-- Number of glyphs equal to `glyph` at the head of a list. -/
def runLength (glyph : Glyph) (glyphs : List Glyph) : Nat :=
  (glyphs.takeWhile (· == glyph)).length

/-- Kind and width of the token at the head of a run of hashes. Only two are a mark. -/
def hashMark (run : Nat) : Kind × Nat :=
  if run = 2 then (.styleMark .strikethrough, 2) else (.text, run)

/-- Kind and width of the token at the head of a run of stars, of which it takes at most three. -/
def starMark : Nat → Kind × Nat
  | 1 => (.styleMark .em, 1)
  | 2 => (.styleMark .bold, 2)
  | _ => (.styleMark .emBold, 3)

/-- Kind and width of the token at the head of a run of equals signs. A run that is too short or too
long for a heading is text. -/
def equalsMark (run : Nat) : Kind × Nat :=
  match Kind.headingMark? run with
  | some mark => (mark, run)
  | none => (.text, run)

/-- Kind and width of the token at the head of a run of brackets, of which it takes at most three.
`mark` says which side the brackets are on. -/
def bracketMark (mark : Bracket → Kind) : Nat → Kind × Nat
  | 1 => (.text, 1)
  | 2 => (mark .externalLink, 2)
  | _ => (mark .embeddedFile, 3)

/-- Kind of the token that a glyph begins and the number of glyphs it takes, given the glyphs after
it. Directives and quotes begin at the start of a line only. -/
def markAt (lineStart : Bool) (glyph : Glyph) (rest : List Glyph) : Kind × Nat :=
  match glyph with
  | .newline => (.newline, 1)
  | .backslash => (.backslash, 1)
  | .bang =>
    if lineStart then (.lineMark .directive, (rest.takeWhile (!·.isBlank)).length + 1)
    else (.text, 1)
  | .greater => if lineStart then (.lineMark .blockquote, 1) else (.text, 1)
  | .hash => hashMark (runLength .hash rest + 1)
  | .star => starMark (runLength .star rest + 1)
  | .equals => equalsMark (runLength .equals rest + 1)
  | .openBracket => bracketMark .bracketStart (runLength .openBracket rest + 1)
  | .closeBracket => bracketMark .bracketEnd (runLength .closeBracket rest + 1)
  | .openBrace => (.bracketStart .noteRef, 1)
  | .closeBrace => (.bracketEnd .noteRef, 1)
  | .carriageReturn | .blank | .other => (.text, 1)

/-- Whether a line starts after the tokens passed, latest first. -/
def atLineStart : List Token → Bool
  | [] => true
  | token :: _ => token.kind == .newline

/-- Whether the latest token is a backslash that ends right before the offset. -/
def escapes : List Token → Nat → Bool
  | [], _ => false
  | token :: _, index => token.kind == .backslash && token.span.stop == index

/-- The tokens passed and one more. A text that starts where the latest text ends goes on it. -/
def push (kind : Kind) (span : Span) : List Token → List Token
  | [] => [⟨kind, span⟩]
  | token :: before =>
    if kind = .text ∧ token.kind = .text ∧ token.span.stop = span.start then
      ⟨.text, ⟨token.span.start, span.stop⟩⟩ :: before
    else ⟨kind, span⟩ :: token :: before

/-- The tokens after the glyph at `index` and the number of glyphs taken. A lone carriage return
leaves no token; a glyph after a backslash is text if it could be a mark, and the backslash goes. -/
def step (done : List Token) (index : Nat) (glyph : Glyph) (rest : List Glyph) :
    List Token × Nat :=
  if glyph = .carriageReturn then (done, 1)
  else if escapes done index ∧ glyph.isEscapable then
    (push .text ⟨index, index + 1⟩ done.tail, 1)
  else
    let (kind, width) := markAt (atLineStart done) glyph rest
    (push kind ⟨index, index + width⟩ done, width)

/-- Scans the glyphs from `index` on, latest token first. The first `skip` glyphs belong to a token
that is already there. -/
def scan (done : List Token) (index skip : Nat) : List Glyph → List Token
  | [] => done
  | glyph :: rest =>
    match skip with
    | skip + 1 => scan done (index + 1) skip rest
    | 0 =>
      let (done, width) := step done index glyph rest
      scan done (index + 1) (width - 1) rest

end Token

/-- The tokens of a source. -/
def Source.tokens (source : Source) : List Token :=
  (⟨.newline, ⟨source.length, source.length + 1⟩⟩ :: Token.scan [] 0 0 source.glyphs).reverse

end PageMarkup
