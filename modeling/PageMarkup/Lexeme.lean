import PageMarkup.Token

/-!
# Lexemes

A lexeme is a token with the text it covers. A backslash that escapes nothing is text, and
neighbouring texts become one, also across a backslash or a carriage return that left no token.
-/

namespace PageMarkup

/-- A token with its text. -/
structure Lexeme where
  kind : Kind
  span : Span
  text : String
  deriving DecidableEq, Repr

namespace Lexeme

/-- The lexeme of a single token. -/
def ofToken (source : Source) (token : Token) : Lexeme :=
  { kind := if token.kind = .backslash then .text else token.kind
    span := token.span
    text := source.slice token.span }

/-- Puts a lexeme in front of others, joining two texts. -/
def prepend (lexeme : Lexeme) : List Lexeme → List Lexeme
  | [] => [lexeme]
  | next :: rest =>
    if lexeme.kind = .text ∧ next.kind = .text then
      ⟨.text, lexeme.span.cover next.span, lexeme.text ++ next.text⟩ :: rest
    else lexeme :: next :: rest

/-- Joins neighbouring texts. -/
def coalesce (lexemes : List Lexeme) : List Lexeme := lexemes.foldr prepend []

end Lexeme

/-- The lexemes of a source. -/
def Source.lexemes (source : Source) : List Lexeme :=
  Lexeme.coalesce (source.tokens.map (Lexeme.ofToken source))

end PageMarkup
