import PageMarkup.Source
import PageMarkup.Text.Blank

/-!
# Glyphs

The scanner looks at a cluster only through its glyph: which marker character it is, whether it
ends a line, whether it is blank. A marker character with a combining mark is a cluster of its own
and no marker.
-/

namespace PageMarkup

/-- What the scanner sees of a cluster. -/
inductive Glyph where
  /-- A cluster that contains a line feed. -/
  | newline
  /-- A carriage return that stands alone. -/
  | carriageReturn
  /-- A cluster that starts with other white space. -/
  | blank
  | backslash
  | bang
  | hash
  | star
  | equals
  | greater
  | openBracket
  | closeBracket
  | openBrace
  | closeBrace
  | other
  deriving DecidableEq, Repr

namespace Glyph

/-- The marker character of a cluster that consists of one. -/
def ofMarker? : List Char → Option Glyph
  | ['\\'] => some .backslash
  | ['!'] => some .bang
  | ['#'] => some .hash
  | ['*'] => some .star
  | ['='] => some .equals
  | ['>'] => some .greater
  | ['['] => some .openBracket
  | [']'] => some .closeBracket
  | ['\x7b'] => some .openBrace
  | ['\x7d'] => some .closeBrace
  | _ => none

/-- The glyph of a cluster. -/
def ofCluster (cluster : String) : Glyph :=
  if Source.isNewline cluster then .newline
  else if cluster.toList = ['\r'] then .carriageReturn
  else
    match ofMarker? cluster.toList with
    | some glyph => glyph
    | none => if cluster.toList.head?.any Text.isBlank then .blank else .other

/-- Whether a directive marker ends before the glyph. -/
def isBlank : Glyph → Bool
  | .newline | .carriageReturn | .blank => true
  | _ => false

/-- Whether a backslash takes the glyph's meaning away. -/
def isEscapable : Glyph → Bool
  | .newline | .carriageReturn | .blank | .other => false
  | _ => true

end Glyph

/-- The glyphs of a source, without the added newline. -/
def Source.glyphs (source : Source) : List Glyph := source.clusters.toList.map Glyph.ofCluster

end PageMarkup
