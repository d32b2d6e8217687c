/-!
# YAML values

A document is a tree of scalars, sequences and mappings. A scalar keeps its text and whether it was
written plainly; what the text means is up to whoever reads it. Mappings keep their entries in
order and may repeat a key.

This is the part of YAML that configurations are written in: block and flow collections, plain,
quoted and block scalars, comments, directives and document markers. Anchors and tags are not part
of it.
-/

namespace PageMarkup

/-- A YAML value. -/
inductive Yaml where
  | scalar (text : String) (plain : Bool)
  | sequence (elements : List Yaml)
  | mapping (entries : List (Yaml × Yaml))
  deriving Repr, Inhabited

/-- What stands where nothing is written. -/
def Yaml.empty : Yaml := .scalar "" true

end PageMarkup
