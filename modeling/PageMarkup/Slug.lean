import PageMarkup.Text.Alphanumeric
import PageMarkup.Text.Cluster
import PageMarkup.Text.Letter.Lower

/-!
# Slugs

A slug is the form of a heading that serves as its id. It keeps letters, digits, hyphens and
underscores with their marks, in lower case, and writes spaces as hyphens; hyphens are neither
collapsed nor trimmed.

A `Slugger` draws slugs one after the other. A slug drawn for the second time gets the suffix `-1`,
for the third time `-2`, and so on; a reserved slug counts as drawn. Only plain slugs are counted:
a text whose own slug ends in a number can meet a suffix.
-/

namespace PageMarkup

/-- What a cluster contributes to a slug. Its first character decides whether it is kept. -/
def slugCluster (cluster : List Char) : List Char :=
  match cluster with
  | [] => []
  | base :: _ =>
    if base = ' ' then ['-']
    else if base = '-' ∨ base = '_' ∨ Text.isAlphanumeric base then
      cluster.flatMap Text.lowerChar
    else []

/-- The slug of a text. -/
def slugify (text : String) : String :=
  String.ofList ((Text.clusterLists text.toList).flatMap slugCluster)

/-- The slug of a text that leaves nothing to keep. -/
def fallbackSlug : String := "section"

/-- The slug of a text before any suffix, never empty. -/
def baseSlug (text : String) : String :=
  let slug := slugify text
  if slug.isEmpty then fallbackSlug else slug

/-- The plain slugs drawn or reserved so far, latest first. -/
structure Slugger where
  taken : List String := []
  deriving DecidableEq, Repr, Inhabited

namespace Slugger

/-- A slug drawn or reserved `seen` times before. -/
def suffixed (base : String) (seen : Nat) : String :=
  if seen = 0 then base else base ++ "-" ++ toString seen

/-- Draws the slug of a text. -/
def next (slugger : Slugger) (text : String) : String × Slugger :=
  let base := baseSlug text
  (suffixed base (slugger.taken.count base), ⟨base :: slugger.taken⟩)

/-- Counts a slug as drawn. -/
def reserve (slugger : Slugger) (slug : String) : Slugger := ⟨slug :: slugger.taken⟩

end Slugger

end PageMarkup
