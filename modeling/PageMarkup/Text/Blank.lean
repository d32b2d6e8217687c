import PageMarkup.Text.CodePoints

/-!
# White space

Trimming and splitting go by the `White_Space` property. The zero width space, the byte order mark
and the four information separators are not white space.
-/

namespace PageMarkup.Text

/-- Code points with the `White_Space` property. -/
def blankCodePoints : CodePoints :=
  [(0x9, 0xD), (0x20, 0x20), (0x85, 0x85), (0xA0, 0xA0), (0x1680, 0x1680), (0x2000, 0x200A),
   (0x2028, 0x2029), (0x202F, 0x202F), (0x205F, 0x205F), (0x3000, 0x3000)]

/-- Whether the character is white space. -/
def isBlank (c : Char) : Bool := blankCodePoints.contains c.toNat

/-- A list without the longest tail whose members all satisfy `p`. -/
def dropTailWhile {α : Type} (p : α → Bool) (xs : List α) : List α :=
  (xs.reverse.dropWhile p).reverse

/-- A text without the white space at its start. -/
def trimStart (s : String) : String := String.ofList (s.toList.dropWhile isBlank)

/-- A text without the white space at its end. -/
def trimEnd (s : String) : String := String.ofList (dropTailWhile isBlank s.toList)

/-- A text without the white space at either end. -/
def trim (s : String) : String := trimEnd (trimStart s)

/-- Whether the text is empty or white space throughout. -/
def isBlankText (s : String) : Bool := s.toList.all isBlank

/-- A text cut before the first character that satisfies `p`. -/
def splitBefore (p : Char → Bool) (s : String) : String × String :=
  (String.ofList (s.toList.takeWhile (!p ·)), String.ofList (s.toList.dropWhile (!p ·)))

/-- A text without one leading character `c`, or the text itself if it starts otherwise. -/
def dropLeading (c : Char) (s : String) : String :=
  match s.toList with
  | [] => s
  | d :: rest => if d = c then String.ofList rest else s

/-- The pieces of a list between the members that satisfy `p`; always at least one piece. -/
def splitAtEach {α : Type} (p : α → Bool) : List α → List (List α)
  | [] => [[]]
  | x :: rest =>
    if p x then [] :: splitAtEach p rest
    else
      match splitAtEach p rest with
      | [] => [[x]]
      | piece :: pieces => (x :: piece) :: pieces

/-- The pieces of a text between the separators `c`. -/
def splitOnChar (c : Char) (s : String) : List String :=
  (splitAtEach (· == c) s.toList).map String.ofList

end PageMarkup.Text
