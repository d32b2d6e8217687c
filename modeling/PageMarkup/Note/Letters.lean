/-!
# Letters for back links

The references of one note are told apart by letters: `a` to `z`, then `aa`, `ab` and so on, the
words over the alphabet by length and then alphabetically.
-/

namespace PageMarkup

/-- The letter at a position of the alphabet. -/
def letterAt (position : Nat) : Char := Char.ofNat ('a'.toNat + position % 26)

/-- The word at a position in the order of words, last letter first. A word is its last letter
after the word at the position that remains. -/
def backwardLetters (index : Nat) : List Char :=
  if index < 26 then [letterAt index]
  else letterAt index :: backwardLetters (index / 26 - 1)
termination_by index
decreasing_by omega

/-- The label of the reference at an index counted from zero. -/
def backlinkLetters (index : Nat) : String := String.ofList (backwardLetters index).reverse

end PageMarkup
