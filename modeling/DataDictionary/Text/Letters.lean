/-!
# The letters of the Latin alphabet

Most comparisons of words in a dictionary ignore case, but only that of the letters `A` to `Z`:
`É` and `é` stay different. That is exactly what core's `Char.toLower` and `Char.toUpper` do.
Patterns that ignore case altogether are a little more generous: they take a letter for another
when the two have the same simple case folding, which lets the long s (`ſ`) stand for `s` and the
Kelvin sign for `k`.
-/

namespace DataDictionary.Text

/-- The text with the letters `A` to `Z` made small. -/
def lowerLatin (s : String) : String := String.ofList (s.toList.map Char.toLower)

/-- Whether two texts are equal once the letters `A` to `Z` are made small. -/
def sameWord (a b : String) : Bool := a.toList.map Char.toLower == b.toList.map Char.toLower

/-- The simple case folding of a character, as far as it lands on a letter from `a` to `z`. -/
def foldLatin (c : Char) : Char :=
  if c = 'ſ' then 's' else if c = '\u212A' then 'k' else c.toLower

/-- What follows `word` at the front of a text, where each letter of it may stand in any case;
`word` itself is written in small letters. -/
def afterWord? : (word : List Char) → List Char → Option (List Char)
  | [], cs => some cs
  | _ :: _, [] => none
  | w :: ws, c :: cs => if foldLatin c = w then afterWord? ws cs else none

theorem sameWord_iff {a b : String} :
    sameWord a b = true ↔ a.toList.map Char.toLower = b.toList.map Char.toLower := by
  simp [sameWord]

theorem sameWord_refl (a : String) : sameWord a a = true := sameWord_iff.mpr rfl

theorem sameWord_comm (a b : String) : sameWord a b = sameWord b a := by
  rw [Bool.eq_iff_iff, sameWord_iff, sameWord_iff]
  exact eq_comm

theorem sameWord_trans {a b c : String} (hab : sameWord a b = true) (hbc : sameWord b c = true) :
    sameWord a c = true :=
  sameWord_iff.mpr ((sameWord_iff.mp hab).trans (sameWord_iff.mp hbc))

end DataDictionary.Text
