import DataDictionary.Text.Digits

/-!
# Numerals

A written number taken apart: its sign, the digits in front of the point, those behind it, and its
exponent. A numeral without digits behind the point is written without the point.
-/

namespace DataDictionary

/-- The parts of a written number. -/
structure Numeral where
  negative : Bool := false
  /-- The digits in front of the point. -/
  whole : List Char
  /-- The digits behind the point. -/
  fraction : List Char := []
  exponent : Option Int := none
  deriving DecidableEq

namespace Numeral

/-- An exponent as it is written, with its sign. -/
def renderExponent (e : Int) : List Char :=
  'e' :: (if e < 0 then '-' else '+') :: Text.digits e.natAbs

/-- The number as it is written. -/
def render (n : Numeral) : List Char :=
  (if n.negative then ['-'] else []) ++ n.whole ++
    (if n.fraction = [] then [] else '.' :: n.fraction) ++
    (n.exponent.map renderExponent).getD []

end Numeral

end DataDictionary
