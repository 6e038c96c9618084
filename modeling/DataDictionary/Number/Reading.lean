import DataDictionary.Number.Binary64
import DataDictionary.Text.Digits
import DataDictionary.Text.Letters

/-!
# Reading numbers

A written number is an optional sign and either one of the words `inf`, `infinity` and `nan`, in
any case, or digits with an optional point and an optional exponent. At least one digit must stand
before or after the point, and at least one in an exponent; blanks, digit separators and other
bases are not part of the notation. A written number denotes the nearest binary64 number.
-/

namespace DataDictionary

namespace Number

open Text

/-- Nothing from `10 ^ hugeFrom` on is finite in the format. -/
def hugeFrom : Int := 309

/-- Everything below `10 ^ tinyBelow` is nearest to zero. -/
def tinyBelow : Int := -330

/-- The magnitude of the number nearest to `c · 10 ^ e`. Numbers that are certain to be infinite or
zero are answered at once, so that a far-off exponent costs nothing. -/
def magnitudeOfDecimal (c : Nat) (e : Int) : Nat :=
  if c = 0 then 0
  else
    let length : Int := (digits c).length
    if hugeFrom < length + e then Binary64.infinite
    else if length + e < tinyBelow then 0
    else Binary64.magnitudeOfScaled c e

/-- Reads digits with an optional point and an optional exponent as a pair `(c, e)` that stands for
`c · 10 ^ e`. -/
def readDecimal? (cs : List Char) : Option (Nat × Int) :=
  let whole := cs.takeWhile Char.isDigit
  let rest := cs.dropWhile Char.isDigit
  let fraction := match rest with
    | '.' :: r => r.takeWhile Char.isDigit
    | _ => []
  let rest := match rest with
    | '.' :: r => r.dropWhile Char.isDigit
    | _ => rest
  if whole = [] ∧ fraction = [] then none
  else
    let exponent? := match rest with
      | [] => some 0
      | c :: r => if c = 'e' ∨ c = 'E' then readInt? r else none
    exponent?.map fun e => (numeral (whole ++ fraction), e - fraction.length)

/-- Reads a number without its sign as a magnitude; only the word `nan` has none. -/
def readMagnitude? (cs : List Char) : Option (Option Nat) :=
  let word := String.ofList cs
  if sameWord word "inf" || sameWord word "infinity" then some (some Binary64.infinite)
  else if sameWord word "nan" then some none
  else (readDecimal? cs).map fun (c, e) => some (magnitudeOfDecimal c e)

/-- The number with the sign and magnitude read. -/
def signed (negative : Bool) : Option Nat → Binary64
  | none => Binary64.nan
  | some m => Binary64.ofMagnitude negative m

/-- Reads a number, sign included. -/
def read? : List Char → Option Binary64
  | '-' :: cs => (readMagnitude? cs).map (signed true)
  | '+' :: cs => (readMagnitude? cs).map (signed false)
  | cs => (readMagnitude? cs).map (signed false)

/-- The number that a text denotes. -/
def ofText? (s : String) : Option Binary64 := read? s.toList

/-- The 64-bit signed integers. -/
def integerRange (n : Int) : Bool := Int64.minValue.toInt ≤ n && n ≤ Int64.maxValue.toInt

/-- Reads a 64-bit signed integer: an optional sign and digits. -/
def readInteger? (s : String) : Option Int := (readInt? s.toList).filter integerRange

/-- What a count in a dictionary must stay below. -/
def countLimit : Nat := UInt64.size

/-- Reads a count. -/
def readCount? (s : String) : Option Nat := (readNat? s.toList).filter (· < countLimit)

example : (ofText? "-.5e1").map (·.bits) = some 0xC014000000000000 ∧
    (ofText? "1e999999999999").map (·.magnitude) = some Binary64.infinite ∧
    ofText? "1e" = none ∧ ofText? "." = none ∧ ofText? "" = none := by decide +kernel

end Number

end DataDictionary
