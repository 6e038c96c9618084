/-!
# Decimal digits

The decimal numerals made of the ten digits `0` to `9`: reading them gives the number they stand
for, leading zeros included, and writing a number gives its one numeral without leading zeros.
-/

namespace DataDictionary.Text

/-- The number that a digit stands for. -/
def digitValue (c : Char) : Nat := c.toNat - '0'.toNat

/-- The digit that stands for a number below ten. -/
def digitOf (n : Nat) : Char := Char.ofNat ('0'.toNat + n)

/-- The number that digits stand for, read on from `start`. -/
def numeralFrom (start : Nat) (ds : List Char) : Nat :=
  ds.foldl (fun n d => 10 * n + digitValue d) start

/-- The number that digits stand for. -/
def numeral (ds : List Char) : Nat := numeralFrom 0 ds

/-- Reads a text of one or more digits and nothing else. -/
def readNat? (cs : List Char) : Option Nat :=
  if cs ≠ [] ∧ cs.all Char.isDigit then some (numeral cs) else none

/-- Reads an optional sign and one or more digits, and nothing else. -/
def readInt? : List Char → Option Int
  | '-' :: cs => (readNat? cs).map fun n => -(n : Int)
  | '+' :: cs => (readNat? cs).map Int.ofNat
  | cs => (readNat? cs).map Int.ofNat

/-- The digits of a number, the last one first; `fuel` bounds their count. -/
def digitsBackward : (fuel : Nat) → Nat → List Char
  | 0, _ => []
  | fuel + 1, n => digitOf (n % 10) :: (if n < 10 then [] else digitsBackward fuel (n / 10))

/-- The numeral of a number, without leading zeros. A number has fewer digits than its own
double, so the bound is never felt. -/
def digits (n : Nat) : List Char := (digitsBackward (n.log2 + 1) n).reverse

/-- The numeral of a number as a text. -/
def decimal (n : Nat) : String := String.ofList (digits n)

example : decimal 0 = "0" ∧ decimal 18446744073709551615 = "18446744073709551615" := by
  decide +kernel

example : readNat? "007".toList = some 7 ∧ readNat? [] = none ∧ readNat? "1_0".toList = none := by
  decide +kernel

end DataDictionary.Text
