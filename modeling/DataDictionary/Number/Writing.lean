import DataDictionary.Number.Shortest
import DataDictionary.Number.Numeral

/-!
# Writing numbers

A finite number is written by its shortest decimal, either in **plain** notation, with a point
where it belongs and as many zeros as that takes, or in **scientific** notation, with one digit in
front of the point and an exponent. A `NumberFormat` says which numbers are written in which, and
fixes the few spellings that the two kinds of output disagree about.
-/

namespace DataDictionary

namespace Number

open Text

/-- How finite numbers are written. -/
structure NumberFormat where
  /-- Which of two equally near decimals is taken. -/
  tie : Tie
  /-- Whether a number whose first digit stands at this power of ten is in plain notation. -/
  plain : Int → Bool
  /-- What stands behind the point of a plain number that has no fraction. -/
  emptyFraction : List Char

/-- A decimal in plain notation. -/
def plainNumeral (emptyFraction : List Char) (d : Decimal) : Numeral :=
  if 0 ≤ d.exponent then
    { whole := d.digits ++ List.replicate d.exponent.toNat '0', fraction := emptyFraction }
  else
    let point := d.digits.length + d.exponent
    if 0 < point then
      { whole := d.digits.take point.toNat, fraction := d.digits.drop point.toNat }
    else { whole := ['0'], fraction := List.replicate (-point).toNat '0' ++ d.digits }

/-- A decimal in scientific notation; `e` is the power of ten at which its first digit stands. -/
def scientificNumeral (e : Int) (d : Decimal) : Numeral :=
  { whole := d.digits.take 1, fraction := d.digits.drop 1, exponent := some e }

/-- The power of ten at which the first digit of a decimal stands. -/
def Decimal.leadingPower (d : Decimal) : Int := d.digits.length + d.exponent - 1

/-- The size of a finite number in the given format. -/
def sizeNumeral (format : NumberFormat) (x : Binary64) : Numeral :=
  if x.magnitude = 0 then { whole := ['0'], fraction := format.emptyFraction }
  else
    let d := shortest format.tie x
    if format.plain d.leadingPower then plainNumeral format.emptyFraction d
    else scientificNumeral d.leadingPower d

/-- A finite number in the given format. -/
def numeral (format : NumberFormat) (x : Binary64) : Numeral :=
  { sizeNumeral format x with negative := x.isNegative }

/-- In messages every number is in plain notation, whole ones without a point, and of two equally
near decimals the larger is taken. -/
def messageFormat : NumberFormat := ⟨.up, fun _ => true, []⟩

/-- A number as it stands in a message. -/
def toText (x : Binary64) : String :=
  if x.isNaN then "NaN"
  else if x.isFinite then String.ofList (numeral messageFormat x).render
  else if x.isNegative then "-inf" else "inf"

example : (ofText? "1e21").map toText = some "1000000000000000000000" ∧
    (ofText? "-0").map toText = some "-0" ∧ (ofText? "0.1").map toText = some "0.1" ∧
    (ofText? "123.456e-5").map toText = some "0.00123456" := by decide +kernel

end Number

end DataDictionary
