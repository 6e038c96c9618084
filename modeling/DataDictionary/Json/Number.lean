import DataDictionary.Json.Value
import DataDictionary.Number.Writing

/-!
# Numbers in JSON

Whole numbers are exact and bounded. A floating-point number is written with a point or an
exponent, the latter for very large and very small ones. It is read quickly rather than exactly:
of its digits only those that fit into 64 bits are used, and the number they make up and the power
of ten it is scaled by are each rounded before they are combined. Numbers with up to fifteen digits
and a small exponent are still read exactly; others may come out next to the nearest one.
-/

namespace DataDictionary

namespace Json

/-- Numbers from `0.00001` to below `10 ^ 16` are in plain notation, with a zero behind the point
if there is nothing else, and of two equally near decimals the one with the even last digit is
taken. -/
def numberFormat : Number.NumberFormat := ⟨.toEven, fun e => -5 ≤ e && e ≤ 15, ['0']⟩

/-- A floating-point number. One that is not finite has no JSON form and is written as null. -/
def ofBinary64 (x : Binary64) : Json :=
  if x.isFinite then number (Number.numeral numberFormat x) else null

/-- Reads a whole number below a limit. -/
def readNatBelow? (limit : Nat) : Json → Option Nat
  | number ⟨false, whole, [], none⟩ => some (Text.numeral whole) |>.filter (· < limit)
  | _ => none

/-- The number that digits stand for, read on from `start` for as long as it fits into 64 bits,
and the digits that are left. -/
def fittingNumeral : (start : Nat) → List Char → Nat × List Char
  | start, [] => (start, [])
  | start, d :: ds =>
    let next := 10 * start + Text.digitValue d
    if next < UInt64.size then fittingNumeral next ds else (start, d :: ds)

/-- The digits of a numeral that fit into 64 bits, and the power of ten they have to be scaled by.
Digits that do not fit count in front of the point and are ignored behind it. -/
def significand (n : Numeral) : Nat × Int :=
  let (upToPoint, skipped) := fittingNumeral 0 n.whole
  let (all, ignored) := fittingNumeral upToPoint n.fraction
  (all, (skipped.length : Int) - (n.fraction.length - ignored.length : Nat) + n.exponent.getD 0)

/-- The magnitude of the number nearest to a product. -/
def timesMagnitude (x y : Binary64) : Nat :=
  Binary64.magnitudeOfRatio (x.ratio.1 * y.ratio.1) (x.ratio.2 * y.ratio.2)

/-- The magnitude of the number nearest to a quotient. -/
def overMagnitude (x y : Binary64) : Nat :=
  Binary64.magnitudeOfRatio (x.ratio.1 * y.ratio.2) (x.ratio.2 * y.ratio.1)

/-- The largest power of ten that is a finite number. -/
def topPower : Nat := 308

/-- The number nearest to a power of ten. -/
def powerOfTen (e : Nat) : Binary64 := .ofMagnitude false (Binary64.magnitudeOfScaled 1 e)

/-- The magnitude of a number divided by a power of ten, in steps of the largest power. Two such
steps leave nothing of a number below `2 ^ 64`. -/
def scaleDown (x : Binary64) (e : Nat) : Nat :=
  if e ≤ topPower then overMagnitude x (powerOfTen e)
  else
    let y := Binary64.ofMagnitude false (overMagnitude x (powerOfTen topPower))
    if e ≤ 2 * topPower then overMagnitude y (powerOfTen (e - topPower)) else 0

/-- The magnitude of a number multiplied by a power of ten, unless it gets too large. -/
def scaleUp? (x : Binary64) (e : Nat) : Option Nat :=
  if e ≤ topPower then some (timesMagnitude x (powerOfTen e)) |>.filter (· < Binary64.infinite)
  else none

/-- The magnitude of `c · 10 ^ e`, unless it is too large. -/
def scaledMagnitude? (c : Nat) (e : Int) : Option Nat :=
  let x := Binary64.ofInt c
  if c = 0 then some 0 else if 0 ≤ e then scaleUp? x e.toNat else some (scaleDown x (-e).toNat)

/-- Reads a floating-point number. -/
def readBinary64? : Json → Option Binary64
  | number n =>
    let (c, e) := significand n
    (scaledMagnitude? c e).map (Binary64.ofMagnitude n.negative)
  | _ => none

end Json

end DataDictionary
