import DataDictionary.Number.Reading

/-!
# The shortest decimal of a number

A number is written with the fewest digits that still read back as the same number, and among the
decimals of that length it is the nearest one. For a given count of digits only the two decimals
next to the number have to be tried, the last one below and the first one above it: if any
decimal of that length reads back, one of these two does. Should both be equally near, the format
decides.
-/

namespace DataDictionary

namespace Number

open Text

/-- Which of two equally near decimals is written: the larger one, or the one with the even last
digit. -/
inductive Tie where
  | up
  | toEven
  deriving DecidableEq

/-- A decimal numeral: `digits · 10 ^ exponent`, without zeros at the end of the digits. -/
structure Decimal where
  digits : List Char
  exponent : Int
  deriving DecidableEq

/-- The decimal `c · 10 ^ e`. -/
def Decimal.ofScaled (c : Nat) (e : Int) : Decimal :=
  let ds := Text.digits c
  let kept := (ds.reverse.dropWhile (· = '0')).reverse
  ⟨kept, e + (ds.length - kept.length : Nat)⟩

/-- `num / (den · 10 ^ e)` as a quotient of whole numbers. -/
def unscale (num den : Nat) (e : Int) : Nat × Nat :=
  if 0 ≤ e then (num, den * Nat.pow 10 e.toNat) else (num * Nat.pow 10 (-e).toNat, den)

/-- The multiple of `10 ^ e` that is nearest to `num / den`, if it is one of the two next to it and
reads back as `magnitude`. -/
def nearestMultiple? (tie : Tie) (magnitude num den : Nat) (e : Int) : Option Nat :=
  let (n, d) := unscale num den e
  let below := n / d
  let readsBack (c : Nat) : Bool := Binary64.magnitudeOfScaled c e == magnitude
  match readsBack below, readsBack (below + 1) with
  | true, true =>
    let r := 2 * (n % d)
    if r < d then some below
    else if d < r then some (below + 1)
    else match tie with
      | .up => some (below + 1)
      | .toEven => some (below + below % 2)
  | true, false => some below
  | false, true => some (below + 1)
  | false, false => none

/-- The least `k` with `num / den < 10 ^ k`, found near the binary exponent; three decimal
digits make up about ten bits. -/
def decimalExponent (num den : Nat) : Int :=
  let guess := (Binary64.binaryExponent num den - 1) * 30103 / 100000
  let below (k : Int) : Bool := let (n, d) := unscale num den k; n < d
  ([guess, guess + 1, guess + 2, guess + 3].find? below).getD (guess + 4)

/-- The whole expansion of a finite number, which has as many digits as it takes. -/
def exactDecimal (x : Binary64) : Decimal :=
  if 0 ≤ x.scale then .ofScaled (x.significand <<< x.scale.toNat) 0
  else .ofScaled (x.significand * Nat.pow 5 (-x.scale).toNat) x.scale

/-- The shortest decimal that reads back as the size of a finite number other than zero. Seventeen
digits always suffice, and the whole expansion stands behind them. -/
def shortest (tie : Tie) (x : Binary64) : Decimal :=
  let (num, den) := x.ratio
  let k := decimalExponent num den
  let attempt (places : Nat) : Option Decimal :=
    let e := k - (places + 1 : Nat)
    (nearestMultiple? tie x.magnitude num den e).map (Decimal.ofScaled · e)
  ((List.range 17).findSome? attempt).getD (exactDecimal x)

end Number

end DataDictionary
