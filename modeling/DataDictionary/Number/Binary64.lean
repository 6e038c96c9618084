/-!
# Binary floating-point numbers

The bounds of a field, and the values checked against them, are numbers in the IEEE 754 binary64
format. A number is held as its 64 bits: the sign on top, then eleven bits of exponent, then
fifty-two of fraction. Below the sign the bits make up the **magnitude**, and numbers of one sign
are ordered as their magnitudes are, which is all that comparing them takes.
-/

namespace DataDictionary

/-- A number in the binary64 format. Equality is that of the bits; the order of the numbers
themselves is given by `Binary64.le` and `Binary64.lt`. -/
structure Binary64 where
  bits : UInt64
  deriving DecidableEq

namespace Binary64

/-- The sign bit, `2 ^ 63`. -/
abbrev signBit : Nat := 0x8000000000000000

/-- The lowest bit of the exponent, `2 ^ 52`. Everything below it is fraction. -/
abbrev exponentBit : Nat := 0x10000000000000

/-- Everything below the sign bit. -/
def magnitude (x : Binary64) : Nat := x.bits.toNat % signBit

def isNegative (x : Binary64) : Bool := signBit ≤ x.bits.toNat

/-- The magnitude of the infinities. Smaller ones belong to finite numbers, larger ones to what is
not a number. -/
def infinite : Nat := 0x7FF * exponentBit

def isNaN (x : Binary64) : Bool := infinite < x.magnitude

def isFinite (x : Binary64) : Bool := x.magnitude < infinite

/-- The number with the given sign and magnitude. -/
def ofMagnitude (negative : Bool) (magnitude : Nat) : Binary64 :=
  ⟨UInt64.ofNat (if negative then signBit + magnitude else magnitude)⟩

/-- The quiet pattern with no sign and no payload. -/
def nan : Binary64 := ⟨0x7FF8000000000000⟩

/-- The place of a number in the order: the two zeros share one. -/
def rank (x : Binary64) : Int := if x.isNegative then -(x.magnitude : Int) else x.magnitude

/-- The order of the numbers; nothing is comparable to what is not a number. -/
def le (x y : Binary64) : Bool := !x.isNaN && !y.isNaN && x.rank ≤ y.rank

/-- The strict order of the numbers. -/
def lt (x y : Binary64) : Bool := !x.isNaN && !y.isNaN && x.rank < y.rank

/-- The whole number `m` in the value `m · 2 ^ q` of a finite number. -/
def significand (x : Binary64) : Nat :=
  if x.magnitude < exponentBit then x.magnitude else x.magnitude % exponentBit + exponentBit

/-- The exponent `q` in the value `m · 2 ^ q` of a finite number. -/
def scale (x : Binary64) : Int :=
  if x.magnitude < exponentBit then -1074 else (x.magnitude / exponentBit : Nat) - 1075

/-- The size of a finite number as a quotient of two whole numbers. -/
def ratio (x : Binary64) : Nat × Nat :=
  if 0 ≤ x.scale then (x.significand <<< x.scale.toNat, 1)
  else (x.significand, 1 <<< (-x.scale).toNat)

/-! ## Rounding

A quotient of whole numbers becomes the nearest number of the format. Of two equally near ones
the one with the even last bit is taken, and what is too large to have a near one is infinite.
-/

/-- The whole number nearest to a quotient; of two equally near ones the even one. -/
def nearestEven (num den : Nat) : Nat :=
  let q := num / den
  let r := num % den
  if 2 * r < den then q else if den < 2 * r then q + 1 else q + q % 2

/-- The exponent `e` with `2 ^ e ≤ num / den < 2 ^ (e + 1)`. -/
def binaryExponent (num den : Nat) : Int :=
  let e : Int := (num.log2 : Int) - (den.log2 : Int)
  let reached := if 0 ≤ e then den <<< e.toNat ≤ num else den ≤ num <<< (-e).toNat
  if reached then e else e - 1

/-- The magnitude of the number nearest to `num / den`. The significand gets fifty-three bits, or
as many as lie above the smallest scale; should rounding carry it to one bit more, adding it to
the shifted exponent carries there as well. -/
def magnitudeOfRatio (num den : Nat) : Nat :=
  if num = 0 then 0
  else
    let scale := max (binaryExponent num den - 52) (-1074)
    let m :=
      if 0 ≤ scale then nearestEven num (den <<< scale.toNat)
      else nearestEven (num <<< (-scale).toNat) den
    min infinite ((scale + 1074).toNat * exponentBit + m)

/-- The number nearest to a whole number. -/
def ofInt (n : Int) : Binary64 := ofMagnitude (n < 0) (magnitudeOfRatio n.natAbs 1)

/-- The magnitude of the number nearest to `c · 10 ^ e`. -/
def magnitudeOfScaled (c : Nat) (e : Int) : Nat :=
  if 0 ≤ e then magnitudeOfRatio (c * Nat.pow 10 e.toNat) 1
  else magnitudeOfRatio c (Nat.pow 10 (-e).toNat)

example : (ofInt 1).bits = 0x3FF0000000000000 ∧ (ofInt (-9007199254740993)).rank =
    (ofInt (-9007199254740992)).rank := by decide +kernel

/-! ## The order -/

theorem le_iff {x y : Binary64} :
    x.le y = true ↔ x.isNaN = false ∧ y.isNaN = false ∧ x.rank ≤ y.rank := by
  simp [le, and_assoc]

theorem lt_iff {x y : Binary64} :
    x.lt y = true ↔ x.isNaN = false ∧ y.isNaN = false ∧ x.rank < y.rank := by
  simp [lt, and_assoc]

theorem le_refl {x : Binary64} (h : x.isNaN = false) : x.le x = true :=
  le_iff.mpr ⟨h, h, Int.le_refl _⟩

theorem le_trans {x y z : Binary64} (hxy : x.le y = true) (hyz : y.le z = true) :
    x.le z = true := by
  obtain ⟨hx, _, h1⟩ := le_iff.mp hxy
  obtain ⟨_, hz, h2⟩ := le_iff.mp hyz
  exact le_iff.mpr ⟨hx, hz, Int.le_trans h1 h2⟩

theorem lt_of_lt_of_le {x y z : Binary64} (hxy : x.lt y = true) (hyz : y.le z = true) :
    x.lt z = true := by
  obtain ⟨hx, _, h1⟩ := lt_iff.mp hxy
  obtain ⟨_, hz, h2⟩ := le_iff.mp hyz
  exact lt_iff.mpr ⟨hx, hz, Int.lt_of_lt_of_le h1 h2⟩

theorem lt_of_le_of_lt {x y z : Binary64} (hxy : x.le y = true) (hyz : y.lt z = true) :
    x.lt z = true := by
  obtain ⟨hx, _, h1⟩ := le_iff.mp hxy
  obtain ⟨_, hz, h2⟩ := lt_iff.mp hyz
  exact lt_iff.mpr ⟨hx, hz, Int.lt_of_le_of_lt h1 h2⟩

end Binary64

end DataDictionary
