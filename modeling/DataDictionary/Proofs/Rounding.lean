import DataDictionary.Number.Binary64
import Mathlib.Algebra.Order.Field.Power
import Mathlib.Tactic.Linarith
import Mathlib.Tactic.Positivity
import Mathlib.Tactic.Ring

/-!
# Rounding keeps the order

A larger quotient never becomes a smaller number (`magnitudeOfRatio_mono`). Among quotients of one
scale that is rounding to whole numbers. Of two quotients of different scales, the one of the
smaller scale has a significand of at most `2 ^ 53`, and the other one of at least `2 ^ 52`: the
step from one scale to the next makes up for the difference.

Conversely a number of larger magnitude is of larger size (`size_lt`), so sizes and magnitudes
can be compared for each other.
-/

namespace DataDictionary

namespace Binary64

/-! ## Whole numbers next to a quotient -/

theorem nearestEven_mul {d : Nat} (k : Nat) (hd : 0 < d) : nearestEven (k * d) d = k := by
  unfold nearestEven
  rw [Nat.mul_div_cancel k hd, Nat.mul_mod_left]
  exact if_pos hd

theorem nearestEven_mono {n d n' d' : Nat} (hd : 0 < d) (hd' : 0 < d') (h : n * d' ≤ n' * d) :
    nearestEven n d ≤ nearestEven n' d' := by
  have hn : d * (n / d) + n % d = n := Nat.div_add_mod n d
  have hn' : d' * (n' / d') + n' % d' = n' := Nat.div_add_mod n' d'
  have hr : n % d < d := Nat.mod_lt n hd
  have hr' : n' % d' < d' := Nat.mod_lt n' hd'
  have hle : n / d ≤ n' / d' := by
    rw [Nat.le_div_iff_mul_le hd']
    refine Nat.le_of_mul_le_mul_right ?_ hd
    calc n / d * d' * d = n / d * d * d' := Nat.mul_right_comm _ _ _
      _ ≤ n * d' := Nat.mul_le_mul_right d' (Nat.div_mul_le_self n d)
      _ ≤ n' * d := h
  unfold nearestEven
  dsimp only
  rcases Nat.lt_or_eq_of_le hle with hlt | heq
  · -- both neighbours of the one are at most the lower neighbour of the other
    split_ifs <;> omega
  · -- the same neighbours, and a larger rest
    have hrest : n % d * d' ≤ n' % d' * d := by
      have hsum : (d * (n / d) + n % d) * d' ≤ (d' * (n / d) + n' % d') * d := by
        rw [hn, heq, hn']
        exact h
      nlinarith
    have hup : d < 2 * (n % d) → d' < 2 * (n' % d') := by
      intro hmore
      by_contra hnot
      nlinarith
    have hhalf : d ≤ 2 * (n % d) → d' ≤ 2 * (n' % d') := by
      intro hmore
      by_contra hnot
      nlinarith
    rw [heq]
    split_ifs <;> omega

theorem le_nearestEven {k n d : Nat} (hd : 0 < d) (h : k * d ≤ n) : k ≤ nearestEven n d := by
  have hmono := nearestEven_mono hd hd (Nat.mul_le_mul_right d h)
  rwa [nearestEven_mul k hd] at hmono

theorem nearestEven_le {k n d : Nat} (hd : 0 < d) (h : n ≤ k * d) : nearestEven n d ≤ k := by
  have hmono := nearestEven_mono hd hd (Nat.mul_le_mul_right d h)
  rwa [nearestEven_mul k hd] at hmono

/-! ## Scales -/

theorem zpow_two_pos (s : Int) : (0 : ℚ) < 2 ^ s := zpow_pos (by norm_num) s

theorem zpow_two_le {s s' : Int} (h : s ≤ s') : (2 : ℚ) ^ s ≤ 2 ^ s' :=
  zpow_le_zpow_right₀ (by norm_num) h

theorem zpow_two_lt_iff {s s' : Int} : (2 : ℚ) ^ s < 2 ^ s' ↔ s < s' :=
  zpow_lt_zpow_iff_right₀ (by norm_num)

/-- A quotient divided by a power of two, as a quotient. -/
def overPower (n d : Nat) (s : Int) : Nat × Nat :=
  if 0 ≤ s then (n, d <<< s.toNat) else (n <<< (-s).toNat, d)

theorem overPower_spec (n : Nat) {d : Nat} (hd : 0 < d) (s : Int) :
    0 < (overPower n d s).2 ∧
      ((overPower n d s).1 : ℚ) / (overPower n d s).2 = n / d / 2 ^ s := by
  unfold overPower
  split
  · next hs =>
    obtain ⟨k, rfl⟩ := Int.eq_ofNat_of_zero_le hs
    refine ⟨by simpa [Nat.shiftLeft_eq] using hd, ?_⟩
    simp [Nat.shiftLeft_eq, div_div]
  · next hs =>
    obtain ⟨k, rfl⟩ := Int.exists_eq_neg_ofNat (not_le.mp hs).le
    refine ⟨hd, ?_⟩
    simp [Nat.shiftLeft_eq]
    ring

/-- **The exponent of a quotient**, by which it lies between two powers of two. -/
theorem binaryExponent_spec {n d : Nat} (hn : 0 < n) (hd : 0 < d) :
    (2 : ℚ) ^ binaryExponent n d ≤ n / d ∧ (n : ℚ) / d < 2 ^ (binaryExponent n d + 1) := by
  have hd0 : (0 : ℚ) < d := by exact_mod_cast hd
  -- the logarithms leave two candidates
  have hlow : (2 : ℚ) ^ ((n.log2 : Int) - d.log2 - 1) ≤ n / d := by
    have h1 : (2 : ℚ) ^ (n.log2 : Int) ≤ n := by exact_mod_cast Nat.log2_self_le hn.ne'
    have h2 : (d : ℚ) ≤ 2 ^ ((d.log2 : Int) + 1) := by
      exact_mod_cast (Nat.lt_log2_self (n := d)).le
    rw [le_div_iff₀ hd0, show (n.log2 : Int) - d.log2 - 1 = n.log2 - (d.log2 + 1) by ring,
      zpow_sub₀ (by norm_num), div_mul_eq_mul_div, div_le_iff₀ (zpow_two_pos _)]
    exact mul_le_mul h1 h2 hd0.le (by positivity)
  have hhigh : (n : ℚ) / d < 2 ^ ((n.log2 : Int) - d.log2 + 1) := by
    have h1 : (n : ℚ) < 2 ^ ((n.log2 : Int) + 1) := by exact_mod_cast Nat.lt_log2_self (n := n)
    have h2 : (2 : ℚ) ^ (d.log2 : Int) ≤ d := by exact_mod_cast Nat.log2_self_le hd.ne'
    rw [div_lt_iff₀ hd0, show (n.log2 : Int) - d.log2 + 1 = n.log2 + 1 - d.log2 by ring,
      zpow_sub₀ (by norm_num), div_mul_eq_mul_div, lt_div_iff₀ (zpow_two_pos _)]
    exact mul_lt_mul h1 h2 (zpow_two_pos _) (zpow_two_pos _).le
  set e : Int := (n.log2 : Int) - d.log2 with he
  have hreached : (if 0 ≤ e then d <<< e.toNat ≤ n else d ≤ n <<< (-e).toNat) ↔
      (2 : ℚ) ^ e ≤ n / d := by
    rw [le_div_iff₀ hd0]
    split
    · next hs =>
      obtain ⟨k, hk⟩ := Int.eq_ofNat_of_zero_le hs
      rw [hk, Nat.shiftLeft_eq]
      simp only [Int.toNat_natCast, zpow_natCast]
      rw [mul_comm]
      exact_mod_cast Iff.rfl
    · next hs =>
      obtain ⟨k, hk⟩ := Int.exists_eq_neg_ofNat (not_le.mp hs).le
      rw [hk, Nat.shiftLeft_eq]
      simp only [neg_neg, Int.toNat_natCast, zpow_neg, zpow_natCast]
      rw [inv_mul_le_iff₀ (by positivity), mul_comm]
      exact_mod_cast Iff.rfl
  unfold binaryExponent
  dsimp only
  rw [← he]
  by_cases h : (if 0 ≤ e then d <<< e.toNat ≤ n else d ≤ n <<< (-e).toNat)
  · rw [if_pos h]
    exact ⟨hreached.mp h, hhigh⟩
  · rw [if_neg h, sub_add_cancel]
    exact ⟨hlow, not_le.mp (mt hreached.mpr h)⟩

theorem binaryExponent_mono {n d n' d' : Nat} (hn : 0 < n) (hd : 0 < d) (hn' : 0 < n')
    (hd' : 0 < d') (h : (n : ℚ) / d ≤ n' / d') : binaryExponent n d ≤ binaryExponent n' d' := by
  have hlow := (binaryExponent_spec hn hd).1
  have hhigh := (binaryExponent_spec hn' hd').2
  have := zpow_two_lt_iff.mp ((hlow.trans h).trans_lt hhigh)
  omega

/-! ## Magnitudes -/

/-- The scale at which a quotient is rounded. -/
def roundingScale (n d : Nat) : Int := max (binaryExponent n d - 52) (-1074)

/-- The significand to which a quotient is rounded. -/
def roundedSignificand (n d : Nat) : Nat :=
  nearestEven (overPower n d (roundingScale n d)).1 (overPower n d (roundingScale n d)).2

theorem magnitudeOfRatio_eq {n : Nat} (hn : 0 < n) (d : Nat) :
    magnitudeOfRatio n d =
      min infinite ((roundingScale n d + 1074).toNat * exponentBit + roundedSignificand n d) := by
  unfold magnitudeOfRatio roundedSignificand overPower
  rw [if_neg hn.ne']
  dsimp only
  rw [← roundingScale]
  split <;> rfl

theorem magnitudeOfRatio_le (n d : Nat) : magnitudeOfRatio n d ≤ infinite := by
  unfold magnitudeOfRatio
  split
  · exact Nat.zero_le _
  · exact Nat.min_le_left _ _

theorem magnitude_ofMagnitude {m : Nat} (h : m < signBit) (negative : Bool) :
    (ofMagnitude negative m).magnitude = m := by
  unfold ofMagnitude magnitude
  unfold signBit at h ⊢
  rw [UInt64.toNat_ofNat']
  split <;> omega

theorem isNegative_ofMagnitude {m : Nat} (h : m < signBit) (negative : Bool) :
    (ofMagnitude negative m).isNegative = negative := by
  unfold ofMagnitude isNegative
  unfold signBit at h ⊢
  rw [UInt64.toNat_ofNat']
  cases negative
  · exact decide_eq_false (by rw [if_neg Bool.false_ne_true]; omega)
  · exact decide_eq_true (by rw [if_pos rfl]; omega)

/-- What a quotient is rounded to leaves room for the sign. -/
theorem magnitudeOfRatio_lt (n d : Nat) : magnitudeOfRatio n d < signBit :=
  Nat.lt_of_le_of_lt (magnitudeOfRatio_le n d) (by decide)

theorem magnitude_ofInt (n : Int) : (ofInt n).magnitude = magnitudeOfRatio n.natAbs 1 :=
  magnitude_ofMagnitude (magnitudeOfRatio_lt _ 1) _

theorem isNegative_ofInt (n : Int) : (ofInt n).isNegative = decide (n < 0) :=
  isNegative_ofMagnitude (magnitudeOfRatio_lt _ 1) _

theorem natCast_div_le_iff {n d n' d' : Nat} (hd : 0 < d) (hd' : 0 < d') :
    (n : ℚ) / d ≤ n' / d' ↔ n * d' ≤ n' * d := by
  rw [div_le_div_iff₀ (by exact_mod_cast hd) (by exact_mod_cast hd')]
  exact_mod_cast Iff.rfl

theorem roundedSignificand_le {n d : Nat} (hn : 0 < n) (hd : 0 < d) :
    roundedSignificand n d ≤ 2 ^ 53 := by
  obtain ⟨hpos, hquotient⟩ := overPower_spec n hd (roundingScale n d)
  refine nearestEven_le hpos ?_
  have hle : ((overPower n d (roundingScale n d)).1 : ℚ) / (overPower n d (roundingScale n d)).2 ≤
      2 ^ 53 := by
    rw [hquotient, div_le_iff₀ (zpow_two_pos _)]
    calc (n : ℚ) / d ≤ 2 ^ (binaryExponent n d + 1) := (binaryExponent_spec hn hd).2.le
      _ ≤ 2 ^ (53 + roundingScale n d) := zpow_two_le (by unfold roundingScale; omega)
      _ = 2 ^ 53 * 2 ^ roundingScale n d := by
        rw [zpow_add₀ (by norm_num)]
        norm_num
  rw [div_le_iff₀ (by exact_mod_cast hpos)] at hle
  exact_mod_cast hle

/-- Above the smallest scale a significand has all its bits. -/
theorem le_roundedSignificand {n d : Nat} (hn : 0 < n) (hd : 0 < d)
    (h : -1074 < roundingScale n d) : 2 ^ 52 ≤ roundedSignificand n d := by
  obtain ⟨hpos, hquotient⟩ := overPower_spec n hd (roundingScale n d)
  refine le_nearestEven hpos ?_
  have hle : (2 : ℚ) ^ 52 ≤
      ((overPower n d (roundingScale n d)).1 : ℚ) / (overPower n d (roundingScale n d)).2 := by
    rw [hquotient, le_div_iff₀ (zpow_two_pos _)]
    calc (2 : ℚ) ^ 52 * 2 ^ roundingScale n d = 2 ^ (52 + roundingScale n d) := by
          rw [zpow_add₀ (by norm_num)]
          norm_num
      _ ≤ 2 ^ binaryExponent n d := zpow_two_le (by unfold roundingScale at h ⊢; omega)
      _ ≤ n / d := (binaryExponent_spec hn hd).1
  rw [le_div_iff₀ (by exact_mod_cast hpos)] at hle
  exact_mod_cast hle

/-- **A larger quotient never becomes a smaller number.** -/
theorem magnitudeOfRatio_mono {n d n' d' : Nat} (hd : 0 < d) (hd' : 0 < d')
    (h : (n : ℚ) / d ≤ n' / d') : magnitudeOfRatio n d ≤ magnitudeOfRatio n' d' := by
  rcases Nat.eq_zero_or_pos n with rfl | hn
  · exact Nat.zero_le _
  have hn' : 0 < n' := by
    rcases Nat.eq_zero_or_pos n' with rfl | hn'
    · rw [natCast_div_le_iff hd hd', Nat.zero_mul] at h
      exact absurd h (Nat.not_le.mpr (Nat.mul_pos hn hd'))
    · exact hn'
  rw [magnitudeOfRatio_eq hn, magnitudeOfRatio_eq hn']
  have hscale : roundingScale n d ≤ roundingScale n' d' :=
    max_le_max (Int.sub_le_sub_right (binaryExponent_mono hn hd hn' hd' h) 52) le_rfl
  have hleast : -1074 ≤ roundingScale n d := le_max_right _ _
  refine min_le_min_left infinite ?_
  rcases hscale.lt_or_eq with hlt | heq
  · -- one more unit of scale is worth as much as the missing bit
    have hupper := roundedSignificand_le hn hd
    have hlower := le_roundedSignificand hn' hd' (hleast.trans_lt hlt)
    have hstep : (roundingScale n d + 1074).toNat + 1 ≤ (roundingScale n' d' + 1074).toNat := by
      omega
    calc (roundingScale n d + 1074).toNat * exponentBit + roundedSignificand n d
        ≤ (roundingScale n d + 1074).toNat * exponentBit + 2 ^ 53 := Nat.add_le_add_left hupper _
      _ = ((roundingScale n d + 1074).toNat + 1) * exponentBit + 2 ^ 52 := by ring
      _ ≤ (roundingScale n' d' + 1074).toNat * exponentBit + roundedSignificand n' d' :=
        Nat.add_le_add (Nat.mul_le_mul_right exponentBit hstep) hlower
  · have hsignificand : roundedSignificand n d ≤ roundedSignificand n' d' := by
      obtain ⟨hpos, hquotient⟩ := overPower_spec n hd (roundingScale n d)
      obtain ⟨hpos', hquotient'⟩ := overPower_spec n' hd' (roundingScale n' d')
      refine nearestEven_mono hpos hpos' ((natCast_div_le_iff hpos hpos').mp ?_)
      rw [hquotient, hquotient', heq]
      exact div_le_div_of_nonneg_right h (zpow_two_pos _).le
    rw [heq]
    exact Nat.add_le_add_left hsignificand _

/-! ## Sizes -/

/-- The size of a number. That of an infinity is what would come next above the finite ones. -/
def size (x : Binary64) : ℚ := x.significand * 2 ^ x.scale

theorem ratio_spec (x : Binary64) :
    0 < x.ratio.2 ∧ (x.ratio.1 : ℚ) / x.ratio.2 = x.size := by
  unfold ratio size
  split
  · next hs =>
    obtain ⟨k, hk⟩ := Int.eq_ofNat_of_zero_le hs
    simp [hk, Nat.shiftLeft_eq]
  · next hs =>
    obtain ⟨k, hk⟩ := Int.exists_eq_neg_ofNat (not_le.mp hs).le
    simp [hk, Nat.shiftLeft_eq, div_eq_mul_inv]

theorem size_nonneg (x : Binary64) : 0 ≤ x.size :=
  mul_nonneg (Nat.cast_nonneg _) (zpow_two_pos _).le

/-- **A number of larger magnitude is of larger size.** -/
theorem size_lt {x y : Binary64} (h : x.magnitude < y.magnitude) : x.size < y.size := by
  have hscale : x.scale ≤ y.scale := by
    unfold scale exponentBit
    split <;> split <;> omega
  rcases hscale.lt_or_eq with hlt | heq
  · -- the next scale begins where this one ends
    have hupper : x.significand < 2 ^ 53 := by
      unfold significand exponentBit
      split <;> omega
    have hlower : 2 ^ 52 ≤ y.significand := by
      unfold significand exponentBit
      unfold scale exponentBit at hlt
      split
      · split at hlt <;> omega
      · omega
    calc x.size < 2 ^ 53 * 2 ^ x.scale :=
          mul_lt_mul_of_pos_right (by exact_mod_cast hupper) (zpow_two_pos _)
      _ = 2 ^ 52 * 2 ^ (x.scale + 1) := by
        rw [zpow_add₀ (by norm_num)]
        ring
      _ ≤ 2 ^ 52 * 2 ^ y.scale :=
        mul_le_mul_of_nonneg_left (zpow_two_le hlt) (by positivity)
      _ ≤ y.size := mul_le_mul_of_nonneg_right (by exact_mod_cast hlower) (zpow_two_pos _).le
  · have hsignificand : x.significand < y.significand := by
      unfold significand exponentBit
      unfold scale exponentBit at heq
      split <;> split <;> simp only [*, ↓reduceIte] at heq <;> omega
    unfold size
    rw [heq]
    exact mul_lt_mul_of_pos_right (by exact_mod_cast hsignificand) (zpow_two_pos _)

theorem size_congr {x y : Binary64} (h : x.magnitude = y.magnitude) : x.size = y.size := by
  unfold size significand scale
  rw [h]

theorem size_mono {x y : Binary64} (h : x.magnitude ≤ y.magnitude) : x.size ≤ y.size :=
  h.lt_or_eq.elim (fun hlt => (size_lt hlt).le) fun heq => (size_congr heq).le

end Binary64

end DataDictionary
