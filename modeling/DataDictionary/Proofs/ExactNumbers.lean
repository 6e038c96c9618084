import DataDictionary.Proofs.Rounding

/-!
# Numbers as the quantities they are

A finite number is a rational one (`toRat`), and the order of the numbers is that of the rational
ones. What a quotient is rounded to is a number that no other is nearer to (`abs_size_sub_le`):
among those of its scale that is so because whole numbers are rounded to the nearest, and those of
a smaller scale are all on the other side of the least one that has this scale.

For whole numbers (`abs_ofInt_sub_le`) this says how they stand to a number once they are rounded:
on the same side as before, or on the number itself.
-/

namespace DataDictionary.Binary64

variable {x y : Binary64}

/-! ## The order of the rational numbers -/

/-- The rational number that a finite number is. -/
def toRat (x : Binary64) : ℚ := if x.isNegative then -x.size else x.size

theorem toRat_of_negative (h : x.isNegative = true) : x.toRat = -x.size := if_pos h

theorem toRat_of_not_negative (h : x.isNegative = false) : x.toRat = x.size := by
  rw [toRat, h, if_neg Bool.false_ne_true]

theorem rank_of_negative (h : x.isNegative = true) : x.rank = -(x.magnitude : Int) := if_pos h

theorem rank_of_not_negative (h : x.isNegative = false) : x.rank = x.magnitude := by
  rw [rank, h, if_neg Bool.false_ne_true]

theorem size_eq_zero (h : x.magnitude = 0) : x.size = 0 := by
  unfold size significand
  rw [h, if_pos (by decide), Nat.cast_zero, zero_mul]

theorem size_pos (h : 0 < x.magnitude) : 0 < x.size := by
  have hzero : (⟨0⟩ : Binary64).magnitude = 0 := by decide
  calc (0 : ℚ) = size ⟨0⟩ := (size_eq_zero hzero).symm
    _ < x.size := size_lt (by rwa [hzero])

theorem toRat_lt_of_rank_lt (h : x.rank < y.rank) : x.toRat < y.toRat := by
  cases hx : x.isNegative <;> cases hy : y.isNegative
  · rw [rank_of_not_negative hx, rank_of_not_negative hy] at h
    rw [toRat_of_not_negative hx, toRat_of_not_negative hy]
    exact size_lt (by omega)
  · rw [rank_of_not_negative hx, rank_of_negative hy] at h
    omega
  · -- one of the two is not zero
    rw [rank_of_negative hx, rank_of_not_negative hy] at h
    rw [toRat_of_negative hx, toRat_of_not_negative hy]
    have hx0 := x.size_nonneg
    have hy0 := y.size_nonneg
    rcases Nat.eq_zero_or_pos x.magnitude with hzero | hpos
    · have := size_pos (x := y) (by omega)
      linarith
    · have := size_pos hpos
      linarith
  · rw [rank_of_negative hx, rank_of_negative hy] at h
    rw [toRat_of_negative hx, toRat_of_negative hy]
    exact neg_lt_neg (size_lt (by omega))

theorem toRat_eq_of_rank_eq (h : x.rank = y.rank) : x.toRat = y.toRat := by
  -- numbers of different signs that share a rank are zeros
  cases hx : x.isNegative <;> cases hy : y.isNegative
  · rw [rank_of_not_negative hx, rank_of_not_negative hy] at h
    rw [toRat_of_not_negative hx, toRat_of_not_negative hy]
    exact size_congr (by omega)
  · rw [rank_of_not_negative hx, rank_of_negative hy] at h
    rw [toRat_of_not_negative hx, toRat_of_negative hy, size_eq_zero (by omega),
      size_eq_zero (by omega), neg_zero]
  · rw [rank_of_negative hx, rank_of_not_negative hy] at h
    rw [toRat_of_negative hx, toRat_of_not_negative hy, size_eq_zero (by omega),
      size_eq_zero (by omega), neg_zero]
  · rw [rank_of_negative hx, rank_of_negative hy] at h
    rw [toRat_of_negative hx, toRat_of_negative hy]
    exact congrArg _ (size_congr (by omega))

/-- **Numbers are ordered as the quantities they are.** -/
theorem rank_lt_iff : x.rank < y.rank ↔ x.toRat < y.toRat := by
  refine ⟨toRat_lt_of_rank_lt, fun h => ?_⟩
  by_contra hnot
  rcases (not_lt.mp hnot).lt_or_eq with hlt | heq
  · exact lt_asymm h (toRat_lt_of_rank_lt hlt)
  · exact h.ne' (toRat_eq_of_rank_eq heq)

theorem rank_le_iff : x.rank ≤ y.rank ↔ x.toRat ≤ y.toRat := by
  rw [← not_lt, ← not_lt, rank_lt_iff]

theorem isNaN_of_isFinite (h : x.isFinite = true) : x.isNaN = false := by
  unfold isFinite at h
  unfold isNaN
  rw [decide_eq_true_eq] at h
  exact decide_eq_false h.le.not_gt

theorem le_iff_toRat (hx : x.isFinite = true) (hy : y.isFinite = true) :
    x.le y = true ↔ x.toRat ≤ y.toRat := by
  simp only [le_iff, isNaN_of_isFinite hx, isNaN_of_isFinite hy, true_and, rank_le_iff]

theorem lt_iff_toRat (hx : x.isFinite = true) (hy : y.isFinite = true) :
    x.lt y = true ↔ x.toRat < y.toRat := by
  simp only [lt_iff, isNaN_of_isFinite hx, isNaN_of_isFinite hy, true_and, rank_lt_iff]

/-! ## The nearest number -/

variable {n d : Nat}

/-- The rest of a division is at most half of the divisor away from the next multiple. -/
theorem nearestEven_dist (n : Nat) (hd : 0 < d) :
    |((nearestEven n d : Nat) : ℚ) - n / d| ≤ 1 / 2 := by
  have hsum : d * (n / d) + n % d = n := Nat.div_add_mod n d
  have hrest : n % d < d := Nat.mod_lt n hd
  have hcast : (0 : ℚ) < d := by exact_mod_cast hd
  have htwice : 2 * (nearestEven n d * d) ≤ 2 * n + d ∧ 2 * n ≤ 2 * (nearestEven n d * d) + d := by
    unfold nearestEven
    dsimp only
    generalize n / d = q at hsum ⊢
    generalize n % d = r at hsum hrest ⊢
    have hmul : (q + 1) * d = d * q + d := by ring
    rcases Nat.mod_two_eq_zero_or_one q with heven | hodd
    · rw [heven]
      split_ifs <;> constructor <;> nlinarith
    · rw [hodd]
      split_ifs <;> constructor <;> nlinarith
  have hhigh : (2 : ℚ) * (nearestEven n d * d) ≤ 2 * n + d := by exact_mod_cast htwice.1
  have hlow : (2 : ℚ) * n ≤ 2 * (nearestEven n d * d) + d := by exact_mod_cast htwice.2
  have hsub : (nearestEven n d : ℚ) - n / d = (nearestEven n d * d - n) / d := by
    rw [sub_div, mul_div_cancel_right₀ _ hcast.ne']
  rw [hsub, abs_div, abs_of_pos hcast, div_le_iff₀ hcast, abs_le]
  constructor <;> linarith

/-- No whole number is nearer to a quotient. -/
theorem abs_nearestEven_sub_le (hd : 0 < d) (n j : Nat) :
    |((nearestEven n d : Nat) : ℚ) - n / d| ≤ |(j : ℚ) - n / d| := by
  rcases eq_or_ne j (nearestEven n d) with rfl | hne
  · exact le_rfl
  have hdist := nearestEven_dist n hd
  have hapart : (1 : ℚ) ≤ |(j : ℚ) - nearestEven n d| := by
    have hint : (1 : Int) ≤ |(j : Int) - nearestEven n d| := Int.one_le_abs (by omega)
    exact_mod_cast hint
  have htriangle := abs_sub_le (j : ℚ) (n / d) (nearestEven n d)
  rw [abs_sub_comm (n / d : ℚ)] at htriangle
  linarith

/-- No multiple of the scale is nearer to a quotient than the one it is rounded to. -/
theorem abs_rounded_sub_le (n : Nat) (hd : 0 < d) (j : Nat) :
    |(roundedSignificand n d : ℚ) * 2 ^ roundingScale n d - n / d| ≤
      |(j : ℚ) * 2 ^ roundingScale n d - n / d| := by
  obtain ⟨hpos, hquotient⟩ := overPower_spec n hd (roundingScale n d)
  have hscale := zpow_two_pos (roundingScale n d)
  have hsplit : ∀ k : ℚ, |k * 2 ^ roundingScale n d - n / d| =
      |k - n / d / 2 ^ roundingScale n d| * 2 ^ roundingScale n d := by
    intro k
    rw [← abs_of_pos hscale, ← abs_mul, abs_of_pos hscale, sub_mul, div_mul_cancel₀ _ hscale.ne']
  rw [hsplit, hsplit, ← hquotient]
  exact mul_le_mul_of_nonneg_right (abs_nearestEven_sub_le hpos _ j) hscale.le

/-- **The size of a rounded quotient.** Should the significand have become one bit too long, that
bit is in the exponent. -/
theorem size_of_rounded (hn : 0 < n) (hd : 0 < d) (hx : x.magnitude = magnitudeOfRatio n d)
    (hfinite : x.isFinite = true) :
    x.size = roundedSignificand n d * 2 ^ roundingScale n d := by
  have hmost := roundedSignificand_le hn hd
  have hleast : -1074 ≤ roundingScale n d := le_max_right _ _
  have hbits : roundingScale n d = -1074 ∨ 2 ^ 52 ≤ roundedSignificand n d := by
    rcases hleast.eq_or_lt with heq | hlt
    · exact .inl heq.symm
    · exact .inr (le_roundedSignificand hn hd hlt)
  have hmag : x.magnitude =
      (roundingScale n d + 1074).toNat * exponentBit + roundedSignificand n d := by
    unfold isFinite at hfinite
    rw [decide_eq_true_eq] at hfinite
    rw [magnitudeOfRatio_eq hn] at hx
    omega
  generalize roundingScale n d = s at hleast hbits hmag ⊢
  generalize roundedSignificand n d = k at hmost hbits hmag ⊢
  unfold size
  rcases hmost.lt_or_eq with hlt | rfl
  · have hsignificand : x.significand = k := by
      unfold significand exponentBit at *
      split <;> omega
    have hscale : x.scale = s := by
      unfold scale exponentBit at *
      split <;> omega
    rw [hsignificand, hscale]
  · have hsignificand : x.significand = 2 ^ 52 := by
      unfold significand exponentBit at *
      split <;> omega
    have hscale : x.scale = s + 1 := by
      unfold scale exponentBit at *
      split <;> omega
    rw [hsignificand, hscale, zpow_add₀ (by norm_num)]
    push_cast
    ring

/-- **No size is nearer to a quotient than the one it is rounded to.** -/
theorem abs_size_sub_le (hn : 0 < n) (hd : 0 < d) (hx : x.magnitude = magnitudeOfRatio n d)
    (hfinite : x.isFinite = true) (y : Binary64) :
    |x.size - n / d| ≤ |y.size - n / d| := by
  rw [size_of_rounded hn hd hx hfinite]
  rcases le_or_gt (roundingScale n d) y.scale with hscale | hscale
  · -- what has the scale or a larger one is a multiple of it
    obtain ⟨k, hk⟩ := Int.eq_ofNat_of_zero_le (Int.sub_nonneg_of_le hscale)
    have hmultiple : y.size = (y.significand * 2 ^ k : Nat) * 2 ^ roundingScale n d := by
      rw [size, show y.scale = k + roundingScale n d by omega, zpow_add₀ (by norm_num),
        zpow_natCast]
      push_cast
      ring
    rw [hmultiple]
    exact abs_rounded_sub_le n hd _
  · -- anything else is below all that are rounded at this scale
    have hleast : (-1074 : Int) ≤ y.scale := by
      unfold scale exponentBit
      split <;> omega
    have hexponent : roundingScale n d + 52 = binaryExponent n d := by
      unfold roundingScale at hscale ⊢
      omega
    have hfrom : (2 ^ 52 : Nat) * (2 : ℚ) ^ roundingScale n d ≤ n / d :=
      calc (2 ^ 52 : Nat) * (2 : ℚ) ^ roundingScale n d = 2 ^ binaryExponent n d := by
            rw [← hexponent, zpow_add₀ (by norm_num)]
            push_cast
            ring
        _ ≤ n / d := (binaryExponent_spec hn hd).1
    have hto : y.size ≤ (2 ^ 52 : Nat) * (2 : ℚ) ^ roundingScale n d := by
      have hsignificand : y.significand ≤ 2 ^ 53 := by
        unfold significand exponentBit
        split <;> omega
      calc y.size ≤ 2 ^ 53 * 2 ^ y.scale :=
            mul_le_mul_of_nonneg_right (by exact_mod_cast hsignificand) (zpow_two_pos _).le
        _ = 2 ^ 52 * 2 ^ (y.scale + 1) := by
          rw [zpow_add₀ (by norm_num)]
          ring
        _ ≤ (2 ^ 52 : Nat) * 2 ^ roundingScale n d := by
          push_cast
          exact mul_le_mul_of_nonneg_left (zpow_two_le hscale) (by positivity)
    refine (abs_rounded_sub_le n hd (2 ^ 52)).trans ?_
    rw [abs_sub_comm, abs_sub_comm y.size, abs_of_nonneg (sub_nonneg.mpr hfrom),
      abs_of_nonneg (sub_nonneg.mpr (hto.trans hfrom))]
    exact sub_le_sub_left hto _

/-! ## Whole numbers -/

/-- The distance of a whole number to what it is rounded to is that of the sizes. -/
theorem abs_toRat_ofInt_sub (m : Int) :
    |(ofInt m).toRat - m| = |(ofInt m).size - (m.natAbs : ℚ)| := by
  rcases lt_or_ge m 0 with hneg | hnonneg
  · have hm : (m : ℚ) = -(m.natAbs : ℚ) := by
      rw [Nat.cast_natAbs, abs_of_neg hneg]
      push_cast
      ring
    rw [toRat_of_negative (by rw [isNegative_ofInt]; exact decide_eq_true hneg), hm, ← neg_sub',
      abs_neg]
  · have hm : (m : ℚ) = (m.natAbs : ℚ) := by
      rw [Nat.cast_natAbs, abs_of_nonneg hnonneg]
    rw [toRat_of_not_negative (by rw [isNegative_ofInt]; exact decide_eq_false hnonneg.not_gt), hm]

theorem abs_toRat (x : Binary64) : |x.toRat| = x.size := by
  unfold toRat
  split
  · rw [abs_neg, abs_of_nonneg x.size_nonneg]
  · exact abs_of_nonneg x.size_nonneg

/-- **A whole number is rounded to the nearest number.** -/
theorem abs_ofInt_sub_le {m : Int} (hfinite : (ofInt m).isFinite = true) (y : Binary64) :
    |(ofInt m).toRat - m| ≤ |y.toRat - m| := by
  rw [abs_toRat_ofInt_sub]
  have hy : |y.size - (m.natAbs : ℚ)| ≤ |y.toRat - m| := by
    have habs := abs_abs_sub_abs_le_abs_sub y.toRat m
    rwa [abs_toRat, ← Int.cast_abs, ← Nat.cast_natAbs] at habs
  refine LE.le.trans ?_ hy
  rcases Nat.eq_zero_or_pos m.natAbs with hzero | hpos
  · have hm : (ofInt m).magnitude = 0 := by rw [magnitude_ofInt, hzero]; rfl
    rw [size_eq_zero hm, hzero, Nat.cast_zero, sub_zero, sub_zero, abs_zero]
    exact abs_nonneg _
  · have hsize := abs_size_sub_le hpos Nat.one_pos (magnitude_ofInt m) hfinite y
    rwa [Nat.cast_one, div_one] at hsize

/-- A number that a whole number does not exceed is not exceeded by what that is rounded to. -/
theorem toRat_ofInt_le {m : Int} (hfinite : (ofInt m).isFinite = true) (h : (m : ℚ) ≤ x.toRat) :
    (ofInt m).toRat ≤ x.toRat := by
  by_contra hnot
  have hlt := not_le.mp hnot
  have hnearest := abs_ofInt_sub_le hfinite x
  rw [abs_of_nonneg (sub_nonneg.mpr h), abs_of_nonneg (sub_nonneg.mpr (h.trans hlt.le))] at hnearest
  linarith

theorem le_toRat_ofInt {m : Int} (hfinite : (ofInt m).isFinite = true) (h : x.toRat ≤ m) :
    x.toRat ≤ (ofInt m).toRat := by
  by_contra hnot
  have hlt := not_le.mp hnot
  have hnearest := abs_ofInt_sub_le hfinite x
  rw [abs_of_nonpos (sub_nonpos.mpr h), abs_of_nonpos (sub_nonpos.mpr (hlt.le.trans h))] at hnearest
  linarith

/-- No 64-bit integer is too large. -/
theorem isFinite_ofInt (n : Int64) : (ofInt n.toInt).isFinite = true := by
  have hrange : n.toInt.natAbs ≤ 2 ^ 63 := by
    have hlow := n.le_toInt
    have hhigh := n.toInt_lt
    omega
  have htop : magnitudeOfRatio (2 ^ 63) 1 < infinite := by decide +kernel
  unfold isFinite
  rw [decide_eq_true_eq, magnitude_ofInt]
  refine Nat.lt_of_le_of_lt (magnitudeOfRatio_mono Nat.one_pos Nat.one_pos ?_) htop
  rw [Nat.cast_one, div_one, div_one]
  exact_mod_cast hrange

/-- **Up to `2 ^ 53` nothing is lost.** -/
theorem toRat_ofInt_of_natAbs_le {n : Int64} (h : n.toInt.natAbs ≤ 2 ^ 53) :
    (ofInt n.toInt).toRat = n.toInt := by
  have hfinite := isFinite_ofInt n
  have hdist := abs_toRat_ofInt_sub n.toInt
  generalize n.toInt = m at *
  suffices hsize : (ofInt m).size = m.natAbs by
    rw [hsize, sub_self, abs_zero] at hdist
    exact sub_eq_zero.mp (abs_eq_zero.mp hdist)
  rcases Nat.eq_zero_or_pos m.natAbs with hzero | hpos
  · rw [size_eq_zero (by rw [magnitude_ofInt, hzero]; rfl), hzero, Nat.cast_zero]
  · -- the number is a multiple of the scale at which it is rounded
    rw [size_of_rounded hpos Nat.one_pos (magnitude_ofInt m) hfinite]
    obtain ⟨j, hj⟩ : ∃ j : Nat, (m.natAbs : ℚ) = j * 2 ^ roundingScale m.natAbs 1 := by
      rcases h.lt_or_eq with hlt | heq
      · have hexponent := (binaryExponent_spec hpos Nat.one_pos).1
        rw [Nat.cast_one, div_one] at hexponent
        have hbelow := zpow_two_lt_iff.mp (hexponent.trans_lt
          (show (m.natAbs : ℚ) < 2 ^ (53 : Int) by exact_mod_cast hlt))
        have hscale : roundingScale m.natAbs 1 ≤ 0 := by
          unfold roundingScale
          omega
        obtain ⟨k, hk⟩ := Int.exists_eq_neg_ofNat hscale
        refine ⟨m.natAbs * 2 ^ k, ?_⟩
        rw [hk, zpow_neg, zpow_natCast]
        push_cast
        rw [mul_assoc, mul_inv_cancel₀ (pow_ne_zero k (by norm_num)), mul_one]
      · rw [heq, show roundingScale (2 ^ 53) 1 = 1 by decide +kernel]
        exact ⟨2 ^ 52, by norm_num⟩
    have hnearest := abs_rounded_sub_le m.natAbs Nat.one_pos j
    rw [Nat.cast_one, div_one, ← hj, sub_self, abs_zero] at hnearest
    exact sub_eq_zero.mp (abs_nonpos_iff.mp hnearest)

end DataDictionary.Binary64
