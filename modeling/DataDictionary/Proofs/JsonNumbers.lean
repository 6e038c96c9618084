import DataDictionary.Proofs.Decimals
import DataDictionary.Proofs.Rounding

/-!
# Which numbers are read back at all

A number that is not finite is written as null, which is no number. Every finite one is accepted
when it is read (`isSome_readBinary64?_ofBinary64`), though what is read is not always the same
number. The reader multiplies two rounded numbers, the digits that fit into 64 bits and a power of
ten, and either may have been rounded up; so near the largest number the product might get out of
range. That it does not takes three steps:

* the digits that are used, times their power of ten, are never more than what was written, and
  that is at most `topSize`, halfway between the two largest numbers, unless the number is the
  largest one itself (`value_shortest_lt`);
* among digits of that kind the product is largest for the most that are below `topSize`, since
  rounding keeps the order (`timesMagnitude_mono`);
* and for those it is in range, power by power (`products_inRange`).
-/

namespace DataDictionary

open Text

namespace Binary64

/-! ## Numbers by their magnitude -/

/-- The two numbers that have a magnitude. -/
theorem eq_of_magnitude {x : Binary64} {m : Nat} (h : x.magnitude = m) :
    x = ⟨UInt64.ofNat m⟩ ∨ x = ⟨UInt64.ofNat (signBit + m)⟩ := by
  obtain ⟨bits⟩ := x
  have hbits : bits.toNat < 2 ^ 64 := bits.toNat_lt
  have hcases : bits.toNat = m ∨ bits.toNat = signBit + m := by
    unfold magnitude signBit at h
    unfold signBit
    dsimp only at h
    omega
  rcases hcases with hm | hm
  · exact .inl (by rw [← hm, UInt64.ofNat_toNat])
  · exact .inr (by rw [← hm, UInt64.ofNat_toNat])

end Binary64

open Binary64

/-! ## The size of a decimal -/

namespace Number

/-- Halfway between the two largest numbers. -/
def topSize : Nat := (2 ^ 54 - 3) * 2 ^ 970

/-- What a decimal stands for. -/
def Decimal.value (d : Decimal) : ℚ := Text.numeral d.digits * 10 ^ d.exponent

/-- Zeros at the end are made up for by the exponent. -/
theorem value_ofScaled (c : Nat) (e : Int) : (Decimal.ofScaled c e).value = c * 10 ^ e := by
  have hkept : (Decimal.ofScaled c e).digits = (digits c).rdropWhile (· = '0') := rfl
  obtain ⟨k, hk⟩ : ∃ k, digits c = (Decimal.ofScaled c e).digits ++ List.replicate k '0' := by
    refine ⟨((digits c).rtakeWhile (· = '0')).length, ?_⟩
    have hzeros : (digits c).rtakeWhile (· = '0') =
        List.replicate ((digits c).rtakeWhile (· = '0')).length '0' :=
      List.eq_replicate_of_mem fun x hx => by simpa using List.mem_rtakeWhile_imp hx
    rw [hkept, ← hzeros, List.rdropWhile_append_rtakeWhile]
  have hexponent : (Decimal.ofScaled c e).exponent = e + k := by
    have hlength := congrArg List.length hk
    rw [List.length_append, List.length_replicate] at hlength
    show e + ((digits c).length - (Decimal.ofScaled c e).digits.length : Nat) = e + k
    omega
  have hnumeral : c = Text.numeral (Decimal.ofScaled c e).digits * 10 ^ k :=
    calc c = Text.numeral (digits c) := (numeral_digits c).symm
      _ = Text.numeral (Decimal.ofScaled c e).digits * 10 ^ k := by
        rw [hk, numeral_append, numeral_zeros, List.length_replicate, Nat.add_zero]
  rw [Decimal.value, hexponent, zpow_add₀ (by norm_num), zpow_natCast]
  conv_rhs => rw [hnumeral]
  push_cast
  ring

/-- What is not less than a whole number does not become less than what that becomes. -/
theorem magnitudeOfRatio_le_magnitudeOfScaled {n c : Nat} {e : Int} (h : (n : ℚ) ≤ c * 10 ^ e) :
    magnitudeOfRatio n 1 ≤ magnitudeOfScaled c e := by
  have hten : ∀ k : Nat, 0 < Nat.pow 10 k := fun k => Nat.pow_pos (by decide)
  unfold magnitudeOfScaled
  split
  · next he =>
    obtain ⟨k, rfl⟩ := Int.eq_ofNat_of_zero_le he
    refine magnitudeOfRatio_mono Nat.one_pos Nat.one_pos ?_
    simpa using h
  · next he =>
    obtain ⟨k, rfl⟩ := Int.exists_eq_neg_ofNat (not_le.mp he).le
    refine magnitudeOfRatio_mono Nat.one_pos (hten _) ?_
    simpa [div_eq_mul_inv] using h

/-- Above `topSize` nothing becomes less than the largest number. -/
theorem le_magnitudeOfScaled {c : Nat} {e : Int} (h : (topSize : ℚ) + 1 ≤ c * 10 ^ e) :
    infinite - 1 ≤ magnitudeOfScaled c e := by
  have htop : infinite - 1 = magnitudeOfRatio (topSize + 1) 1 := by decide +kernel
  rw [htop]
  refine magnitudeOfRatio_le_magnitudeOfScaled ?_
  rw [Nat.cast_add, Nat.cast_one]
  exact h

theorem value_exactDecimal (x : Binary64) : (exactDecimal x).value = x.size := by
  unfold exactDecimal size
  split
  · next hs =>
    obtain ⟨k, hk⟩ := Int.eq_ofNat_of_zero_le hs
    rw [value_ofScaled, hk, Nat.shiftLeft_eq]
    simp
  · next hs =>
    obtain ⟨k, hk⟩ := Int.exists_eq_neg_ofNat (not_le.mp hs).le
    rw [value_ofScaled, hk]
    simp only [neg_neg, Int.toNat_natCast, Nat.cast_mul, Nat.cast_pow, Nat.pow_eq, zpow_neg,
      zpow_natCast, Nat.cast_ofNat]
    rw [show (10 : ℚ) = 5 * 2 by norm_num, mul_pow, mul_inv, mul_assoc, ← mul_assoc (5 ^ k),
      mul_inv_cancel₀ (pow_ne_zero k (by norm_num)), one_mul]

/-- **The shortest decimal of any but the largest number stays below what becomes the largest.** -/
theorem value_shortest_lt {x : Binary64} (h : x.magnitude < infinite - 1) (tie : Tie) :
    (shortest tie x).value < topSize + 1 := by
  unfold shortest
  dsimp only
  cases hfind : (List.range 17).findSome? _ with
  | none =>
    -- the whole expansion, which is at most that of the number before the largest
    have hsize : size ⟨0x7FEFFFFFFFFFFFFE⟩ < topSize + 1 := by
      unfold size
      rw [show scale ⟨0x7FEFFFFFFFFFFFFE⟩ = (971 : Nat) by decide +kernel,
        show significand ⟨0x7FEFFFFFFFFFFFFE⟩ = 2 ^ 53 - 2 by decide +kernel, zpow_natCast]
      exact_mod_cast (by decide +kernel : (2 ^ 53 - 2) * 2 ^ 971 < topSize + 1)
    have hmag : x.magnitude ≤ magnitude ⟨0x7FEFFFFFFFFFFFFE⟩ := by
      rw [show magnitude ⟨0x7FEFFFFFFFFFFFFE⟩ = infinite - 2 by decide +kernel]
      omega
    exact (value_exactDecimal x).trans_lt ((size_mono hmag).trans_lt hsize)
  | some d =>
    -- what reads back as the number does not reach the largest
    obtain ⟨places, -, hd⟩ := List.exists_of_findSome?_eq_some hfind
    obtain ⟨c, hc, rfl⟩ := Option.map_eq_some_iff.mp hd
    have hback := magnitudeOfScaled_of_nearestMultiple? hc
    rw [Option.getD_some, value_ofScaled]
    by_contra hnot
    have hle := le_magnitudeOfScaled (not_lt.mp hnot)
    omega

end Number

namespace Json

open Number

/-! ## Digits that fit -/

theorem numeralFrom_cons (start : Nat) (d : Char) (ds : List Char) :
    numeralFrom start (d :: ds) = numeralFrom (10 * start + digitValue d) ds := by
  simp only [numeralFrom, List.foldl_cons]

/-- What is read of some digits are the first of them. -/
theorem fittingNumeral_spec {start : Nat} (h : start < UInt64.size) (ds : List Char) :
    ∃ taken ignored, ds = taken ++ ignored ∧
      fittingNumeral start ds = (numeralFrom start taken, ignored) ∧
      numeralFrom start taken < UInt64.size := by
  induction ds generalizing start with
  | nil => exact ⟨[], [], rfl, rfl, h⟩
  | cons d ds ih =>
    rw [fittingNumeral]
    split
    · next hfits =>
      obtain ⟨taken, ignored, rfl, hread, hsize⟩ := ih hfits
      rw [← numeralFrom_cons] at hread hsize
      exact ⟨d :: taken, ignored, rfl, hread, hsize⟩
    · exact ⟨[], d :: ds, rfl, rfl, h⟩

theorem numeralFrom_lt {start : Nat} {ds : List Char} (hds : ∀ c ∈ ds, c.isDigit = true) :
    numeralFrom start ds < (start + 1) * 10 ^ ds.length := by
  induction ds generalizing start with
  | nil => simp [numeralFrom]
  | cons d ds ih =>
    have hd := digitValue_le (hds d List.mem_cons_self)
    have hrest : numeralFrom start (d :: ds) <
        (10 * start + digitValue d + 1) * 10 ^ ds.length := by
      rw [numeralFrom_cons]
      exact ih fun c hc => hds c (List.mem_cons_of_mem _ hc)
    refine hrest.trans_le ?_
    rw [List.length_cons, Nat.pow_succ, Nat.mul_comm (10 ^ ds.length), ← Nat.mul_assoc]
    exact Nat.mul_le_mul_right _ (by omega)

/-- Digits are read to their end where there is room for all of them. -/
theorem fittingNumeral_all {start : Nat} {ds : List Char} (hds : ∀ c ∈ ds, c.isDigit = true)
    (h : (start + 1) * 10 ^ ds.length ≤ UInt64.size) :
    fittingNumeral start ds = (numeralFrom start ds, []) := by
  induction ds generalizing start with
  | nil => rfl
  | cons d ds ih =>
    have hd := digitValue_le (hds d List.mem_cons_self)
    have hroom : (10 * start + digitValue d + 1) * 10 ^ ds.length ≤ UInt64.size := by
      refine le_trans ?_ h
      rw [List.length_cons, Nat.pow_succ, Nat.mul_comm (10 ^ ds.length), ← Nat.mul_assoc]
      exact Nat.mul_le_mul_right _ (by omega)
    have hnext : 10 * start + digitValue d < UInt64.size :=
      lt_of_lt_of_le (Nat.lt_of_lt_of_le (Nat.lt_succ_self _)
        (Nat.le_mul_of_pos_right _ (Nat.pow_pos (by decide)))) hroom
    rw [fittingNumeral, if_pos hnext, ih (fun c hc => hds c (List.mem_cons_of_mem _ hc)) hroom,
      numeralFrom_cons]

/-! ## Written numbers -/

/-- With few digits in front of the point and some behind it, a digit behind it is read. -/
theorem significand_neg {n : Numeral} (hn : n.IsProper) (hwhole : n.whole.length ≤ 16)
    (hfraction : n.fraction ≠ []) (hexponent : n.exponent = none) : (significand n).2 < 0 := by
  have hdigit : ∀ c ∈ n.whole, c.isDigit = true := by
    rcases hn.whole with hzero | ⟨-, hdigit⟩
    · exact hzero ▸ List.all_eq_true.mp (by decide)
    · exact hdigit
  have hpow : 10 ^ n.whole.length ≤ 10 ^ 16 := Nat.pow_le_pow_right (by decide) hwhole
  have hsize : (10 : Nat) ^ 17 < UInt64.size := by decide
  have hread : fittingNumeral 0 n.whole = (Text.numeral n.whole, []) :=
    fittingNumeral_all hdigit (by omega)
  have hsmall : Text.numeral n.whole < 10 ^ 16 := by
    have hlt : Text.numeral n.whole < (0 + 1) * 10 ^ n.whole.length := numeralFrom_lt hdigit
    rw [Nat.zero_add, Nat.one_mul] at hlt
    exact lt_of_lt_of_le hlt hpow
  obtain ⟨d, ds, hds⟩ := List.exists_cons_of_ne_nil hfraction
  have hd : digitValue d ≤ 9 := digitValue_le (hn.fraction d (hds ▸ List.mem_cons_self))
  have hnext : 10 * Text.numeral n.whole + digitValue d < UInt64.size := by omega
  obtain ⟨taken, ignored, hsplit, hrest, -⟩ := fittingNumeral_spec hnext ds
  have hlength : ignored.length ≤ ds.length := by
    rw [hsplit, List.length_append]
    omega
  unfold significand
  rw [hread]
  dsimp only
  rw [hds, fittingNumeral, if_pos hnext, hrest, hexponent]
  simp only [List.length_nil, List.length_cons, Option.getD_none]
  omega

theorem significand_plain {d : Decimal} (hd : d.IsProper) (h : d.leadingPower ≤ 15) :
    (significand (plainNumeral ['0'] d)).2 < 0 := by
  have hzero : ∀ c ∈ ['0'], c.isDigit = true := List.all_eq_true.mp (by decide)
  have hpoint : d.digits.length + d.exponent ≤ 16 := by
    unfold Decimal.leadingPower at h
    omega
  refine significand_neg (hd.plainNumeral hzero) ?_ ?_ ?_
  · unfold plainNumeral
    split
    · simp only [List.length_append, List.length_replicate]
      omega
    · dsimp only
      split
      · simp only [List.length_take]
        omega
      · simp
  · obtain ⟨c, cs, hcs, -⟩ := hd.head
    unfold plainNumeral
    split
    · simp
    · dsimp only
      split
      · rw [ne_eq, List.drop_eq_nil_iff]
        omega
      · simp [hcs]
  · unfold plainNumeral
    split
    · rfl
    · dsimp only
      split <;> rfl

/-- The digits that are used are those in front, and never more than the whole. -/
theorem significand_scientific {d : Decimal} (hd : d.IsProper) :
    (significand (scientificNumeral d.leadingPower d)).1 < UInt64.size ∧
      (significand (scientificNumeral d.leadingPower d)).1 *
        (10 : ℚ) ^ (significand (scientificNumeral d.leadingPower d)).2 ≤ d.value := by
  obtain ⟨c, cs, hcs, -⟩ := hd.head
  have hc : digitValue c ≤ 9 := digitValue_le (hd.isDigit c (hcs ▸ List.mem_cons_self))
  have hfirst : fittingNumeral 0 [c] = (digitValue c, []) := by
    have hroom : (0 + 1) * 10 ^ [c].length ≤ UInt64.size := by
      show (0 + 1) * 10 ^ 1 ≤ UInt64.size
      decide
    rw [fittingNumeral_all (fun x hx => ?_) hroom]
    · rw [numeralFrom_cons, Nat.mul_zero, Nat.zero_add]
      rfl
    · exact hd.isDigit x (hcs ▸ List.mem_cons.mpr (.inl (List.mem_singleton.mp hx)))
  have hsmall : digitValue c < UInt64.size := lt_of_le_of_lt hc (by decide)
  obtain ⟨taken, ignored, rfl, hrest, hsize⟩ := fittingNumeral_spec hsmall cs
  have hused : numeralFrom (digitValue c) taken = Text.numeral (c :: taken) := by
    rw [Text.numeral, numeralFrom_cons, Nat.mul_zero, Nat.zero_add]
  have hread : significand (scientificNumeral d.leadingPower d) =
      (Text.numeral (c :: taken), ignored.length + d.exponent) := by
    unfold significand scientificNumeral
    dsimp only
    rw [hcs, List.take_succ_cons, List.take_zero, List.drop_succ_cons, List.drop_zero, hfirst]
    dsimp only
    rw [hrest, hused, Decimal.leadingPower, hcs]
    simp only [List.length_nil, List.length_cons, List.length_append, Option.getD_some,
      Prod.mk.injEq, true_and]
    omega
  rw [hread]
  refine ⟨hused ▸ hsize, ?_⟩
  have hvalue : Text.numeral (c :: taken) * 10 ^ ignored.length ≤ Text.numeral d.digits := by
    rw [hcs, ← List.cons_append, numeral_append]
    exact Nat.le_add_right _ _
  rw [Decimal.value, zpow_add₀ (by norm_num), zpow_natCast, ← mul_assoc]
  refine mul_le_mul_of_nonneg_right ?_ (zpow_nonneg (by norm_num : (0 : ℚ) ≤ 10) _)
  exact_mod_cast hvalue

/-! ## Products -/

theorem timesMagnitude_mono {x y p q : Binary64} (h : x.magnitude ≤ y.magnitude)
    (hpower : p.magnitude ≤ q.magnitude) : timesMagnitude x p ≤ timesMagnitude y q := by
  obtain ⟨hx, hxsize⟩ := x.ratio_spec
  obtain ⟨hy, hysize⟩ := y.ratio_spec
  obtain ⟨hp, hpsize⟩ := p.ratio_spec
  obtain ⟨hq, hqsize⟩ := q.ratio_spec
  refine magnitudeOfRatio_mono (Nat.mul_pos hx hp) (Nat.mul_pos hy hq) ?_
  push_cast
  rw [mul_div_mul_comm, mul_div_mul_comm, hxsize, hysize, hpsize, hqsize]
  exact mul_le_mul (size_mono h) (size_mono hpower) p.size_nonneg y.size_nonneg

theorem magnitude_ofInt_mono {c c' : Nat} (h : c ≤ c') :
    (ofInt c).magnitude ≤ (ofInt c').magnitude := by
  rw [magnitude_ofInt, magnitude_ofInt, Int.natAbs_natCast, Int.natAbs_natCast]
  refine magnitudeOfRatio_mono Nat.one_pos Nat.one_pos ?_
  simpa using h

theorem magnitude_powerOfTen (e : Nat) :
    (powerOfTen e).magnitude = magnitudeOfRatio (10 ^ e) 1 := by
  have hscaled : magnitudeOfScaled 1 e = magnitudeOfRatio (10 ^ e) 1 := by
    rw [magnitudeOfScaled, if_pos (Int.natCast_nonneg e), Nat.one_mul]
    rfl
  rw [powerOfTen, hscaled]
  exact magnitude_ofMagnitude
    (Nat.lt_of_le_of_lt (magnitudeOfRatio_le _ 1) (by decide : infinite < signBit)) _

theorem magnitude_powerOfTen_mono {e e' : Nat} (h : e ≤ e') :
    (powerOfTen e).magnitude ≤ (powerOfTen e').magnitude := by
  rw [magnitude_powerOfTen, magnitude_powerOfTen]
  refine magnitudeOfRatio_mono Nat.one_pos Nat.one_pos ?_
  have hpow : 10 ^ e ≤ 10 ^ e' := Nat.pow_le_pow_right (by decide) h
  rw [Nat.cast_one, div_one, div_one]
  exact_mod_cast hpow

/-- The most that fits into 64 bits and is not above `topSize` when it is scaled. -/
def mostDigits (e : Nat) : Nat := min (UInt64.size - 1) (topSize / 10 ^ e)

/-- Only for the last powers of ten is it a close call. -/
theorem products_inRange {e : Nat} (h : e ≤ topPower) :
    timesMagnitude (ofInt (mostDigits e)) (powerOfTen e) < infinite := by
  have hclose : ∀ k ≤ 19,
      timesMagnitude (ofInt (mostDigits (289 + k))) (powerOfTen (289 + k)) < infinite := by
    decide +kernel
  have hfar : timesMagnitude (ofInt (UInt64.size - 1 : Nat)) (powerOfTen 288) < infinite := by
    decide +kernel
  rcases Nat.lt_or_ge e 289 with hlt | hge
  · refine lt_of_le_of_lt (timesMagnitude_mono ?_ ?_) hfar
    · exact magnitude_ofInt_mono (min_le_left _ _)
    · exact magnitude_powerOfTen_mono (Nat.le_of_lt_succ hlt)
  · obtain ⟨k, rfl⟩ := Nat.exists_eq_add_of_le hge
    refine hclose k ?_
    unfold topPower at h
    omega

/-- Nothing is too large that is divided. -/
theorem isSome_scaledMagnitude?_of_neg (c : Nat) {e : Int} (h : e < 0) :
    (scaledMagnitude? c e).isSome = true := by
  unfold scaledMagnitude?
  dsimp only
  rw [if_neg (Int.not_le.mpr h)]
  split <;> rfl

/-- **What is not above `topSize` is not too large.** -/
theorem isSome_scaledMagnitude?_of_le {c e : Nat} (hc : c < UInt64.size)
    (h : c * 10 ^ e ≤ topSize) : (scaledMagnitude? c e).isSome = true := by
  unfold scaledMagnitude?
  dsimp only
  split
  · rfl
  · next hzero =>
    have hpower : e ≤ topPower := by
      by_contra hnot
      have hmore : 10 ^ (topPower + 1) ≤ c * 10 ^ e :=
        le_trans (Nat.pow_le_pow_right (by decide) (Nat.not_le.mp hnot))
          (Nat.le_mul_of_pos_left _ (Nat.pos_of_ne_zero hzero))
      have htop : topSize < 10 ^ (topPower + 1) := by decide +kernel
      omega
    have hdigits : c ≤ mostDigits e := by
      refine le_min (by omega) ?_
      exact (Nat.le_div_iff_mul_le (Nat.pow_pos (by decide))).mpr h
    have hinRange : timesMagnitude (ofInt c) (powerOfTen e) < infinite :=
      lt_of_le_of_lt (timesMagnitude_mono (magnitude_ofInt_mono hdigits) le_rfl)
        (products_inRange hpower)
    rw [if_pos (Int.natCast_nonneg e), Int.toNat_natCast, scaleUp?, if_pos hpower,
      Option.filter_some_pos (by simpa using hinRange)]
    rfl

/-! ## Numbers -/

/-- **Exactly the finite numbers are read back as numbers.** -/
theorem isSome_readBinary64?_ofBinary64 (x : Binary64) :
    (readBinary64? (ofBinary64 x)).isSome = x.isFinite := by
  unfold ofBinary64
  split
  · next hfinite =>
    rw [hfinite]
    have hmag : x.magnitude < infinite := by simpa [isFinite] using hfinite
    -- the sign is read apart from the digits
    have hsign : significand (numeral numberFormat x) = significand (sizeNumeral numberFormat x) :=
      rfl
    rw [readBinary64?, hsign]
    dsimp only
    rw [Option.isSome_map]
    by_cases hzero : x.magnitude = 0
    · rw [sizeNumeral, if_pos hzero]
      rfl
    · by_cases htop : x.magnitude = infinite - 1
      · rcases eq_of_magnitude htop with rfl | rfl <;> decide +kernel
      · rw [sizeNumeral, if_neg hzero]
        dsimp only
        have hproper := isProper_shortest hzero numberFormat.tie
        have hvalue := value_shortest_lt (x := x) (by omega) numberFormat.tie
        generalize shortest numberFormat.tie x = d at hproper hvalue ⊢
        split
        · next hplain =>
          have hleading : d.leadingPower ≤ 15 := by
            simp only [numberFormat, Bool.and_eq_true, decide_eq_true_eq] at hplain
            exact hplain.2
          exact isSome_scaledMagnitude?_of_neg _ (significand_plain hproper hleading)
        · obtain ⟨hsize, hle⟩ := significand_scientific hproper
          generalize significand (scientificNumeral d.leadingPower d) = read at hsize hle ⊢
          obtain ⟨c, e⟩ := read
          dsimp only at hsize hle ⊢
          rcases Int.lt_or_le e 0 with hneg | hnonneg
          · exact isSome_scaledMagnitude?_of_neg c hneg
          · obtain ⟨k, rfl⟩ := Int.eq_ofNat_of_zero_le hnonneg
            have hlt := hle.trans_lt hvalue
            rw [zpow_natCast] at hlt
            have hbelow : c * 10 ^ k < topSize + 1 := by exact_mod_cast hlt
            exact isSome_scaledMagnitude?_of_le hsize (by omega)
  · next hfinite =>
    rw [Bool.not_eq_true] at hfinite
    rw [hfinite]
    rfl

end Json

end DataDictionary
