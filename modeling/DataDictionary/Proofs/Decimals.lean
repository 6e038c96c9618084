import DataDictionary.Json.Number
import Mathlib.Algebra.Group.Nat.Defs
import Mathlib.Data.List.DropRight

/-!
# Numerals that are well formed

The digits that are written for a whole number stand for that number, and they do not begin with a
needless zero. So do the digits in front of the point of every number that is written: a shortest
decimal is never empty, because what reads back as a number other than zero is not zero, and it
begins where the digits of a whole number begin.
-/

namespace DataDictionary

namespace Text

/-! ## Digits -/

theorem isDigit_digitOf {n : Nat} (h : n < 10) : (digitOf n).isDigit = true := by
  revert n
  decide

theorem digitValue_digitOf {n : Nat} (h : n < 10) : digitValue (digitOf n) = n := by
  revert n
  decide

theorem digitOf_ne_zero {n : Nat} (h : n < 10) (hpos : 0 < n) : digitOf n ≠ '0' := by
  revert n
  decide

theorem numeral_concat (ds : List Char) (d : Char) :
    numeral (ds ++ [d]) = 10 * numeral ds + digitValue d := by
  simp only [numeral, numeralFrom, List.foldl_append, List.foldl_cons, List.foldl_nil]

/-- Digits in front of others stand for so much more. -/
theorem numeral_append (ds es : List Char) :
    numeral (ds ++ es) = numeral ds * 10 ^ es.length + numeral es := by
  induction es using List.reverseRecOn with
  | nil => simp [numeral, numeralFrom]
  | append_singleton es e ih =>
    rw [← List.append_assoc, numeral_concat, numeral_concat, ih, List.length_append,
      List.length_singleton, Nat.pow_succ, Nat.mul_add, Nat.add_assoc, Nat.mul_comm 10,
      Nat.mul_assoc]

theorem numeral_singleton (c : Char) : numeral [c] = digitValue c := by
  rw [numeral, numeralFrom, List.foldl_cons, List.foldl_nil, Nat.mul_zero, Nat.zero_add]

/-- The digits lie between zero and nine. -/
theorem toNat_of_isDigit {c : Char} (h : c.isDigit = true) :
    '0'.toNat ≤ c.toNat ∧ c.toNat ≤ '9'.toNat := by
  simp only [Char.isDigit, Bool.and_eq_true, decide_eq_true_eq] at h
  exact h

/-- A digit other than zero has a value other than zero. -/
theorem digitValue_pos {c : Char} (hdigit : c.isDigit = true) (hzero : c ≠ '0') :
    0 < digitValue c := by
  have hne : c.toNat ≠ '0'.toNat := fun h => hzero (Char.toNat_inj.mp h)
  have hle := (toNat_of_isDigit hdigit).1
  unfold digitValue
  omega

/-- Digits that do not begin with a zero stand for a number other than zero. -/
theorem numeral_pos {c : Char} (hdigit : c.isDigit = true) (hzero : c ≠ '0') (cs : List Char) :
    0 < numeral (c :: cs) := by
  have hfirst : 0 < numeral [c] := by
    rw [numeral_singleton]
    exact digitValue_pos hdigit hzero
  have hpos := Nat.mul_pos hfirst (Nat.pow_pos (n := cs.length) (by decide : 0 < 10))
  rw [← List.singleton_append, numeral_append]
  omega

theorem numeral_zeros (n : Nat) : numeral (List.replicate n '0') = 0 := by
  induction n with
  | zero => rfl
  | succ n ih => rw [List.replicate_succ', numeral_concat, ih]; rfl

theorem digitValue_le {c : Char} (h : c.isDigit = true) : digitValue c ≤ 9 :=
  Nat.sub_le_sub_right (toNat_of_isDigit h).2 '0'.toNat

theorem isDigit_of_mem_digitsBackward {fuel n : Nat} {c : Char} (h : c ∈ digitsBackward fuel n) :
    c.isDigit = true := by
  induction fuel generalizing n with
  | zero => cases h
  | succ fuel ih =>
    rw [digitsBackward] at h
    rcases List.mem_cons.mp h with rfl | h
    · exact isDigit_digitOf (Nat.mod_lt n (by decide))
    · split at h
      · cases h
      · exact ih h

theorem numeral_digitsBackward {fuel n : Nat} (h : n < 2 ^ fuel) :
    numeral (digitsBackward fuel n).reverse = n := by
  induction fuel generalizing n with
  | zero =>
    rw [Nat.lt_one_iff.mp h]
    rfl
  | succ fuel ih =>
    rw [digitsBackward, List.reverse_cons, numeral_concat,
      digitValue_digitOf (Nat.mod_lt n (by decide))]
    split
    · next hsmall =>
      rw [List.reverse_nil]
      show 10 * 0 + n % 10 = n
      omega
    · -- a digit less is less than half the number, so one unit of fuel less is enough
      have hless : n / 10 < 2 ^ fuel := by omega
      rw [ih hless]
      omega

/-- The first digit of a number other than zero is not a zero. -/
theorem getLast?_digitsBackward {fuel n : Nat} (h : n < 2 ^ fuel) (hpos : 0 < n) :
    ∃ c, (digitsBackward fuel n).getLast? = some c ∧ c ≠ '0' := by
  induction fuel generalizing n with
  | zero => omega
  | succ fuel ih =>
    rw [digitsBackward]
    split
    · next hsmall =>
      rw [Nat.mod_eq_of_lt hsmall]
      exact ⟨_, rfl, digitOf_ne_zero hsmall hpos⟩
    · obtain ⟨c, hlast, hc⟩ := ih (n := n / 10) (by omega) (by omega)
      refine ⟨c, ?_, hc⟩
      rw [List.getLast?_cons, hlast]
      rfl

theorem isDigit_of_mem_digits {n : Nat} {c : Char} (h : c ∈ digits n) : c.isDigit = true :=
  isDigit_of_mem_digitsBackward (List.mem_reverse.mp h)

/-- **The digits of a number stand for it.** -/
theorem numeral_digits (n : Nat) : numeral (digits n) = n := numeral_digitsBackward Nat.lt_log2_self

/-- Digits without a needless zero in front. -/
def IsWhole (ds : List Char) : Prop :=
  ds = ['0'] ∨ (∃ c cs, ds = c :: cs ∧ c ≠ '0') ∧ ∀ d ∈ ds, d.isDigit = true

theorem IsWhole.ne_nil {ds : List Char} (h : IsWhole ds) : ds ≠ [] := by
  rcases h with rfl | ⟨⟨c, cs, rfl, -⟩, -⟩ <;> exact List.cons_ne_nil _ _

/-- Digits that may stand in front of a point begin with one. -/
theorem IsWhole.head_isDigit {ds : List Char} (h : IsWhole ds) :
    ∃ c cs, ds = c :: cs ∧ c.isDigit = true := by
  rcases h with rfl | ⟨⟨c, cs, rfl, -⟩, hdigit⟩
  · exact ⟨'0', [], rfl, rfl⟩
  · exact ⟨c, cs, rfl, hdigit c List.mem_cons_self⟩

theorem exists_digits_of_pos {n : Nat} (h : 0 < n) : ∃ c cs, digits n = c :: cs ∧ c ≠ '0' := by
  obtain ⟨c, hlast, hc⟩ := getLast?_digitsBackward (Nat.lt_log2_self (n := n)) h
  rw [← List.head?_reverse] at hlast
  obtain ⟨cs, hcs⟩ := List.head?_eq_some_iff.mp hlast
  exact ⟨c, cs, hcs, hc⟩

theorem isWhole_digits (n : Nat) : IsWhole (digits n) := by
  rcases Nat.eq_zero_or_pos n with rfl | hpos
  · exact .inl rfl
  · exact .inr ⟨exists_digits_of_pos hpos, fun _ hd => isDigit_of_mem_digits hd⟩

end Text

open Text

/-! ## Shortest decimals -/

theorem Binary64.magnitudeOfScaled_zero (e : Int) : magnitudeOfScaled 0 e = 0 := by
  unfold magnitudeOfScaled
  rw [Nat.zero_mul]
  split <;> rfl

theorem Binary64.significand_ne_zero {x : Binary64} (h : x.magnitude ≠ 0) : x.significand ≠ 0 := by
  unfold significand
  split
  · exact h
  · exact Nat.ne_of_gt (Nat.lt_of_lt_of_le (by decide) (Nat.le_add_left exponentBit _))

namespace Number

/-- A decimal whose digits begin where those of a whole number begin. -/
structure Decimal.IsProper (d : Decimal) : Prop where
  head : ∃ c cs, d.digits = c :: cs ∧ c ≠ '0'
  isDigit : ∀ c ∈ d.digits, c.isDigit = true

/-- Dropping zeros at the end leaves the first digit. -/
theorem isProper_ofScaled {c : Nat} (h : c ≠ 0) (e : Int) : (Decimal.ofScaled c e).IsProper := by
  obtain ⟨d, ds, hdigits, hd⟩ := exists_digits_of_pos (Nat.pos_of_ne_zero h)
  have hkept : (Decimal.ofScaled c e).digits = (digits c).rdropWhile (· = '0') := rfl
  have hkeeps : (Decimal.ofScaled c e).digits <+: digits c := hkept ▸ List.rdropWhile_prefix _ _
  refine ⟨?_, fun x hx => isDigit_of_mem_digits (hkeeps.subset hx)⟩
  cases hds : (Decimal.ofScaled c e).digits with
  | nil =>
    -- then the first digit would be a zero as well
    rw [hkept, List.rdropWhile_eq_nil_iff] at hds
    have hzero := hds d (by rw [hdigits]; exact List.mem_cons_self)
    exact absurd (by simpa using hzero) hd
  | cons x xs =>
    rw [hds, hdigits] at hkeeps
    obtain ⟨rfl, -⟩ := List.cons_prefix_cons.mp hkeeps
    exact ⟨x, xs, rfl, hd⟩

/-- What is taken for a number reads back as it. -/
theorem magnitudeOfScaled_of_nearestMultiple? {tie : Tie} {magnitude num den c : Nat} {e : Int}
    (h : nearestMultiple? tie magnitude num den e = some c) :
    Binary64.magnitudeOfScaled c e = magnitude := by
  unfold nearestMultiple? at h
  dsimp only at h
  generalize (unscale num den e).1 / (unscale num den e).2 = below at h
  split at h
  · next hbelow habove =>
    rw [beq_iff_eq] at hbelow habove
    split at h
    · cases h
      exact hbelow
    · split at h
      · cases h
        exact habove
      · cases tie with
        | up =>
          cases h
          exact habove
        | toEven =>
          -- the even one of the two
          cases h
          rcases Nat.mod_two_eq_zero_or_one below with heven | hodd
          · rwa [heven, Nat.add_zero]
          · rwa [hodd]
  · next hbelow _ =>
    cases h
    exact beq_iff_eq.mp hbelow
  · next _ habove =>
    cases h
    exact beq_iff_eq.mp habove
  · cases h

theorem ne_zero_of_nearestMultiple? {tie : Tie} {magnitude num den c : Nat} {e : Int}
    (hmag : magnitude ≠ 0) (h : nearestMultiple? tie magnitude num den e = some c) : c ≠ 0 := by
  rintro rfl
  have hback := magnitudeOfScaled_of_nearestMultiple? h
  rw [Binary64.magnitudeOfScaled_zero] at hback
  exact hmag hback.symm

theorem isProper_exactDecimal {x : Binary64} (h : x.magnitude ≠ 0) : (exactDecimal x).IsProper := by
  have hs := Binary64.significand_ne_zero h
  unfold exactDecimal
  split
  · refine isProper_ofScaled ?_ 0
    rw [Nat.shiftLeft_eq]
    exact Nat.mul_ne_zero hs (Nat.ne_of_gt (Nat.pow_pos (by decide)))
  · exact isProper_ofScaled (Nat.mul_ne_zero hs (Nat.ne_of_gt (Nat.pow_pos (by decide)))) _

theorem isProper_shortest {x : Binary64} (h : x.magnitude ≠ 0) (tie : Tie) :
    (shortest tie x).IsProper := by
  unfold shortest
  dsimp only
  cases hfind : (List.range 17).findSome? _ with
  | none => exact isProper_exactDecimal h
  | some d =>
    obtain ⟨places, -, hd⟩ := List.exists_of_findSome?_eq_some hfind
    obtain ⟨c, hc, rfl⟩ := Option.map_eq_some_iff.mp hd
    exact isProper_ofScaled (ne_zero_of_nearestMultiple? h hc) _

end Number

/-! ## Written numbers -/

/-- A numeral as it may be written: no needless zero, and nothing but digits around the point. -/
structure Numeral.IsProper (n : Numeral) : Prop where
  whole : IsWhole n.whole
  fraction : ∀ c ∈ n.fraction, c.isDigit = true

namespace Number

theorem Decimal.IsProper.plainNumeral {d : Decimal} (h : d.IsProper) {emptyFraction : List Char}
    (hempty : ∀ c ∈ emptyFraction, c.isDigit = true) :
    (plainNumeral emptyFraction d).IsProper := by
  obtain ⟨⟨c, cs, hds, hc⟩, hdigit⟩ := h
  have hzeros : ∀ n, ∀ x ∈ List.replicate n '0', x.isDigit = true := by
    intro n x hx
    rw [List.eq_of_mem_replicate hx]
    rfl
  unfold Number.plainNumeral
  split
  · -- zeros up to the point
    refine ⟨.inr ⟨⟨c, cs ++ _, by rw [hds]; rfl, hc⟩, fun x hx => ?_⟩, hempty⟩
    exact (List.mem_append.mp hx).elim (hdigit x) (hzeros _ x)
  · dsimp only
    split
    · next hpoint =>
      -- the point stands among the digits
      obtain ⟨k, hk⟩ : ∃ k, (d.digits.length + d.exponent).toNat = k + 1 :=
        ⟨(d.digits.length + d.exponent).toNat - 1, by omega⟩
      rw [hk]
      refine ⟨.inr ⟨⟨c, cs.take k, by rw [hds]; rfl, hc⟩, fun x hx => ?_⟩, fun x hx => ?_⟩
      · exact hdigit x (List.mem_of_mem_take hx)
      · exact hdigit x (List.mem_of_mem_drop hx)
    · -- zeros behind the point
      refine ⟨.inl rfl, fun x hx => ?_⟩
      exact (List.mem_append.mp hx).elim (hzeros _ x) (hdigit x)

theorem Decimal.IsProper.scientificNumeral {d : Decimal} (h : d.IsProper) (e : Int) :
    (scientificNumeral e d).IsProper := by
  obtain ⟨⟨c, cs, hds, hc⟩, hdigit⟩ := h
  refine ⟨.inr ⟨⟨c, [], by rw [Number.scientificNumeral, hds]; rfl, hc⟩, fun x hx => ?_⟩,
    fun x hx => ?_⟩
  · exact hdigit x (List.mem_of_mem_take hx)
  · exact hdigit x (List.mem_of_mem_drop hx)

/-- **Numbers are written as well-formed numerals.** -/
theorem isProper_numeral {format : NumberFormat}
    (h : ∀ c ∈ format.emptyFraction, c.isDigit = true) (x : Binary64) :
    (numeral format x).IsProper := by
  have hsize : (sizeNumeral format x).IsProper := by
    unfold sizeNumeral
    split
    · exact ⟨.inl rfl, h⟩
    · next hmag =>
      have hproper := isProper_shortest hmag format.tie
      dsimp only
      split
      · exact hproper.plainNumeral h
      · exact hproper.scientificNumeral _
  exact ⟨hsize.whole, hsize.fraction⟩

end Number

end DataDictionary
