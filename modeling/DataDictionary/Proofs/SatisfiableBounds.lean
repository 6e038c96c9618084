import DataDictionary.Proofs.IntegerValues

/-!
# Bounds that leave room for a number

By their places in the order, the numbers of the format are whole numbers: every place between the
two infinities is that of some number (`Binary64.exists_rank_eq`). An inclusive bound admits the
places from its own on, an exclusive one those from the next place on. So a minimum and a maximum
leave room for a number if as many places lie between them as the two need to keep their distance
(`Bound.satisfiable_iff`). The check of two bounds only asks for the larger of the two distances
(`Bound.consistent_iff`), which is the sum unless both bounds are exclusive.

Bounds that the check calls inverted are thus satisfied by no number at all, and a numeric field
that has them takes no value but an empty one and the sentinels (`Bound.consistent_exact`).
-/

namespace DataDictionary

open Text

namespace Binary64

/-- No number lies beyond the infinities. -/
theorem natAbs_rank_le {x : Binary64} (h : x.isNaN = false) : x.rank.natAbs ≤ infinite := by
  have hle : x.magnitude ≤ infinite := by simpa [isNaN] using h
  unfold rank
  split <;> omega

/-- Every place between the infinities is that of a number. -/
theorem exists_rank_eq {r : Int} (h : r.natAbs ≤ infinite) :
    ∃ x : Binary64, x.isNaN = false ∧ x.rank = r := by
  have hsign : r.natAbs < signBit := Nat.lt_of_le_of_lt h (by decide)
  have hmagnitude := magnitude_ofMagnitude hsign (decide (r < 0))
  refine ⟨ofMagnitude (r < 0) r.natAbs, ?_, ?_⟩
  · rw [isNaN, hmagnitude]
    exact decide_eq_false (Nat.not_lt.mpr h)
  · rw [rank, hmagnitude, isNegative_ofMagnitude hsign]
    simp only [decide_eq_true_eq]
    split <;> omega

end Binary64

namespace Bound

/-- How many places the numbers that a bound admits keep away from its own. -/
def distance (b : Bound) : Int := if b.inclusive then 0 else 1

theorem distance_cases (b : Bound) :
    (b.inclusive = true ∧ b.distance = 0) ∨ (b.inclusive = false ∧ b.distance = 1) := by
  unfold distance
  cases b.inclusive with
  | true => exact .inl ⟨rfl, rfl⟩
  | false => exact .inr ⟨rfl, rfl⟩

theorem distance_nonneg (b : Bound) : 0 ≤ b.distance := by
  unfold distance
  split <;> decide

theorem admitsAbove_iff {b : Bound} {x : Binary64} :
    b.admitsAbove x = true ↔
      b.value.isNaN = false ∧ x.isNaN = false ∧ b.value.rank + b.distance ≤ x.rank := by
  unfold admitsAbove distance
  split
  · rw [Binary64.le_iff, Int.add_zero]
  · exact Binary64.lt_iff

theorem admitsBelow_iff {b : Bound} {x : Binary64} :
    b.admitsBelow x = true ↔
      x.isNaN = false ∧ b.value.isNaN = false ∧ x.rank + b.distance ≤ b.value.rank := by
  unfold admitsBelow distance
  split
  · rw [Binary64.le_iff, Int.add_zero]
  · exact Binary64.lt_iff

/-- The check of two bounds asks for the larger of their distances. -/
theorem consistent_iff {low high : Bound} :
    consistent low high = true ↔
      low.value.isNaN = false ∧ high.value.isNaN = false ∧
        low.value.rank + max low.distance high.distance ≤ high.value.rank := by
  unfold consistent
  rcases low.distance_cases with ⟨hlow, hl⟩ | ⟨hlow, hl⟩ <;>
    rcases high.distance_cases with ⟨hhigh, hh⟩ | ⟨hhigh, hh⟩ <;>
    rw [hlow, hhigh, hl, hh]
  · exact Binary64.le_iff.trans (by simp)
  all_goals exact Binary64.lt_iff

/-- Some number satisfies the one bound as a minimum and the other one as a maximum. -/
def Satisfiable (low high : Bound) : Prop :=
  ∃ x : Binary64, low.admitsAbove x = true ∧ high.admitsBelow x = true

/-- **Two bounds can be satisfied if both can keep their distances between them.** -/
theorem satisfiable_iff {low high : Bound} :
    Satisfiable low high ↔
      low.value.isNaN = false ∧ high.value.isNaN = false ∧
        low.value.rank + low.distance + high.distance ≤ high.value.rank := by
  constructor
  · rintro ⟨x, habove, hbelow⟩
    obtain ⟨hlow, -, hfrom⟩ := admitsAbove_iff.mp habove
    obtain ⟨-, hhigh, hto⟩ := admitsBelow_iff.mp hbelow
    exact ⟨hlow, hhigh, by omega⟩
  · rintro ⟨hlow, hhigh, hroom⟩
    -- the place next to the minimum lies between two places of numbers
    have hrange : (low.value.rank + low.distance).natAbs ≤ Binary64.infinite := by
      have hfrom := Binary64.natAbs_rank_le hlow
      have hto := Binary64.natAbs_rank_le hhigh
      have hl := low.distance_nonneg
      have hh := high.distance_nonneg
      omega
    obtain ⟨x, hx, hrank⟩ := Binary64.exists_rank_eq hrange
    exact ⟨x, admitsAbove_iff.mpr ⟨hlow, hx, hrank.ge⟩,
      admitsBelow_iff.mpr ⟨hx, hhigh, hrank ▸ hroom⟩⟩

/-- Inverted bounds cannot be satisfied. -/
theorem not_satisfiable {low high : Bound} (h : consistent low high = false) :
    ¬Satisfiable low high := by
  intro hsat
  obtain ⟨hlow, hhigh, hroom⟩ := satisfiable_iff.mp hsat
  have hl := low.distance_nonneg
  have hh := high.distance_nonneg
  have hconsistent : consistent low high = true :=
    consistent_iff.mpr ⟨hlow, hhigh, by omega⟩
  rw [h] at hconsistent
  cases hconsistent

/-- Bounds that are not inverted can be satisfied, unless both are exclusive and of numbers next to
each other. -/
theorem satisfiable_iff_of_consistent {low high : Bound} (h : consistent low high = true) :
    Satisfiable low high ↔
      low.inclusive = true ∨ high.inclusive = true ∨ low.value.rank + 1 < high.value.rank := by
  obtain ⟨hlow, hhigh, hroom⟩ := consistent_iff.mp h
  rw [satisfiable_iff, and_iff_right hlow, and_iff_right hhigh]
  rcases low.distance_cases with ⟨hli, hl⟩ | ⟨hli, hl⟩ <;>
    rcases high.distance_cases with ⟨hhi, hh⟩ | ⟨hhi, hh⟩ <;>
    rw [hli, hhi] <;> simp only [Bool.false_eq_true, true_or, or_true, false_or, iff_true] <;>
    omega

end Bound

namespace Field

variable {f : Field} {low high : Bound}

/-- No number passes bounds that cannot be satisfied. -/
theorem checkBounds_ne_ok (hminimum : f.minimum = some low) (hmaximum : f.maximum = some high)
    (h : ¬Bound.Satisfiable low high) (x : Binary64) : f.checkBounds x ≠ .ok () := by
  intro hok
  have hadmits := checkBounds_eq_ok_iff.mp hok
  exact h ⟨x, hadmits .minimum low hminimum, hadmits .maximum high hmaximum⟩

/-- What a numeric field takes if no number passes its bounds. -/
theorem validate_eq_ok_iff_of_checkBounds (hkind : f.kind.isNumeric = true)
    (hbounds : ∀ x, f.checkBounds x ≠ .ok ()) (text : String) :
    f.validate text = .ok () ↔
      (strip text = "" ∧ f.required = false) ∨
        ∃ s, Sentinel.ofWord? (strip text) = some s ∧ f.allows s = true := by
  have hnumeric : f.validateNumeric (strip text) = .ok () ↔
      ∃ s, Sentinel.ofWord? (strip text) = some s ∧ f.allows s = true := by
    unfold validateNumeric
    cases Sentinel.ofWord? (strip text) with
    | some s => cases hallows : f.allows s <;> simp [hallows]
    | none =>
      cases f.readNumber (strip text) with
      | ok x => simpa using hbounds x
      | error fault => simp
  by_cases hempty : strip text = ""
  · have hword : Sentinel.ofWord? "" = none := by decide +kernel
    cases hrequired : f.required <;> simp [validate, hempty, hrequired, hword]
  · rw [validate, if_neg hempty, if_pos hkind, hnumeric]
    simp [hempty]

end Field

/-- **What the check of two bounds means.** If it fails, no number satisfies them both, so a real or
an integer field that has them takes nothing but an empty value, unless it is required, and the
sentinels it has the flags for. If it succeeds, some number satisfies them both, provided that one
of them is inclusive or another number lies between them. -/
theorem Bound.consistent_exact (low high : Bound) :
    (Bound.consistent low high = false →
      (∀ x, ¬(low.admitsAbove x = true ∧ high.admitsBelow x = true)) ∧
      ∀ f : Field, f.minimum = some low → f.maximum = some high →
        f.kind = .real ∨ f.kind = .integer →
        ∀ text, f.validate text = .ok () ↔
          (strip text = "" ∧ f.required = false) ∨
            ∃ s, Sentinel.ofWord? (strip text) = some s ∧ f.allows s = true) ∧
    (Bound.consistent low high = true →
      ((∃ x, low.admitsAbove x = true ∧ high.admitsBelow x = true) ↔
        low.inclusive = true ∨ high.inclusive = true ∨
          low.value.rank + 1 < high.value.rank)) := by
  refine ⟨fun hinverted => ⟨fun x hx => not_satisfiable hinverted ⟨x, hx⟩, ?_⟩,
    satisfiable_iff_of_consistent⟩
  intro f hminimum hmaximum hkind text
  have hnumeric : f.kind.isNumeric = true := by
    rcases hkind with hkind | hkind <;> rw [hkind] <;> rfl
  exact f.validate_eq_ok_iff_of_checkBounds hnumeric
    (f.checkBounds_ne_ok hminimum hmaximum (not_satisfiable hinverted)) text

/-- A field whose minimum is zero, excluded. -/
def positiveUpTo (high : Bound) : Field :=
  { id := ⟨.numeric, 1⟩, minimum := some ⟨⟨0⟩, false⟩, maximum := some high }

/-- Nothing lies above zero and not above the negative zero, so no number is left for the field. -/
theorem Bound.negative_zero_not_above_zero :
    let low : Bound := ⟨⟨0⟩, false⟩
    let high : Bound := ⟨⟨0x8000000000000000⟩, true⟩
    Bound.consistent low high = false ∧
      (∀ x, ¬(low.admitsAbove x = true ∧ high.admitsBelow x = true)) ∧
      (positiveUpTo high).validate "-0.0" ≠ .ok () ∧ (positiveUpTo high).validate " " = .ok () := by
  intro low high
  have hinverted : Bound.consistent low high = false := by decide
  obtain ⟨hnone, hfield⟩ := (Bound.consistent_exact low high).1 hinverted
  have htaken := hfield (positiveUpTo high) rfl rfl (.inl rfl)
  refine ⟨hinverted, hnone, fun hok => ?_, (htaken " ").mpr (.inl ?_)⟩
  · rcases (htaken "-0.0").mp hok with ⟨hempty, -⟩ | ⟨s, hword, -⟩
    · exact absurd hempty (by decide +kernel)
    · rw [show Sentinel.ofWord? (strip "-0.0") = none by decide +kernel] at hword
      cases hword
  · decide +kernel

-- zero and the smallest positive number, both excluded, pass the check with nothing between them
example : Bound.consistent ⟨⟨0⟩, false⟩ ⟨⟨1⟩, false⟩ = true ∧
    Binary64.rank ⟨0⟩ + 1 = Binary64.rank ⟨1⟩ := by decide

end DataDictionary
