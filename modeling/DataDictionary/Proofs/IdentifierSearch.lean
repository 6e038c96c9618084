import DataDictionary.Bindings.Identifier
import DataDictionary.Proofs.Decimals
import Mathlib.Data.List.Nodup
import Mathlib.Data.List.Perm.Subperm

/-!
# The search for an identifier

An object whose identifier is in use has a number added to it, and the number is counted up until
the result is free. What is tried for a base is one candidate after the other: the base itself, and
then the base with the numbers from two on. They are all different (`candidate_injective`).

The counter goes up as soon as a number is taken from it, before that number is tried. So the
largest number that it holds is never tried, and the search is for the first free one among as many
candidates as there are smaller numbers (`fresh?_eq_find?`). It finds none if and only if all of
them are in use (`fresh?_eq_none_iff`), which takes as many identifiers as there are candidates
(`length_le_of_forall_mem`).
-/

namespace DataDictionary

namespace Bindings

/-! ## Candidates -/

/-- The identifiers that are tried for a base, in order. -/
def candidate (base : String) : Nat → String
  | 0 => base
  | k + 1 => withNumber base (k + 2)

theorem candidate_zero (base : String) : candidate base 0 = base := rfl

/-- How many candidates there are for a base: itself, and one for each number from two on, up to the
last but one of 32 bits with a sign. -/
def candidateCount : Nat := 2 ^ 31 - 2

theorem withNumber_injective (base : String) : Function.Injective (withNumber base) := by
  intro m n h
  have hdecimal : Text.decimal m = Text.decimal n := (String.append_right_inj _).mp h
  have hdigits : Text.digits m = Text.digits n := String.ofList_injective hdecimal
  rw [← Text.numeral_digits m, hdigits, Text.numeral_digits]

theorem withNumber_ne (base : String) (n : Nat) : withNumber base n ≠ base := by
  intro h
  have hlength := congrArg String.length h
  simp only [withNumber, String.length_append] at hlength
  have hbar : "_".length = 1 := rfl
  omega

theorem candidate_injective (base : String) : Function.Injective (candidate base) := by
  intro j k h
  cases j with
  | zero =>
    cases k with
    | zero => rfl
    | succ k => exact absurd h.symm (withNumber_ne base _)
  | succ j =>
    cases k with
    | zero => exact absurd h (withNumber_ne base _)
    | succ k =>
      have hnumber : j + 2 = k + 2 := withNumber_injective base h
      omega

variable {used : List String} {base ident : String} {k : Nat}

/-- It takes as many identifiers in use for so many candidates to be in use. -/
theorem length_le_of_forall_mem {m : Nat} (h : ∀ k < m, candidate base k ∈ used) :
    m ≤ used.length := by
  have hdistinct : ((List.range m).map (candidate base)).Nodup :=
    List.Nodup.map (candidate_injective base) List.nodup_range
  have hused : (List.range m).map (candidate base) ⊆ used := by
    intro ident hmem
    obtain ⟨k, hk, rfl⟩ := List.mem_map.mp hmem
    exact h k (List.mem_range.mp hk)
  have hlength := (List.subperm_of_subset hdistinct hused).length_le
  rwa [List.length_map, List.length_range] at hlength

/-! ## The search -/

/-- The candidates from a given one on. -/
def candidatesFrom (base : String) (k : Nat) : List String :=
  (List.range' k (candidateCount - k)).map (candidate base)

theorem candidatesFrom_of_lt (h : k < candidateCount) :
    candidatesFrom base k = candidate base k :: candidatesFrom base (k + 1) := by
  have hcount : candidateCount - k = candidateCount - (k + 1) + 1 := by omega
  rw [candidatesFrom, hcount, List.range'_succ, List.map_cons]
  rfl

/-- When a candidate is tried, the search is for the first free one of those from there on. -/
theorem search?_eq_find? {n : Int32} (hn : n.toInt = k + 2) :
    search? used base (candidate base k) n =
      (candidatesFrom base k).find? (!used.contains ·) := by
  have hk : ∀ {k : Nat} {n : Int32}, n.toInt = k + 2 → k < candidateCount := by
    intro k n hn
    have hlt := n.toInt_lt
    unfold candidateCount
    omega
  rw [candidatesFrom_of_lt (hk hn)]
  generalize hident : candidate base k = ident
  fun_induction search? used base ident n generalizing k with
  | case1 ident hused =>
    -- the counter is at its end, and so are the candidates
    have hlast : candidateCount - (k + 1) = 0 := by
      have hmax := Int32.toInt_maxValue
      unfold candidateCount
      omega
    simp only [List.find?_cons, hused, Bool.not_true, candidatesFrom, hlast]
    rfl
  | case2 ident n hused hmax ih =>
    have hnext : (n + 1).toInt = (k + 1 : Nat) + 2 := by
      have hadd := toInt_add_one hmax
      omega
    have hnumber : candidate base (k + 1) = withNumber base n.toNatClampNeg := by
      rw [← Int32.toNat_toInt, hn]
      rfl
    have hrest := ih hnext hnumber
    rw [hrest, candidatesFrom_of_lt (hk hnext), hnumber]
    simp only [List.find?_cons, hused, Bool.not_true]
  | case3 ident n hfree =>
    have hnew : used.contains ident = false := by simpa using hfree
    simp only [List.find?_cons, hnew, Bool.not_false]

/-- **A new identifier is the first free one of the candidates.** -/
theorem fresh?_eq_find? (used : List String) (base : String) :
    fresh? used base =
      ((List.range candidateCount).map (candidate base)).find? (!used.contains ·) := by
  have hsearch : search? used base (candidate base 0) 2 =
      (candidatesFrom base 0).find? (!used.contains ·) := search?_eq_find? rfl
  rwa [candidatesFrom, Nat.sub_zero, ← List.range_eq_range'] at hsearch

theorem fresh?_eq_some_iff :
    fresh? used base = some ident ↔ ∃ k < candidateCount, ident = candidate base k ∧
      candidate base k ∉ used ∧ ∀ j < k, candidate base j ∈ used := by
  rw [fresh?_eq_find?, List.find?_map, Option.map_eq_some_iff]
  simp only [List.find?_range_eq_some, Function.comp_apply, Bool.not_eq_true',
    Bool.not_not, List.contains_iff_mem, List.mem_range]
  constructor
  · rintro ⟨k, ⟨hfree, hk, htaken⟩, rfl⟩
    exact ⟨k, hk, rfl, by simpa using hfree, htaken⟩
  · rintro ⟨k, hk, rfl, hfree, htaken⟩
    exact ⟨k, ⟨by simpa using hfree, hk, htaken⟩, rfl⟩

/-- **There is no new identifier if and only if all candidates are in use.** -/
theorem fresh?_eq_none_iff :
    fresh? used base = none ↔ ∀ k < candidateCount, candidate base k ∈ used := by
  rw [fresh?_eq_find?, List.find?_eq_none]
  simp only [List.forall_mem_map, List.mem_range, Bool.not_eq_true', Bool.not_eq_false,
    List.contains_iff_mem]

/-- **An identifier that is made to be new is new.** -/
theorem notMem_of_fresh? (h : fresh? used base = some ident) : ident ∉ used := by
  obtain ⟨k, -, rfl, hfree, -⟩ := fresh?_eq_some_iff.mp h
  exact hfree

/-- What is free already is taken as it is. -/
theorem fresh?_of_notMem (h : base ∉ used) : fresh? used base = some base := by
  rw [fresh?, search?, if_neg (mt List.contains_iff_mem.mp h)]

end Bindings

end DataDictionary
