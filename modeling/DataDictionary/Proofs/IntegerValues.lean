import DataDictionary.Field.Validation
import DataDictionary.Proofs.DirectiveEffects
import DataDictionary.Proofs.ExactNumbers
import DataDictionary.Proofs.Spellings
import DataDictionary.Proofs.Trimming

/-!
# Integers as values

The numeral of a 64-bit integer is always read as that integer, so all that can keep an integer
field from taking it are the bounds. They are not compared with the integer, but with the number of
the format that is nearest to it. Up to `2 ^ 53` that is the integer itself. Beyond, the comparison
comes out as it should unless the nearest number is just the bound: then whether the bound is
inclusive decides, on whichever side of it the integer is (`Field.validate_integer`).

So an integer may be refused although it is within the bounds (`largest_integer_refused`).
-/

namespace DataDictionary

open Text

/-! ## Reading an integer -/

namespace Text

/-- The numeral of a number is read as that number. -/
theorem readNat?_repr (n : Nat) : readNat? n.repr.toList = some n := by
  have hdigits : n.repr.toList.all Char.isDigit = true :=
    List.all_eq_true.mpr fun c hc => by
      rw [Nat.toList_repr] at hc
      exact Nat.isDigit_of_mem_toDigits (by decide) (by decide) hc
  have hne : n.repr.toList ≠ [] := by
    rw [Nat.toList_repr]
    exact Nat.toDigits_ne_nil
  rw [readNat?, if_pos ⟨hne, hdigits⟩, Nat.toList_repr]
  exact congrArg some Nat.ofDigitChars_ten_toDigits

/-- The numeral of an integer, by its sign. -/
theorem toString_int_cases (n : Int) :
    (0 ≤ n ∧ (toString n).toList = n.natAbs.repr.toList) ∨
      (n < 0 ∧ (toString n).toList = '-' :: n.natAbs.repr.toList) := by
  cases n with
  | ofNat m => exact .inl ⟨Int.natCast_nonneg m, rfl⟩
  | negSucc m => exact .inr ⟨Int.negSucc_lt_zero m, String.toList_append⟩

/-- **The numeral of an integer is read as that integer.** -/
theorem readInt?_toString (n : Int) : readInt? (toString n).toList = some n := by
  rcases toString_int_cases n with ⟨hn, htext⟩ | ⟨hn, htext⟩
  · have hread := readNat?_repr n.natAbs
    rw [htext]
    unfold readInt?
    split
    · -- no digit is a sign
      next heq =>
      rw [heq] at hread
      simp [readNat?] at hread
    · next heq =>
      rw [heq] at hread
      simp [readNat?] at hread
    · rw [hread, Option.map_some]
      exact congrArg some (Int.natAbs_of_nonneg hn)
  · rw [htext, readInt?, readNat?_repr]
    exact congrArg some (show -(n.natAbs : Int) = n by omega)

theorem mem_toString_int {n : Int} {c : Char} (h : c ∈ (toString n).toList) :
    c = '-' ∨ c.isDigit = true := by
  have hdigit : c ∈ n.natAbs.repr.toList → c.isDigit = true := fun hc => by
    rw [Nat.toList_repr] at hc
    exact Nat.isDigit_of_mem_toDigits (by decide) (by decide) hc
  rcases toString_int_cases n with ⟨-, htext⟩ | ⟨-, htext⟩
  · exact .inr (hdigit (htext ▸ h))
  · rw [htext] at h
    exact (List.mem_cons.mp h).imp_right hdigit

/-- There are no blanks in the numeral of an integer. -/
theorem strip_toString_int (n : Int) : strip (toString n) = toString n := by
  have hblank : ∀ c ∈ (toString n).toList, isBlank c = false := by
    intro c hc
    rcases mem_toString_int hc with rfl | hdigit
    · decide
    · exact isBlank_of_isDigit hdigit
  rw [strip, trim_eq_self hblank, String.ofList_toList]

end Text

theorem Number.readInteger?_toString (n : Int64) :
    Number.readInteger? (toString n) = some n.toInt := by
  have hread : Text.readInt? (toString n).toList = some n.toInt := readInt?_toString n.toInt
  have hrange : Number.integerRange n.toInt = true := by
    rw [integerRange, Bool.and_eq_true, decide_eq_true_eq, decide_eq_true_eq]
    exact ⟨n.minValue_le_toInt, n.toInt_le⟩
  rw [readInteger?, hread, Option.filter_some_pos hrange]

/-- A numeral is no word. -/
theorem Sentinel.ofWord?_toString (n : Int) : ofWord? (toString n) = none := by
  have hletter : ∀ c, c = '-' ∨ c.isDigit = true → c.toLower ≠ 'a' := by
    intro c hc hlower
    rcases toLower_cases c with hself | ⟨k, hk, rfl⟩
    · rw [hself] at hlower
      subst hlower
      exact absurd hc (by decide)
    · have hcapital : ∀ k < 26,
          ¬(Char.ofNat (65 + k) = '-' ∨ (Char.ofNat (65 + k)).isDigit = true) := by decide
      exact hcapital k hk hc
  have hno : ∀ s : Sentinel, ¬sameWord (toString n) s.word = true := by
    intro s hsame
    have hfirst : 'a' ∈ s.word.toList.map Char.toLower := by cases s <;> decide
    rw [← sameWord_iff.mp hsame] at hfirst
    obtain ⟨c, hc, hlower⟩ := List.mem_map.mp hfirst
    exact hletter c (mem_toString_int hc) hlower
  rw [ofWord?, if_neg (hno _), if_neg (hno _)]

/-! ## Bounds as exact quantities -/

namespace Bound

/-- Whether a number satisfies the bound at the side where it stands. -/
def admits (b : Bound) : Side → Binary64 → Bool
  | .minimum => b.admitsAbove
  | .maximum => b.admitsBelow

/-- Whether a quantity satisfies the bound at the side where it stands. -/
def Allows (b : Bound) (side : Side) (q : ℚ) : Prop :=
  match side with
  | .minimum => if b.inclusive then b.value.toRat ≤ q else b.value.toRat < q
  | .maximum => if b.inclusive then q ≤ b.value.toRat else q < b.value.toRat

theorem admits_iff {b : Bound} {x : Binary64} (hb : b.value.isFinite = true)
    (hx : x.isFinite = true) (side : Side) : b.admits side x = true ↔ b.Allows side x.toRat := by
  cases side with
  | minimum =>
    dsimp only [admits, admitsAbove, Allows]
    split_ifs
    · exact Binary64.le_iff_toRat hb hx
    · exact Binary64.lt_iff_toRat hb hx
  | maximum =>
    dsimp only [admits, admitsBelow, Allows]
    split_ifs
    · exact Binary64.le_iff_toRat hx hb
    · exact Binary64.lt_iff_toRat hx hb

/-- Only on the bound itself does it matter that an integer was rounded. -/
theorem allows_ofInt_iff {b : Bound} {m : Int} (hfinite : (Binary64.ofInt m).isFinite = true)
    (h : b.value.toRat = (Binary64.ofInt m).toRat → b.value.toRat = m) (side : Side) :
    b.Allows side (Binary64.ofInt m).toRat ↔ b.Allows side m := by
  have hfrom : b.value.toRat ≤ (Binary64.ofInt m).toRat ↔ b.value.toRat ≤ m := by
    refine ⟨fun hle => ?_, Binary64.le_toRat_ofInt hfinite⟩
    by_contra hnot
    have hlt := not_le.mp hnot
    exact hlt.ne' (h (hle.antisymm (Binary64.toRat_ofInt_le hfinite hlt.le)))
  have hto : (Binary64.ofInt m).toRat ≤ b.value.toRat ↔ m ≤ b.value.toRat := by
    refine ⟨fun hle => ?_, Binary64.toRat_ofInt_le hfinite⟩
    by_contra hnot
    have hlt := not_le.mp hnot
    exact hlt.ne (h ((Binary64.le_toRat_ofInt hfinite hlt.le).antisymm hle))
  cases side with
  | minimum =>
    dsimp only [Allows]
    split_ifs
    · exact hfrom
    · rw [← not_le, ← not_le, hto]
  | maximum =>
    dsimp only [Allows]
    split_ifs
    · exact hto
    · rw [← not_le, ← not_le, hfrom]

end Bound

namespace Field

/-- Whether a quantity is within the bounds of the field. -/
def Encloses (f : Field) (q : ℚ) : Prop := ∀ side b, f.bound side = some b → b.Allows side q

theorem checkBounds_eq_ok_iff {f : Field} {x : Binary64} :
    f.checkBounds x = .ok () ↔ ∀ side b, f.bound side = some b → b.admits side x = true := by
  have hside : ∀ (bound : Option Bound) (admits : Bound → Bool),
      bound.filter (!admits ·) = none ↔ ∀ b, bound = some b → admits b = true := by
    intro bound admits
    rw [Option.filter_eq_none_iff]
    exact forall₂_congr fun b _ => by simp
  have hminimum := hside f.minimum (·.admitsAbove x)
  have hmaximum := hside f.maximum (·.admitsBelow x)
  unfold checkBounds
  constructor
  · intro hok side b hb
    split at hok
    · cases hok
    · next hlow =>
      split at hok
      · cases hok
      · next hhigh =>
        cases side with
        | minimum => exact hminimum.mp hlow b hb
        | maximum => exact hmaximum.mp hhigh b hb
  · intro hall
    rw [hminimum.mpr (hall .minimum), hmaximum.mpr (hall .maximum)]

/-- An integer field checks nothing of an integer but its bounds. -/
theorem validate_toString {f : Field} (hkind : f.kind = .integer) (n : Int64) :
    f.validate (toString n) = f.checkBounds (.ofInt n.toInt) := by
  have hne : toString n ≠ "" := by
    intro hempty
    have hread := Number.readInteger?_toString n
    rw [hempty] at hread
    cases hread
  have hstrip : strip (toString n) = toString n := strip_toString_int n.toInt
  have hword : Sentinel.ofWord? (toString n) = none := Sentinel.ofWord?_toString n.toInt
  rw [validate, hstrip, if_neg hne, if_pos (by rw [hkind]; rfl), validateNumeric, hword]
  dsimp only
  rw [readNumber, if_pos hkind, Number.readInteger?_toString]

/-- **Which integers an integer field takes.** Those whose nearest number is within its bounds. That
decides as the integer itself would unless the nearest number is one of the bounds and the integer
is not, and so it does for every integer up to `2 ^ 53`. -/
theorem validate_integer {f : Field} (hkind : f.kind = .integer)
    (hbounds : ∀ side b, f.bound side = some b → b.value.isFinite = true) (n : Int64) :
    let nearest := Binary64.ofInt n.toInt
    nearest.isFinite = true ∧ (∀ y : Binary64, |nearest.toRat - n.toInt| ≤ |y.toRat - n.toInt|) ∧
    (f.validate (toString n) = .ok () ↔ f.Encloses nearest.toRat) ∧
    ((∀ side b, f.bound side = some b → b.value.toRat = nearest.toRat →
        b.value.toRat = n.toInt) →
      (f.validate (toString n) = .ok () ↔ f.Encloses n.toInt)) ∧
    (n.toInt.natAbs ≤ 2 ^ 53 → (f.validate (toString n) = .ok () ↔ f.Encloses n.toInt)) := by
  intro nearest
  have hfinite : nearest.isFinite = true := Binary64.isFinite_ofInt n
  have hvalid : f.validate (toString n) = .ok () ↔ f.Encloses nearest.toRat := by
    rw [validate_toString hkind, checkBounds_eq_ok_iff]
    exact forall₃_congr fun side b hb => Bound.admits_iff (hbounds side b hb) hfinite side
  refine ⟨hfinite, Binary64.abs_ofInt_sub_le hfinite, hvalid, fun hnone => ?_, fun hsmall => ?_⟩
  · rw [hvalid]
    exact forall₃_congr fun side b hb => Bound.allows_ofInt_iff hfinite (hnone side b hb) side
  · rw [hvalid, Binary64.toRat_ofInt_of_natAbs_le hsmall]

/-- An integer field with a maximum and no minimum. -/
def integerUpTo (b : Bound) : Field := { id := ⟨.numeric, 1⟩, kind := .integer, maximum := some b }

theorem forall_bound_integerUpTo {b : Bound} {P : Side → Bound → Prop} :
    (∀ side c, (integerUpTo b).bound side = some c → P side c) ↔ P .maximum b := by
  constructor
  · intro hall
    exact hall .maximum b rfl
  · intro hmaximum side c hc
    cases side with
    | minimum => cases hc
    | maximum =>
      cases hc
      exact hmaximum

/-- The maximum `2 ^ 53` includes what is nearest to it, one more. -/
theorem integer_above_maximum_taken :
    let f := integerUpTo ⟨⟨0x4340000000000000⟩, true⟩
    let n : Int64 := 9007199254740993
    f.kind = .integer ∧ (∀ side b, f.bound side = some b → b.value.isFinite = true) ∧
      f.validate (toString n) = .ok () ∧ ¬f.Encloses n.toInt := by
  intro f n
  have hfinite : ∀ side b, f.bound side = some b → b.value.isFinite = true :=
    forall_bound_integerUpTo.mpr (by decide)
  have hrounded : Binary64.ofInt n.toInt = ⟨0x4340000000000000⟩ := by decide +kernel
  refine ⟨rfl, hfinite, (validate_integer rfl hfinite n).2.2.1.mpr ?_, fun hencloses => ?_⟩
  · rw [hrounded]
    exact forall_bound_integerUpTo.mpr le_rfl
  · have hle : (n.toInt : ℚ) ≤ Binary64.toRat ⟨0x4340000000000000⟩ :=
      forall_bound_integerUpTo.mp hencloses
    rw [Binary64.toRat_of_not_negative (by decide), Binary64.size,
      show Binary64.scale ⟨0x4340000000000000⟩ = 1 by decide +kernel,
      show Binary64.significand ⟨0x4340000000000000⟩ = 2 ^ 52 by decide +kernel,
      show n.toInt = 9007199254740993 by decide] at hle
    norm_num at hle

/-- The largest integer is below the maximum `2 ^ 63`, which it may not reach, but nearest to it. -/
theorem largest_integer_refused :
    let f := integerUpTo ⟨⟨0x43E0000000000000⟩, false⟩
    f.Encloses Int64.maxValue.toInt ∧ f.validate (toString Int64.maxValue) ≠ .ok () ∧
      ¬∀ f : Field, f.kind = .integer →
        (∀ side b, f.bound side = some b → b.value.isFinite = true) →
        ∀ n : Int64, (f.validate (toString n) = .ok () ↔ f.Encloses n.toInt) := by
  intro f
  have hencloses : f.Encloses Int64.maxValue.toInt := by
    refine forall_bound_integerUpTo.mpr ?_
    show (Int64.maxValue.toInt : ℚ) < Binary64.toRat ⟨0x43E0000000000000⟩
    rw [Binary64.toRat_of_not_negative (by decide), Binary64.size,
      show Binary64.scale ⟨0x43E0000000000000⟩ = 11 by decide +kernel,
      show Binary64.significand ⟨0x43E0000000000000⟩ = 2 ^ 52 by decide +kernel,
      show Int64.maxValue.toInt = 9223372036854775807 by decide]
    norm_num
  have hrefused : f.validate (toString Int64.maxValue) ≠ .ok () := by
    rw [validate_toString rfl]
    decide +kernel
  refine ⟨hencloses, hrefused, fun hall => hrefused ?_⟩
  exact (hall f rfl (forall_bound_integerUpTo.mpr (by decide)) Int64.maxValue).mpr hencloses

end Field

end DataDictionary
