import DataDictionary.Field.Id
import DataDictionary.Proofs.Decimals
import DataDictionary.Proofs.Trimming
import Mathlib.Data.Nat.Digits.Defs

/-!
# Field identifiers as texts

A field marker is the letter of a track and a numeral of a 32-bit number, with blanks around the
whole. Leading zeros are allowed, so one identifier has many markers (`FieldId.Spells`); the one it
is written as is the one without needless zeros. Reading accepts every marker and nothing else
(`FieldId.markers_exact`), and what is written for an identifier is read as that identifier.

Reading alone tells a field from the name of an object, so a letter and a number that is too large
for an identifier name an object.
-/

namespace DataDictionary

namespace Text

/-! ## Numerals by place -/

/-- What the digits of a numeral are worth, the units first. -/
def placeValues (ds : List Char) : List Nat := ds.reverse.map digitValue

theorem numeral_eq_ofDigits (ds : List Char) : numeral ds = Nat.ofDigits 10 (placeValues ds) := by
  induction ds using List.reverseRecOn with
  | nil => rfl
  | append_singleton ds d ih =>
    have hplaces : placeValues (ds ++ [d]) = digitValue d :: placeValues ds := by
      rw [placeValues, List.reverse_concat, List.map_cons, placeValues]
    rw [hplaces, Nat.ofDigits_cons, numeral_concat, ih, Nat.add_comm]

theorem readNat?_eq_some_iff {ds : List Char} {n : Nat} :
    readNat? ds = some n ↔ (ds ≠ [] ∧ ∀ d ∈ ds, d.isDigit = true) ∧ numeral ds = n := by
  rw [readNat?, Option.ite_none_right_eq_some, List.all_eq_true, Option.some.injEq]

theorem digitOf_digitValue {c : Char} (h : c.isDigit = true) : digitOf (digitValue c) = c := by
  rw [digitOf, digitValue, Nat.add_sub_cancel' (toNat_of_isDigit h).1, Char.ofNat_toNat]

/-- The places of a numeral that stands for a number other than zero, and has no needless zero in
front, are those of the number. -/
theorem IsWhole.eq_of_pos {ds : List Char} (h : IsWhole ds) (hpos : 0 < numeral ds) :
    ds = ((Nat.digits 10 (numeral ds)).map digitOf).reverse := by
  rcases h with rfl | ⟨⟨c, cs, rfl, hzero⟩, hdigit⟩
  · exact absurd hpos (by decide)
  · have hsmall : ∀ n ∈ placeValues (c :: cs), n < 10 := by
      intro n hn
      obtain ⟨d, hd, rfl⟩ := List.mem_map.mp hn
      exact Nat.lt_succ_of_le (digitValue_le (hdigit d (List.mem_reverse.mp hd)))
    have hlast : ∀ hne : placeValues (c :: cs) ≠ [], (placeValues (c :: cs)).getLast hne ≠ 0 := by
      intro hne
      simp only [placeValues, List.getLast_map, List.getLast_reverse, List.head_cons]
      exact (digitValue_pos (hdigit c List.mem_cons_self) hzero).ne'
    have hback : (placeValues (c :: cs)).map digitOf = (c :: cs).reverse := by
      rw [placeValues, List.map_map]
      exact (List.map_congr_left fun d hd =>
        digitOf_digitValue (hdigit d (List.mem_reverse.mp hd))).trans (List.map_id _)
    rw [numeral_eq_ofDigits, Nat.digits_ofDigits 10 (by decide) _ hsmall hlast, hback,
      List.reverse_reverse]

/-- **A numeral without a needless zero in front is the one that is written for its number.** -/
theorem digits_numeral {ds : List Char} (h : IsWhole ds) : digits (numeral ds) = ds := by
  rcases Nat.eq_zero_or_pos (numeral ds) with hzero | hpos
  · rcases h with rfl | ⟨⟨c, cs, rfl, hc⟩, hdigit⟩
    · decide
    · exact absurd hzero (numeral_pos (hdigit c List.mem_cons_self) hc cs).ne'
  · -- both have the places of the one number
    have hsame := numeral_digits (numeral ds)
    calc digits (numeral ds)
      _ = ((Nat.digits 10 (numeral (digits (numeral ds)))).map digitOf).reverse :=
        (isWhole_digits _).eq_of_pos (hsame.symm ▸ hpos)
      _ = ((Nat.digits 10 (numeral ds)).map digitOf).reverse := by rw [hsame]
      _ = ds := (h.eq_of_pos hpos).symm

theorem isWhole_iff {ds : List Char} (hne : ds ≠ []) (hdigit : ∀ d ∈ ds, d.isDigit = true) :
    IsWhole ds ↔ (ds.head? = some '0' → ds = ['0']) := by
  obtain ⟨c, cs, rfl⟩ := List.exists_cons_of_ne_nil hne
  rw [List.head?_cons, Option.some.injEq]
  constructor
  · rintro (h | ⟨⟨d, ds, heq, hd⟩, -⟩) rfl
    · exact h
    · exact absurd (List.cons.inj heq).1.symm hd
  · intro h
    by_cases hc : c = '0'
    · exact .inl (h hc)
    · exact .inr ⟨⟨c, cs, rfl, hc⟩, hdigit⟩

end Text

open Text

namespace FieldId

/-- A marker of the `number`-th field of a track: its letter and digits that make up the number,
with blanks around the whole. -/
structure Spells (s : String) (track : Track) (number : Nat) (ds : List Char) : Prop where
  trim_eq : trim s.toList = track.letter :: ds
  ne_nil : ds ≠ []
  isDigit : ∀ d ∈ ds, d.isDigit = true
  number_eq : Nat.ofDigits 10 (placeValues ds) = number

variable {s : String} {id : FieldId} {track : Track} {number : Nat} {ds : List Char}

theorem Spells.readNat? (h : Spells s track number ds) : Text.readNat? ds = some number :=
  readNat?_eq_some_iff.mpr ⟨⟨h.ne_nil, h.isDigit⟩, (numeral_eq_ofDigits ds).trans h.number_eq⟩

/-- **Every marker of a number that fits is read.** -/
theorem Spells.parse? (h : Spells s track number ds) (hfits : number < UInt32.size) :
    FieldId.parse? s = some ⟨track, UInt32.ofNat number⟩ := by
  have hnumber : (Text.readNat? ds).filter (· < UInt32.size) = some number := by
    rw [h.readNat?]
    exact Option.filter_some_pos (decide_eq_true hfits)
  simp only [FieldId.parse?, h.trim_eq, Track.ofLetter?_letter, hnumber, Option.bind_eq_bind,
    Option.bind_some]

/-- **Nothing else is read.** -/
theorem spells_of_parse? (h : parse? s = some id) : ∃ ds, Spells s id.track id.number.toNat ds := by
  unfold parse? at h
  split at h
  · cases h
  · next c ds htrim =>
    simp only [Option.bind_eq_bind, Option.bind_eq_some_iff, Option.filter_eq_some_iff,
      decide_eq_true_eq, Option.some.injEq] at h
    obtain ⟨track, hletter, number, ⟨hread, hfits⟩, rfl⟩ := h
    obtain ⟨⟨hne, hdigit⟩, hnumber⟩ := readNat?_eq_some_iff.mp hread
    refine ⟨ds, ?_, hne, hdigit, ?_⟩
    · rw [htrim, Track.letter_of_ofLetter? hletter]
    · rw [← numeral_eq_ofDigits, hnumber]
      exact (UInt32.toNat_ofNat_of_lt' hfits).symm

/-- What is written for an identifier is a marker of it. -/
theorem spells_render (id : FieldId) :
    Spells id.render id.track id.number.toNat (digits id.number.toNat) where
  trim_eq := by
    have hblank : ∀ c ∈ id.track.letter :: digits id.number.toNat, isBlank c = false := by
      intro c hc
      rcases List.mem_cons.mp hc with rfl | hc
      · cases id.track <;> decide
      · exact isBlank_of_isDigit (isDigit_of_mem_digits hc)
    rw [render, String.toList_ofList, trim_eq_self hblank]
  ne_nil := (isWhole_digits _).ne_nil
  isDigit := fun _ => isDigit_of_mem_digits
  number_eq := by rw [← numeral_eq_ofDigits, numeral_digits]

/-- An identifier is written as its marker exactly if the marker has no needless zeros. -/
theorem Spells.render_eq_iff (h : Spells s id.track id.number.toNat ds) :
    id.render = strip s ↔ (ds.head? = some '0' → ds = ['0']) := by
  have hnumber : numeral ds = id.number.toNat := (numeral_eq_ofDigits ds).trans h.number_eq
  rw [← isWhole_iff h.ne_nil h.isDigit, render, strip, h.trim_eq, String.ofList_inj,
    List.cons_inj_right, ← hnumber]
  exact ⟨fun heq => heq ▸ isWhole_digits _, digits_numeral⟩

/-- **Field markers.** A text is read as an identifier exactly if it is the letter of a track and
one or more digits, blanks around it aside, and the number fits into 32 bits; it is then that track
and that number. What is written for an identifier is read as that identifier, and it is the text
that was read, blanks aside, exactly if the digits there do not begin with a needless zero. -/
theorem markers_exact (s : String) :
    ((parse? s).isSome ↔ ∃ track number ds, Spells s track number ds ∧ number < UInt32.size) ∧
    (∀ id, parse? s = some id ↔ ∃ ds, Spells s id.track id.number.toNat ds) ∧
    (∀ id, parse? (render id) = some id) ∧
    ∀ id ds, parse? s = some id → trim s.toList = id.track.letter :: ds →
      (id.render = strip s ↔ (ds.head? = some '0' → ds = ['0'])) := by
  have hread : ∀ {s id ds}, Spells s id.track id.number.toNat ds → parse? s = some id := by
    intro s id ds h
    rw [h.parse? id.number.toNat_lt, UInt32.ofNat_toNat]
  refine ⟨⟨fun h => ?_, fun ⟨track, number, ds, h, hfits⟩ => ?_⟩, fun id => ?_,
    fun id => hread (spells_render id), fun id ds hid htrim => ?_⟩
  · obtain ⟨id, hid⟩ := Option.isSome_iff_exists.mp h
    obtain ⟨ds, hds⟩ := spells_of_parse? hid
    exact ⟨id.track, id.number.toNat, ds, hds, id.number.toNat_lt⟩
  · rw [h.parse? hfits]
    rfl
  · exact ⟨spells_of_parse?, fun ⟨ds, h⟩ => hread h⟩
  · -- the digits are what stands behind the letter
    obtain ⟨ds', h⟩ := spells_of_parse? hid
    obtain rfl : ds' = ds := (List.cons.inj (h.trim_eq.symm.trans htrim)).2
    exact h.render_eq_iff

/-- A needless zero is not written again. -/
theorem needless_zero_lost :
    parse? " N012 " = some ⟨.numeric, 12⟩ ∧ trim " N012 ".toList = ['N', '0', '1', '2'] ∧
      render ⟨.numeric, 12⟩ ≠ strip " N012 " := by
  have hread : parse? " N012 " = some ⟨.numeric, 12⟩ := by decide +kernel
  have htrim : trim " N012 ".toList = ['N', '0', '1', '2'] := by decide +kernel
  refine ⟨hread, htrim, fun heq => ?_⟩
  have hzeros := ((markers_exact " N012 ").2.2.2 _ ['0', '1', '2'] hread htrim).mp heq
  exact absurd (hzeros rfl) (by decide)

end FieldId

end DataDictionary
