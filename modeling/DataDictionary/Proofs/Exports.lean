import DataDictionary.Proofs.JsonNumbers
import DataDictionary.Proofs.JsonRoundTrip
import DataDictionary.Proofs.SchemaRules

/-!
# What can be exported and read back

The JSON form of a dictionary is accepted when it is read if and only if its counts are below the
limit and its bounds are finite (`Dictionary.isSome_parseJson?_renderJson`). Each reader is compared
with its writer once more, this time only by whether it accepts: a record is accepted when all of
its values are, and a list when all of its items are.

Counts are no obstacle to a dictionary that was read from a text, since every count in it was below
the limit when it was read (`Source.countsFit`). Bounds are one. A text may set a bound to an
infinity, or to what is not a number, and nothing is found wrong with that; written as null, the
bound is then refused (`Outcome.infiniteZone_lost`).
-/

namespace DataDictionary

open Json

/-! ## Readers that accept -/

theorem isSome_bind_iff {α β : Type} {o : Option α} {f : α → Option β} {p : Prop}
    (h : ∀ a, (f a).isSome = true ↔ p) : (o.bind f).isSome = true ↔ o.isSome = true ∧ p := by
  cases o with
  | none => simp
  | some a => simpa using h a

namespace Json

variable {α : Type} {read? : Json → Option α} {toJson : α → Json}

theorem readRequired?_bool (b : Bool) : readRequired? readBool? (some (bool b)) = some b := rfl

theorem isSome_readNatBelow?_nat {limit n : Nat} :
    (readNatBelow? limit (nat n)).isSome = true ↔ n < limit := by
  show ((some (Text.numeral (Text.digits n))).filter (· < limit)).isSome = true ↔ n < limit
  rw [Text.numeral_digits, Option.isSome_filter]
  simp

theorem isSome_readOptional?_optional (hnull : ∀ a, toJson a ≠ null) (o : Option α) :
    (readOptional? read? (some (optional toJson o))).isSome = true ↔
      ∀ a ∈ o, (read? (toJson a)).isSome = true := by
  cases o with
  | none => simp [optional, readOptional?]
  | some a =>
    show (readOptional? read? (some (toJson a))).isSome = true ↔ _
    unfold readOptional?
    split
    · next heq => cases heq
    · next heq => exact absurd (Option.some.inj heq) (hnull a)
    · next j _ heq =>
      cases heq
      simp

theorem isSome_readList?_list (as : List α) :
    (readList? read? (list toJson as)).isSome = true ↔
      ∀ a ∈ as, (read? (toJson a)).isSome = true := by
  show ((as.map toJson).mapM read?).isSome = true ↔ _
  induction as with
  | nil => simp
  | cons a as ih =>
    rw [List.map_cons, List.mapM_cons, List.forall_mem_cons, ← ih]
    exact isSome_bind_iff fun b => by cases (as.map toJson).mapM read? <;> simp

end Json

theorem Bound.isSome_ofJson?_toJson (b : Bound) :
    (Bound.ofJson? b.toJson).isSome = b.value.isFinite := by
  unfold Bound.ofJson? Bound.toJson
  rw [values?_record (by decide) rfl]
  simp only [List.map_cons, List.map_nil]
  dsimp only [Option.bind_eq_bind, Option.bind_some]
  rw [readRequired?_bool, readRequired?, ← isSome_readBinary64?_ofBinary64]
  cases readBinary64? (ofBinary64 b.value) <;> rfl

theorem Field.isSome_ofJson?_toJson (f : Field) :
    (Field.ofJson? f.toJson).isSome = true ↔
      f.index < Number.countLimit ∧ ∀ x ∈ f.boundValues, x.isFinite = true := by
  have hbound : ∀ b : Option Bound,
      (readOptional? Bound.ofJson? (some (optional Bound.toJson b))).isSome = true ↔
        ∀ x ∈ b.toList.map (·.value), x.isFinite = true := by
    intro b
    rw [isSome_readOptional?_optional (fun _ h => by cases h)]
    simp [Bound.isSome_ofJson?_toJson]
  have hid : readRequired? FieldId.ofJson? (some f.id.toJson) = some f.id :=
    FieldId.ofJson?_toJson f.id
  have hkind : readRequired? FieldKind.ofJson? (some f.kind.toJson) = some f.kind :=
    FieldKind.ofJson?_toJson f.kind
  have hdefault : readOptional? Default.ofJson? (some (optional Default.toJson f.default)) =
      some f.default :=
    readOptional?_optional rfl fun d _ => Default.ofJson?_toJson d
  unfold Field.ofJson? Field.toJson
  rw [values?_record (by decide +kernel) rfl]
  simp only [List.map_cons, List.map_nil]
  dsimp only [Option.bind_eq_bind, Option.bind_some]
  rw [hid, hkind, hdefault]
  rw [readRequired?_text f.name, readRequired?_text f.note, readOptional?_text f.units,
    readOptional?_text f.ipUnits, readOptional?_text f.unitsBasedOnField,
    readOptional?_text f.deprecated, readOptional?_text f.externalList, readRequired?_texts f.keys,
    readRequired?_texts f.objectLists, readRequired?_texts f.references,
    readRequired?_texts f.referenceClassNames]
  -- what is left to be read are the position and the bounds
  show ((readRequired? readCountJson? (some (nat f.index))).bind fun index =>
    (readOptional? Bound.ofJson? (some (optional Bound.toJson f.minimum))).bind fun minimum =>
    (readOptional? Bound.ofJson? (some (optional Bound.toJson f.maximum))).bind fun maximum =>
    some { f with index, minimum, maximum }).isSome = true ↔ _
  have hparts : f.index < Number.countLimit ∧ (∀ x ∈ f.boundValues, x.isFinite = true) ↔
      (readRequired? readCountJson? (some (nat f.index))).isSome = true ∧
      (readOptional? Bound.ofJson? (some (optional Bound.toJson f.minimum))).isSome = true ∧
      (readOptional? Bound.ofJson? (some (optional Bound.toJson f.maximum))).isSome = true ∧
      True := by
    rw [hbound, hbound, and_true, boundValues, List.map_append, List.forall_mem_append]
    exact and_congr_left' isSome_readNatBelow?_nat.symm
  rw [hparts]
  refine isSome_bind_iff fun _ => isSome_bind_iff fun _ => isSome_bind_iff fun _ => ?_
  exact iff_of_true rfl trivial

theorem Object.isSome_ofJson?_toJson (o : Object) :
    (Object.ofJson? o.toJson).isSome = true ↔
      o.Fits ∧ ∀ f ∈ o.fields, ∀ x ∈ f.boundValues, x.isFinite = true := by
  have hcount : ∀ n : Option Nat,
      (readOptional? readCountJson? (some (optional nat n))).isSome = true ↔
        ∀ k ∈ n, k < Number.countLimit := by
    intro n
    rw [isSome_readOptional?_optional (fun _ h => by cases h)]
    exact forall₂_congr fun k _ => isSome_readNatBelow?_nat
  unfold Object.ofJson? Object.toJson
  rw [values?_record (by decide +kernel) rfl]
  simp only [List.map_cons, List.map_nil]
  dsimp only [Option.bind_eq_bind, Option.bind_some]
  rw [readRequired?_text o.name, readRequired?_text o.memo, readOptional?_text o.group,
    readOptional?_text o.obsolete, readOptional?_text o.format]
  -- what is left to be read are the counts and the fields
  show ((readOptional? readCountJson? (some (optional nat o.minFields))).bind fun minFields =>
    (readOptional? readCountJson? (some (optional nat o.maxFields))).bind fun maxFields =>
    (readOptional? readCountJson? (some (optional nat o.extensible))).bind fun extensible =>
    (readRequired? (readList? Field.ofJson?) (some (list Field.toJson o.fields))).bind fun fields =>
    some { o with minFields, maxFields, extensible, fields }).isSome = true ↔ _
  have hparts : (o.Fits ∧ ∀ f ∈ o.fields, ∀ x ∈ f.boundValues, x.isFinite = true) ↔
      (readOptional? readCountJson? (some (optional nat o.minFields))).isSome = true ∧
      (readOptional? readCountJson? (some (optional nat o.maxFields))).isSome = true ∧
      (readOptional? readCountJson? (some (optional nat o.extensible))).isSome = true ∧
      (readRequired? (readList? Field.ofJson?) (some (list Field.toJson o.fields))).isSome =
        true ∧ True := by
    rw [hcount, hcount, hcount, readRequired?, isSome_readList?_list, and_true]
    simp only [Field.isSome_ofJson?_toJson]
    constructor
    · rintro ⟨⟨hmin, hmax, hextensible, hindices⟩, hbounds⟩
      exact ⟨hmin, hmax, hextensible, fun f hf => ⟨hindices f hf, hbounds f hf⟩⟩
    · rintro ⟨hmin, hmax, hextensible, hfields⟩
      exact ⟨⟨hmin, hmax, hextensible, fun f hf => (hfields f hf).1⟩,
        fun f hf => (hfields f hf).2⟩
  rw [hparts]
  refine isSome_bind_iff fun _ => isSome_bind_iff fun _ => isSome_bind_iff fun _ =>
    isSome_bind_iff fun _ => ?_
  exact iff_of_true rfl trivial

/-- **Which dictionaries are accepted when they are read from their JSON form.** -/
theorem Dictionary.isSome_parseJson?_renderJson (d : Dictionary) :
    (parseJson? d.renderJson).isSome = true ↔
      ∀ o ∈ d.objects, o.Fits ∧ ∀ f ∈ o.fields, ∀ x ∈ f.boundValues, x.isFinite = true := by
  rw [parseJson?, renderJson, parse?_render d.regular_toJson, Option.bind_some]
  unfold ofJson? toJson
  rw [values?_record (by decide +kernel) rfl]
  simp only [List.map_cons, List.map_nil]
  dsimp only [Option.bind_eq_bind, Option.bind_some]
  rw [readOptional?_text d.version, readOptional?_text d.build, readRequired?_text d.header,
    readRequired?_texts d.groups]
  have hobjects : (∀ o ∈ d.objects, o.Fits ∧ ∀ f ∈ o.fields, ∀ x ∈ f.boundValues,
      x.isFinite = true) ↔
      (readRequired? (readList? Object.ofJson?) (some (list Object.toJson d.objects))).isSome =
        true ∧ True := by
    rw [readRequired?, isSome_readList?_list, and_true]
    simp only [Object.isSome_ofJson?_toJson]
  rw [hobjects]
  show ((readRequired? (readList? Object.ofJson?) (some (list Object.toJson d.objects))).bind
    fun objects => some _).isSome = true ↔ _
  refine isSome_bind_iff fun _ => ?_
  exact iff_of_true rfl trivial

/-! ## Counts that were read -/

/-- Whether the counts of an object are below the limit. -/
structure Object.CountsFit (o : Object) : Prop where
  minFields : ∀ n ∈ o.minFields, n < Number.countLimit
  maxFields : ∀ n ∈ o.maxFields, n < Number.countLimit
  extensible : ∀ n ∈ o.extensible, n < Number.countLimit

/-- An object that is nothing but a name has no counts. -/
theorem Object.countsFit_named (name : String) (group : Option String) :
    CountsFit { name, group } :=
  ⟨fun _ h => (by cases h), fun _ h => (by cases h), fun _ h => (by cases h)⟩

namespace OpenObject

theorem lt_of_readCount {what : CountOf} {text : String} :
    ∀ n ∈ (readCount what text).1, n < Number.countLimit := by
  intro n hn
  rw [readCount_eq] at hn
  exact of_decide_eq_true (Option.filter_eq_some_iff.mp hn).2

theorem CountsFit.finishField {o : OpenObject} (h : o.object.CountsFit) :
    o.finishField.1.object.CountsFit := by
  unfold OpenObject.finishField
  split
  · exact h
  · exact ⟨h.minFields, h.maxFields, h.extensible⟩

/-- No edit brings a count that is too large. -/
theorem CountsFit.edit {t : Token} {o o' : OpenObject} {found : List Finding}
    (h : o.object.CountsFit) (hedit : o.Edit t o' found) : o'.object.CountsFit := by
  cases hedit with
  | close _ _ => exact h
  | openField _ _ _ => exact CountsFit.finishField h
  | @header _ _ _ k _ _ _ _ =>
    cases k with
    | extensible => exact ⟨h.minFields, h.maxFields, lt_of_readCount⟩
    | minFields => exact ⟨lt_of_readCount, h.maxFields, h.extensible⟩
    | maxFields => exact ⟨h.minFields, lt_of_readCount, h.extensible⟩
    | _ => exact ⟨h.minFields, h.maxFields, h.extensible⟩
  | field _ _ _ _ =>
    unfold applyToField
    split <;> exact h

end OpenObject

/-- **Every count of a source is below the limit.** -/
theorem Source.countsFit {text : String} {o : Object} (h : o ∈ (Source.ofText text).objects) :
    o.CountsFit := by
  exact objects_hold (I := fun o => o.object.CountsFit) (Q := Object.CountsFit)
    (fun _ _ _ _ _ _ _ _ _ => Object.countsFit_named _ _)
    (fun _ _ _ _ _ hedit _ hcounts => OpenObject.CountsFit.edit hcounts hedit)
    (fun hcounts _ => OpenObject.CountsFit.finishField hcounts) (fun _ _ => trivial) o h

/-- Once its fields are numbered, an object of small counts fits if its fields can be counted. -/
theorem Object.CountsFit.fits_numbered {o : Object} (h : o.CountsFit) :
    o.numbered.Fits ↔ o.numbered.fields.length ≤ Number.countLimit := by
  constructor
  · intro hfits
    rcases Nat.eq_zero_or_pos o.numbered.fields.length with hzero | hpos
    · rw [hzero]
      exact Nat.zero_le _
    · -- the last field has the largest number
      have hlast : o.numbered.fields.length - 1 < o.numbered.fields.length := by omega
      have hget := List.getElem?_eq_getElem hlast
      obtain ⟨g, -, hg⟩ := getElem?_numberedFields hget
      have hindex := hfits.indices _ (List.getElem_mem hlast)
      rw [hg] at hindex
      dsimp only at hindex
      omega
  · intro hlength
    refine ⟨h.minFields, h.maxFields, h.extensible, fun f hf => ?_⟩
    obtain ⟨i, hi⟩ := List.mem_iff_getElem?.mp hf
    obtain ⟨hlt, -⟩ := List.getElem?_eq_some_iff.mp hi
    obtain ⟨g, -, rfl⟩ := getElem?_numberedFields hi
    exact lt_of_lt_of_le hlt hlength

namespace Outcome

/-- **When a dictionary that was read from a text can be exported and read back.** All that stands
in the way, as long as its fields can be counted, are bounds that are not finite. -/
theorem isSome_parseJson?_renderJson_iff (settings : Settings) (loader : Option Loader)
    (text : String) :
    let d := (ofText settings loader text).dictionary
    (Dictionary.parseJson? d.renderJson).isSome = true ↔
      ∀ o ∈ d.objects, o.fields.length ≤ Number.countLimit ∧
        ∀ f ∈ o.fields, ∀ x ∈ f.boundValues, x.isFinite = true := by
  intro d
  rw [Dictionary.isSome_parseJson?_renderJson]
  refine forall₂_congr fun o ho => and_congr_left' ?_
  rw [objects_ofText] at ho
  obtain ⟨x, hx, rfl⟩ := List.mem_map.mp ho
  refine Object.CountsFit.fits_numbered (forall_definitions (Object.countsFit_named _ _) ?_
    settings loader text x hx)
  exact fun origin o => Source.countsFit

/-- An object whose field is bounded below by infinity. -/
def infiniteZone : String := "Zone,\nN1; \\minimum inf\n"

/-- Nothing is found wrong with that text, and what it is read as is lost in its JSON form. -/
theorem infiniteZone_lost :
    (ofText {} none infiniteZone).diagnostics = [] ∧
    (ofText {} none infiniteZone).dictionary.objects.map (·.name) = ["Zone"] ∧
    Dictionary.parseJson? (ofText {} none infiniteZone).dictionary.renderJson = none := by
  have hinfinite : ¬ ∀ o ∈ (ofText {} none infiniteZone).dictionary.objects, ∀ f ∈ o.fields,
      ∀ x ∈ f.boundValues, x.isFinite = true := by decide +kernel
  refine ⟨by decide +kernel, by decide +kernel, Option.not_isSome_iff_eq_none.mp fun hread => ?_⟩
  rw [Dictionary.isSome_parseJson?_renderJson] at hread
  exact hinfinite fun o ho => (hread o ho).2

end Outcome

end DataDictionary
