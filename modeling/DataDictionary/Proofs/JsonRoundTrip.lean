import DataDictionary.Json.Schema
import DataDictionary.Proofs.JsonText

/-!
# Dictionaries survive their JSON form

What is written as JSON is read back as it was: every record has its keys in the order of its
values, none of them twice, and every reader inverts the writer of its part. Two things are not
taken for granted. Counts and positions must be below the limit that is put on them when they are
read; and the reader of floating-point numbers, which is quick rather than exact, must get the
bounds right (`Keeps`).

The index of names is not written. It follows from the objects, so it comes back with them.
-/

namespace DataDictionary

namespace Json

/-! ## Records -/

theorem filter_of_not_mem {members : List (Option String × Json)} {key : String}
    (h : some key ∉ members.map (·.1)) : members.filter (·.1 == some key) = [] := by
  refine List.filter_eq_nil_iff.mpr fun m hm heq => h ?_
  exact List.mem_map.mpr ⟨m, hm, by simpa using heq⟩

theorem valueOf?_cons_self {members : List (Option String × Json)} {key : String}
    (h : some key ∉ members.map (·.1)) (value : Json) :
    valueOf? ((some key, value) :: members) key = some (some value) := by
  rw [valueOf?, List.filter_cons_of_pos (by simp), filter_of_not_mem h]

theorem valueOf?_cons_of_ne {key other : String} (h : other ≠ key) (value : Json)
    (members : List (Option String × Json)) :
    valueOf? ((some other, value) :: members) key = valueOf? members key := by
  rw [valueOf?, List.filter_cons_of_neg (by simpa using h), ← valueOf?]

theorem mapM_congr {α β : Type} {f g : α → Option β} {as : List α} (h : ∀ a ∈ as, f a = g a) :
    as.mapM f = as.mapM g := by
  induction as with
  | nil => rfl
  | cons a as ih =>
    rw [List.mapM_cons, List.mapM_cons, h a List.mem_cons_self,
      ih fun b hb => h b (List.mem_cons_of_mem _ hb)]

theorem mapM_valueOf?_zip {keys : List String} {values : List Json} (hnodup : keys.Nodup)
    (hlength : values.length = keys.length) :
    keys.mapM (valueOf? ((keys.map some).zip values)) = some (values.map some) := by
  induction keys generalizing values with
  | nil =>
    rw [List.length_eq_zero_iff.mp hlength]
    rfl
  | cons key keys ih =>
    obtain ⟨value, values, rfl⟩ := List.exists_cons_of_length_eq_add_one hlength
    obtain ⟨hkey, hnodup⟩ := List.nodup_cons.mp hnodup
    have hlength : values.length = keys.length := Nat.succ.inj hlength
    have hfresh : some key ∉ ((keys.map some).zip values).map (·.1) := by
      rw [List.map_fst_zip (by simp [hlength])]
      simpa using hkey
    -- the keys behind the first one are looked up among the members behind the first one
    have hrest : keys.mapM (valueOf? ((some key, value) :: (keys.map some).zip values)) =
        some (values.map some) := by
      rw [← ih hnodup hlength]
      refine mapM_congr fun other hother => valueOf?_cons_of_ne ?_ value _
      rintro rfl
      exact hkey hother
    rw [List.map_cons, List.zip_cons_cons, List.mapM_cons, valueOf?_cons_self hfresh]
    simp only [Option.bind_eq_bind, Option.bind_some]
    rw [hrest]
    rfl

/-- **The values of a record are found under their keys.** -/
theorem values?_record {keys : List String} {values : List Json} (hnodup : keys.Nodup)
    (hlength : values.length = keys.length) :
    values? keys (record keys values) = some (values.map some) := by
  have hkeys : ((keys.map some).zip values).all (·.1.isSome) = true := by
    refine List.all_eq_true.mpr fun m hm => ?_
    obtain ⟨key, -, hkey⟩ := List.mem_map.mp (List.of_mem_zip hm).1
    rw [← hkey]
    rfl
  rw [record, values?, if_pos hkeys, mapM_valueOf?_zip hnodup hlength]

/-! ## Parts of a record -/

variable {α : Type} {read? : Json → Option α} {toJson : α → Json}

theorem readOptional?_optional {o : Option α} (hnull : read? null = none)
    (h : ∀ a ∈ o, read? (toJson a) = some a) :
    readOptional? read? (some (optional toJson o)) = some o := by
  cases o with
  | none => rfl
  | some a =>
    have hread := h a rfl
    show readOptional? read? (some (toJson a)) = _
    unfold readOptional?
    split
    · next heq => cases heq
    · next heq =>
      -- nothing is written as null that is not read from it
      rw [Option.some.inj heq, hnull] at hread
      cases hread
    · next j _ heq =>
      cases heq
      rw [hread]
      rfl

theorem readList?_list {as : List α} (h : ∀ a ∈ as, read? (toJson a) = some a) :
    readList? read? (list toJson as) = some as := by
  show (as.map toJson).mapM read? = some as
  induction as with
  | nil => rfl
  | cons a as ih =>
    rw [List.map_cons, List.mapM_cons, h a List.mem_cons_self,
      ih fun b hb => h b (List.mem_cons_of_mem _ hb)]
    rfl

theorem readNatBelow?_nat {limit n : Nat} (h : n < limit) :
    readNatBelow? limit (nat n) = some n := by
  show (some (Text.numeral (Text.digits n))).filter (· < limit) = some n
  rw [Text.numeral_digits]
  exact Option.filter_some_pos (by simpa using h)

theorem readRequired?_text (s : String) : readRequired? readText? (some (text s)) = some s := rfl

theorem readRequired?_texts (texts : List String) :
    readRequired? (readList? readText?) (some (list text texts)) = some texts :=
  readList?_list fun _ _ => rfl

theorem readOptional?_text (s : Option String) :
    readOptional? readText? (some (optional text s)) = some s :=
  readOptional?_optional rfl fun _ _ => rfl

theorem readOptional?_count {n : Option Nat} (h : ∀ k ∈ n, k < Number.countLimit) :
    readOptional? readCountJson? (some (optional nat n)) = some n :=
  readOptional?_optional rfl fun k hk => readNatBelow?_nat (h k hk)

/-! ## What has a text form -/

theorem regular_nat (n : Nat) : (nat n).Regular :=
  .number ⟨Text.isWhole_digits n, fun _ h => nomatch h⟩

theorem regular_ofBinary64 (x : Binary64) : (ofBinary64 x).Regular := by
  unfold ofBinary64
  split
  · exact .number (Number.isProper_numeral (fun c h => by rw [List.mem_singleton.mp h]; rfl) x)
  · exact .null

theorem regular_record {keys : List String} {values : List Json}
    (h : ∀ j ∈ values, j.Regular) : (record keys values).Regular := by
  refine .object (fun m hm => ?_) fun m hm => h m.2 (List.of_mem_zip hm).2
  obtain ⟨key, -, hkey⟩ := List.mem_map.mp (List.of_mem_zip hm).1
  exact ⟨key, hkey.symm⟩

theorem regular_optional (h : ∀ a, (toJson a).Regular) (o : Option α) :
    (optional toJson o).Regular := by
  cases o with
  | none => exact .null
  | some a => exact h a

theorem regular_list (h : ∀ a, (toJson a).Regular) (as : List α) : (list toJson as).Regular := by
  refine .array fun j hj => ?_
  obtain ⟨a, -, rfl⟩ := List.mem_map.mp hj
  exact h a

/-- Whether the JSON form of a number, written and read, is that number. -/
def Keeps (x : Binary64) : Prop := (parse? (ofBinary64 x).render).bind readBinary64? = some x

theorem Keeps.readBinary64? {x : Binary64} (h : Keeps x) :
    readBinary64? (ofBinary64 x) = some x := by
  rwa [Keeps, parse?_render (regular_ofBinary64 x)] at h

end Json

open Json

/-! ## The parts of a field -/

theorem Track.ofName?_name (t : Track) : Track.ofName? t.name = some t := by
  cases t <;> decide +kernel

theorem Sentinel.ofName?_name (s : Sentinel) : Sentinel.ofName? s.name = some s := by
  cases s <;> decide +kernel

theorem FieldId.ofJson?_toJson (id : FieldId) : FieldId.ofJson? id.toJson = some id := by
  have htrack : readRequired? (readNamed? Track.ofName?) (some (text id.track.name)) =
      some id.track := Track.ofName?_name id.track
  have hnumber : readRequired? (readNatBelow? UInt32.size) (some (nat id.number.toNat)) =
      some id.number.toNat := readNatBelow?_nat id.number.toNat_lt
  unfold FieldId.ofJson? FieldId.toJson
  rw [values?_record (by decide) rfl]
  simp only [List.map_cons, List.map_nil]
  dsimp only [Option.bind_eq_bind, Option.bind_some]
  rw [htrack, hnumber]
  exact congrArg (fun n => some (⟨id.track, n⟩ : FieldId)) UInt32.ofNat_toNat

theorem Bound.ofJson?_toJson {b : Bound} (h : Keeps b.value) : Bound.ofJson? b.toJson = some b := by
  have hvalue : readRequired? readBinary64? (some (ofBinary64 b.value)) = some b.value :=
    h.readBinary64?
  have hinclusive : readRequired? readBool? (some (bool b.inclusive)) = some b.inclusive := rfl
  unfold Bound.ofJson? Bound.toJson
  rw [values?_record (by decide) rfl]
  simp only [List.map_cons, List.map_nil]
  dsimp only [Option.bind_eq_bind, Option.bind_some]
  rw [hvalue, hinclusive]
  rfl

theorem Default.ofJson?_toJson (d : Default) : Default.ofJson? d.toJson = some d := by
  cases d with
  | literal s => rfl
  | sentinel s => cases s <;> rfl

theorem FieldKind.ofJson?_toJson (kind : FieldKind) : FieldKind.ofJson? kind.toJson = some kind :=
  FieldKind.ofName?_name kind

/-! ## Fields, objects and dictionaries -/

/-- The numbers that bound a field. -/
def Field.boundValues (f : Field) : List Binary64 :=
  (f.minimum.toList ++ f.maximum.toList).map (·.value)

theorem Field.ofJson?_toJson {f : Field} (hindex : f.index < Number.countLimit)
    (hbounds : ∀ x ∈ f.boundValues, Keeps x) : Field.ofJson? f.toJson = some f := by
  have hminimum : readOptional? Bound.ofJson? (some (optional Bound.toJson f.minimum)) =
      some f.minimum :=
    readOptional?_optional rfl fun b hb =>
      Bound.ofJson?_toJson (hbounds _ (by simp [boundValues, Option.mem_def.mp hb]))
  have hmaximum : readOptional? Bound.ofJson? (some (optional Bound.toJson f.maximum)) =
      some f.maximum :=
    readOptional?_optional rfl fun b hb =>
      Bound.ofJson?_toJson (hbounds _ (by simp [boundValues, Option.mem_def.mp hb]))
  have hid : readRequired? FieldId.ofJson? (some f.id.toJson) = some f.id :=
    FieldId.ofJson?_toJson f.id
  have hposition : readRequired? readCountJson? (some (nat f.index)) = some f.index :=
    readNatBelow?_nat hindex
  have hkind : readRequired? FieldKind.ofJson? (some f.kind.toJson) = some f.kind :=
    FieldKind.ofJson?_toJson f.kind
  have hdefault : readOptional? Default.ofJson? (some (optional Default.toJson f.default)) =
      some f.default :=
    readOptional?_optional rfl fun d _ => Default.ofJson?_toJson d
  unfold Field.ofJson? Field.toJson
  rw [values?_record (by decide +kernel) rfl]
  simp only [List.map_cons, List.map_nil]
  dsimp only [Option.bind_eq_bind, Option.bind_some]
  rw [hid, hposition, hkind, hminimum, hmaximum, hdefault]
  rw [readRequired?_text f.name, readRequired?_text f.note, readOptional?_text f.units,
    readOptional?_text f.ipUnits, readOptional?_text f.unitsBasedOnField,
    readOptional?_text f.deprecated, readOptional?_text f.externalList, readRequired?_texts f.keys,
    readRequired?_texts f.objectLists, readRequired?_texts f.references,
    readRequired?_texts f.referenceClassNames]
  rfl

/-- What an object and its fields must satisfy to be read back. -/
structure Object.Fits (o : Object) : Prop where
  minFields : ∀ n ∈ o.minFields, n < Number.countLimit
  maxFields : ∀ n ∈ o.maxFields, n < Number.countLimit
  extensible : ∀ n ∈ o.extensible, n < Number.countLimit
  indices : ∀ f ∈ o.fields, f.index < Number.countLimit

theorem Object.ofJson?_toJson {o : Object} (h : o.Fits)
    (hbounds : ∀ f ∈ o.fields, ∀ x ∈ f.boundValues, Keeps x) :
    Object.ofJson? o.toJson = some o := by
  have hfields : readRequired? (readList? Field.ofJson?) (some (list Field.toJson o.fields)) =
      some o.fields :=
    readList?_list fun f hf => Field.ofJson?_toJson (h.indices f hf) (hbounds f hf)
  unfold Object.ofJson? Object.toJson
  rw [values?_record (by decide +kernel) rfl]
  simp only [List.map_cons, List.map_nil]
  dsimp only [Option.bind_eq_bind, Option.bind_some]
  rw [hfields, readOptional?_count h.minFields, readOptional?_count h.maxFields,
    readOptional?_count h.extensible]
  rw [readRequired?_text o.name, readRequired?_text o.memo, readOptional?_text o.group,
    readOptional?_text o.obsolete, readOptional?_text o.format]
  rfl

namespace Dictionary

theorem ofJson?_toJson {d : Dictionary} (h : ∀ o ∈ d.objects, o.Fits)
    (hbounds : ∀ o ∈ d.objects, ∀ f ∈ o.fields, ∀ x ∈ f.boundValues, Keeps x) :
    ofJson? d.toJson = some d := by
  have hobjects : readRequired? (readList? Object.ofJson?) (some (list Object.toJson d.objects)) =
      some d.objects :=
    readList?_list fun o ho => Object.ofJson?_toJson (h o ho) (hbounds o ho)
  unfold ofJson? toJson
  rw [values?_record (by decide +kernel) rfl]
  simp only [List.map_cons, List.map_nil]
  dsimp only [Option.bind_eq_bind, Option.bind_some]
  rw [hobjects, readOptional?_text d.version, readOptional?_text d.build,
    readRequired?_text d.header, readRequired?_texts d.groups]
  -- the index that is made anew is the one that there was
  obtain ⟨version, build, header, groups, objects, index, hindex⟩ := d
  subst hindex
  rfl

end Dictionary

/-! ## Every dictionary has a text form -/

theorem regular_texts (texts : List String) : (list text texts).Regular := regular_list .text texts

theorem regular_text? (s : Option String) : (optional text s).Regular := regular_optional .text s

theorem FieldId.regular_toJson (id : FieldId) : id.toJson.Regular :=
  regular_record (by simp [Regular.text, regular_nat])

theorem Bound.regular_toJson (b : Bound) : b.toJson.Regular :=
  regular_record (by simp [regular_ofBinary64, Regular.bool])

theorem Default.regular_toJson (d : Default) : d.toJson.Regular := by
  cases d with
  | literal s => exact .object (by simp) (by simp [Regular.text])
  | sentinel s => exact .text s.name

theorem Field.regular_toJson (f : Field) : f.toJson.Regular :=
  regular_record (by
    simp [Regular.text, Regular.bool, regular_nat, regular_texts, regular_text?, FieldKind.toJson,
      f.id.regular_toJson, regular_optional Bound.regular_toJson,
      regular_optional Default.regular_toJson])

theorem Object.regular_toJson (o : Object) : o.toJson.Regular :=
  regular_record (by
    simp [Regular.text, Regular.bool, regular_text?, regular_optional regular_nat,
      regular_list Field.regular_toJson])

namespace Dictionary

theorem regular_toJson (d : Dictionary) : d.toJson.Regular :=
  regular_record (by
    simp [Regular.text, regular_texts, regular_text?, regular_list Object.regular_toJson])

/-- **A dictionary is read back from its JSON text**, field by field and with its index of names,
provided that its counts are below the limit, its bounds are finite, and the number format keeps
those among the bounds that are. -/
theorem parseJson?_renderJson {d : Dictionary} (hcounts : ∀ o ∈ d.objects, o.Fits)
    (hfinite : ∀ o ∈ d.objects, ∀ f ∈ o.fields, ∀ x ∈ f.boundValues, x.isFinite = true)
    (hformat : ∀ o ∈ d.objects, ∀ f ∈ o.fields, ∀ x ∈ f.boundValues,
      x.isFinite = true → Keeps x) :
    parseJson? d.renderJson = some d := by
  have hkeeps : ∀ o ∈ d.objects, ∀ f ∈ o.fields, ∀ x ∈ f.boundValues, Keeps x :=
    fun o ho f hf x hx => hformat o ho f hf x hx (hfinite o ho f hf x hx)
  rw [parseJson?, renderJson, parse?_render d.regular_toJson]
  exact ofJson?_toJson hcounts hkeeps

/-- A dictionary with awkward texts and with numbers at their limits. The bounds of its field are
-273.15 and the least number above zero. -/
def awkwardZone : Dictionary where
  version := some "1.2"
  build := none
  header := "!\x00\x1f\r\n"
  groups := ["\"\\/\t", "\u2028 é"]
  objects := [
    { name := "Zone"
      group := some "\"\\/\t"
      extensible := some 18446744073709551615
      fields := [
        { id := ⟨.numeric, 4294967295⟩
          index := 18446744073709551615
          minimum := some ⟨⟨0xC071126666666666⟩, true⟩
          maximum := some ⟨⟨1⟩, false⟩
          default := some (.sentinel .autosize)
          keys := ["", "\x7f"] }] }]

instance (x : Binary64) : Decidable (Keeps x) := inferInstanceAs (Decidable (_ = _))

theorem awkwardZone_survives : parseJson? awkwardZone.renderJson = some awkwardZone := by
  have hcounts : ∀ o ∈ awkwardZone.objects, o.Fits := by
    intro o ho
    cases List.mem_singleton.mp ho
    exact ⟨by decide, by decide, by decide, by decide⟩
  exact parseJson?_renderJson hcounts (by decide +kernel) (by decide +kernel)

end Dictionary

end DataDictionary
