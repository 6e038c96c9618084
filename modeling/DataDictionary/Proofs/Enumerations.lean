import DataDictionary.Bindings.Source
import DataDictionary.Outcome
import DataDictionary.Proofs.Identifiers
import Mathlib.Data.List.Pairwise

/-!
# The enumerations that bindings consist of

Bindings are written line by line, and they exist only if the objects have identifiers and every
field can be numbered. Taken together the lines are those of a list of enumerations, which can be
told without writing anything: for each object one of the fields that never repeat and one of the
repeating group, either of them left out if it would be empty (`render?_eq_some_iff`).

Two kinds of names may be given twice. Within an enumeration that is the identifier of a field,
if both of the candidates for it were taken (`nodup_idents_iff`). Among the enumerations it is a
name that ends in `ExtensibleFields`: the identifiers of the objects are distinct, but what is added
to them is not told apart from what they end in, so the group of an object clashes with the fields
of another one that is called the same with `Extensible` at its end (`nodup_names_iff`).
-/

namespace DataDictionary

namespace Bindings

/-- A field in an enumeration, with the identifier and the number that it has there. -/
structure Member where
  field : Field
  ident : String
  number : Nat

/-- The lines of a field in an enumeration. -/
def Member.lines (m : Member) : List String :=
  (if m.field.name = "" then []
    else ["    /// " ++ m.field.id.render ++ " `" ++ m.field.name ++ "`"]) ++
  ["    " ++ m.ident ++ " = " ++ Text.decimal m.number ++ ","]

/-- Fields with their identifiers, numbered by their distance from the index `base`. -/
def membersFrom (base : Nat) (fields : List Field) : List Member :=
  (fields.zip (fieldIdents fields)).map fun (f, ident) => ⟨f, ident, f.index - base⟩

/-- An enumeration of fields. -/
structure Enumeration where
  title : String
  name : String
  members : List Member

namespace Enumeration

def fields (e : Enumeration) : List Field := e.members.map (·.field)

def idents (e : Enumeration) : List String := e.members.map (·.ident)

/-- The lines of an enumeration. -/
def lines (visibility : String) (e : Enumeration) : List String :=
  ["/// " ++ e.title,
    "#[allow(non_camel_case_types)]",
    "#[derive(Debug, Clone, Copy, PartialEq, Eq, Hash)]",
    "#[repr(usize)]",
    visibility ++ " enum " ++ e.name ++ " \x7b"] ++ e.members.flatMap Member.lines ++ ["\x7d", ""]

/-- The enumeration of some fields, left out if there are none. -/
def ofFields (title name : String) (base : Nat) (fields : List Field) : List Enumeration :=
  if fields = [] then [] else [⟨title, name, membersFrom base fields⟩]

end Enumeration

/-- The repeating group of an object, empty if nothing repeats. -/
def groupOf (o : Object) : List Field := if o.isExtensible then o.group?.getD [] else []

/-- The index that the fields of a group are numbered from. -/
def startOf (group : List Field) : Nat := (group.head?.map (·.index)).getD 0

/-- The repeating group of an object exists, and none of its fields has a smaller index than the
first one. -/
def IsNumberable (o : Object) : Prop :=
  o.isExtensible = true → ∃ group, o.group? = some group ∧ ∀ f ∈ group, startOf group ≤ f.index

/-- The enumeration of the fields of an object that never repeat. -/
def fixedEnumeration (o : Object) (ident : String) : List Enumeration :=
  Enumeration.ofFields ("Field indices of `" ++ o.name ++ "`.") (ident ++ "Fields") 0 o.fixedFields

/-- The enumeration of the repeating group of an object. -/
def groupEnumeration (o : Object) (ident : String) : List Enumeration :=
  Enumeration.ofFields ("Field offsets within one extensible group of `" ++ o.name ++ "`.")
    (ident ++ "ExtensibleFields") (startOf (groupOf o)) (groupOf o)

/-- The enumerations of an object. -/
def objectEnumerations (o : Object) (ident : String) : List Enumeration :=
  fixedEnumeration o ident ++ groupEnumeration o ident

/-- The enumerations of fields in the bindings of a dictionary whose objects have the given
identifiers. -/
def enumerations (options : Options) (d : Dictionary) (idents : List String) : List Enumeration :=
  if options.fieldEnums then
    (d.objects.zip idents).flatMap fun (o, ident) => objectEnumerations o ident
  else []

/-- Everything in the bindings of a dictionary whose objects have the given identifiers, line by
line. -/
def allLines (options : Options) (d : Dictionary) (idents : List String) : List String :=
  opening d ++ (if options.objectTypes then objectTypeLines options d idents else []) ++
    (enumerations options d idents).flatMap (·.lines options.visibility)

/-! ## What is written -/

/-- Where something is done for each item and fails for some kinds of items, all is done if none of
the items is of these kinds. -/
theorem mapM_eq_some_iff_forall {α β : Type} {f : α → Option β} {p : α → Prop} {g : α → β}
    (h : ∀ a b, f a = some b ↔ p a ∧ b = g a) {l : List α} {bs : List β} :
    l.mapM f = some bs ↔ (∀ a ∈ l, p a) ∧ bs = l.map g := by
  induction l generalizing bs with
  | nil =>
    simp only [List.mapM_nil, List.map_nil, List.not_mem_nil, false_implies, implies_true, true_and]
    exact ⟨fun h => (Option.some.inj h).symm, fun h => congrArg some h.symm⟩
  | cons a l ih =>
    rw [List.mapM_cons, List.forall_mem_cons, List.map_cons]
    constructor
    · intro hall
      obtain ⟨b, hb, hall⟩ := Option.bind_eq_some_iff.mp hall
      obtain ⟨cs, hcs, hall⟩ := Option.bind_eq_some_iff.mp hall
      obtain ⟨ha, rfl⟩ := (h a b).mp hb
      obtain ⟨hl, rfl⟩ := ih.mp hcs
      exact ⟨⟨ha, hl⟩, (Option.some.inj hall).symm⟩
    · rintro ⟨⟨ha, hl⟩, rfl⟩
      rw [(h a (g a)).mpr ⟨ha, rfl⟩, ih.mpr ⟨hl, rfl⟩]
      rfl

/-- A property of the items of a list in those of the list zipped with another one of its length. -/
theorem forall_mem_zip_iff {α β : Type} {p : α → Prop} {l : List α} {l' : List β}
    (h : l'.length = l.length) : (∀ a ∈ l.zip l', p a.1) ↔ ∀ a ∈ l, p a := by
  have hfirst : (l.zip l').map Prod.fst = l := List.map_fst_zip (Nat.le_of_eq h.symm)
  conv_rhs => rw [← hfirst]
  exact List.forall_mem_map.symm

theorem fieldLines?_eq_some_iff {base : Nat} {f : Field} {ident : String} {lines : List String} :
    fieldLines? base f ident = some lines ↔
      base ≤ f.index ∧ lines = (Member.mk f ident (f.index - base)).lines := by
  unfold fieldLines?
  split
  next hle => exact ⟨fun h => ⟨hle, (Option.some.inj h).symm⟩, fun h => congrArg some h.2.symm⟩
  next hlt => exact ⟨fun h => (by cases h), fun h => absurd h.1 hlt⟩

variable {options : Options} {o : Object} {ident : String} {lines : List String}

theorem fieldEnumLines?_eq_some_iff {title name : String} {base : Nat} {fields : List Field} :
    fieldEnumLines? options title name base fields = some lines ↔
      (∀ f ∈ fields, base ≤ f.index) ∧
        lines = (Enumeration.mk title name (membersFrom base fields)).lines options.visibility := by
  have hmembers : ∀ bs, ((fields.zip (fieldIdents fields)).mapM fun (f, ident) =>
      fieldLines? base f ident) = some bs ↔ (∀ f ∈ fields, base ≤ f.index) ∧
        bs = (membersFrom base fields).map Member.lines := by
    intro bs
    rw [mapM_eq_some_iff_forall fun _ _ => fieldLines?_eq_some_iff,
      forall_mem_zip_iff (p := (base ≤ ·.index)) (length_fieldIdents fields), membersFrom,
      List.map_map]
    rfl
  constructor
  · intro h
    obtain ⟨bs, hbs, h⟩ := Option.bind_eq_some_iff.mp h
    obtain ⟨hbase, rfl⟩ := (hmembers bs).mp hbs
    exact ⟨hbase, (Option.some.inj h).symm⟩
  · rintro ⟨hbase, rfl⟩
    exact Option.bind_eq_some_iff.mpr ⟨_, (hmembers _).mpr ⟨hbase, rfl⟩, rfl⟩

/-- An enumeration that is left out if it would be empty. -/
theorem ofFields_lines_iff {title name : String} {base : Nat} {fields : List Field} :
    (if fields = [] then some [] else fieldEnumLines? options title name base fields) =
        some lines ↔
      (∀ f ∈ fields, base ≤ f.index) ∧
        lines = (Enumeration.ofFields title name base fields).flatMap
          (·.lines options.visibility) := by
  unfold Enumeration.ofFields
  split
  next hempty =>
    subst hempty
    have hbase : ∀ f ∈ ([] : List Field), base ≤ f.index := fun f hf => absurd hf List.not_mem_nil
    exact ⟨fun h => ⟨hbase, (Option.some.inj h).symm⟩, fun h => congrArg some h.2.symm⟩
  next => rw [fieldEnumLines?_eq_some_iff, List.flatMap_singleton]

theorem fixedFieldLines?_eq_some_iff :
    fixedFieldLines? options o ident = some lines ↔
      lines = (fixedEnumeration o ident).flatMap (·.lines options.visibility) := by
  rw [fixedFieldLines?, ofFields_lines_iff, fixedEnumeration]
  exact ⟨fun h => h.2, fun h => ⟨fun f _ => Nat.zero_le f.index, h⟩⟩

theorem groupFieldLines?_eq_some_iff :
    groupFieldLines? options o ident = some lines ↔ IsNumberable o ∧
      lines = (groupEnumeration o ident).flatMap (·.lines options.visibility) := by
  cases hext : o.isExtensible with
  | false =>
    have hnumberable : IsNumberable o := fun h => absurd (hext.symm.trans h) Bool.false_ne_true
    simp only [groupFieldLines?, groupEnumeration, groupOf, hext, Bool.false_eq_true, if_false]
    exact ⟨fun h => ⟨hnumberable, (Option.some.inj h).symm⟩, fun h => congrArg some h.2.symm⟩
  | true =>
    cases hgroup : o.group? with
    | none =>
      simp only [groupFieldLines?, hext, if_true, hgroup]
      refine ⟨fun h => (by cases h), fun ⟨h, _⟩ => ?_⟩
      obtain ⟨group, hsome, -⟩ := h hext
      cases hgroup.symm.trans hsome
    | some group =>
      have hof : groupOf o = group := by
        simp only [groupOf, hext, if_true, hgroup, Option.getD_some]
      have hnumberable : IsNumberable o ↔ ∀ f ∈ group, startOf group ≤ f.index := by
        refine ⟨fun h => ?_, fun h _ => ⟨group, hgroup, h⟩⟩
        obtain ⟨group', hsome, h⟩ := h hext
        cases hgroup.symm.trans hsome
        exact h
      rw [hnumberable, groupEnumeration, hof, ← ofFields_lines_iff]
      simp only [groupFieldLines?, hext, if_true, hgroup]
      cases group <;> rfl

theorem objectFieldLines?_eq_some_iff :
    objectFieldLines? options o ident = some lines ↔ IsNumberable o ∧
      lines = (objectEnumerations o ident).flatMap (·.lines options.visibility) := by
  rw [objectEnumerations, List.flatMap_append]
  constructor
  · intro h
    obtain ⟨fixed, hfixed, h⟩ := Option.bind_eq_some_iff.mp h
    obtain ⟨group, hgroup, h⟩ := Option.bind_eq_some_iff.mp h
    obtain ⟨hnumberable, rfl⟩ := groupFieldLines?_eq_some_iff.mp hgroup
    obtain rfl := fixedFieldLines?_eq_some_iff.mp hfixed
    exact ⟨hnumberable, (Option.some.inj h).symm⟩
  · rintro ⟨hnumberable, rfl⟩
    refine Option.bind_eq_some_iff.mpr ⟨_, fixedFieldLines?_eq_some_iff.mpr rfl, ?_⟩
    exact Option.bind_eq_some_iff.mpr
      ⟨_, groupFieldLines?_eq_some_iff.mpr ⟨hnumberable, rfl⟩, rfl⟩

variable {d : Dictionary} {idents : List String} {code : String}

theorem lines?_eq_some_iff :
    lines? options d = some lines ↔
      ∃ idents, objectIdents? d = some idents ∧
        (options.fieldEnums = true → ∀ o ∈ d.objects, IsNumberable o) ∧
        lines = allLines options d idents := by
  refine Option.bind_eq_some_iff.trans (exists_congr fun idents => ?_)
  refine and_congr_right fun hidents => ?_
  cases hwanted : options.fieldEnums with
  | false =>
    simp only [allLines, enumerations, hwanted, Bool.false_eq_true, if_false,
      false_implies, true_and, List.flatMap_nil]
    exact ⟨fun h => (Option.some.inj h).symm, fun h => congrArg some h.symm⟩
  | true =>
    let fieldLines := fun a : Object × String =>
      (objectEnumerations a.1 a.2).flatMap (·.lines options.visibility)
    have hobjects : ∀ fields, ((d.objects.zip idents).mapM fun (o, ident) =>
        objectFieldLines? options o ident) = some fields ↔ (∀ o ∈ d.objects, IsNumberable o) ∧
          fields = (d.objects.zip idents).map fieldLines := by
      intro fields
      rw [mapM_eq_some_iff_forall fun _ _ => objectFieldLines?_eq_some_iff,
        forall_mem_zip_iff (p := IsNumberable) (length_objectIdents? hidents)]
    have hflat : ((d.objects.zip idents).map fieldLines).flatten =
        (enumerations options d idents).flatMap (·.lines options.visibility) := by
      rw [enumerations, if_pos hwanted, List.flatMap_assoc, List.flatMap_def]
    rw [allLines, ← hflat]
    simp only [if_true, true_implies]
    constructor
    · intro h
      obtain ⟨fields, hfields, h⟩ := Option.bind_eq_some_iff.mp h
      obtain ⟨hall, rfl⟩ := (hobjects fields).mp hfields
      exact ⟨hall, (Option.some.inj h).symm⟩
    · rintro ⟨hall, rfl⟩
      exact Option.bind_eq_some_iff.mpr ⟨_, (hobjects _).mpr ⟨hall, rfl⟩, rfl⟩

/-- **Bindings consist of the enumerations of fields behind the object types.** They exist if the
objects have identifiers and, where fields are asked for, those of every object can be numbered. -/
theorem render?_eq_some_iff :
    render? options d = some code ↔
      ∃ idents, objectIdents? d = some idents ∧
        (options.fieldEnums = true → ∀ o ∈ d.objects, IsNumberable o) ∧
        code = String.join ((allLines options d idents).map (· ++ "\n")) := by
  rw [render?, Option.map_eq_some_iff]
  constructor
  · rintro ⟨lines, hlines, rfl⟩
    obtain ⟨idents, hidents, hall, rfl⟩ := lines?_eq_some_iff.mp hlines
    exact ⟨idents, hidents, hall, rfl⟩
  · rintro ⟨idents, hidents, hall, rfl⟩
    exact ⟨_, lines?_eq_some_iff.mpr ⟨idents, hidents, hall, rfl⟩, rfl⟩

/-! ## The identifiers in an enumeration -/

theorem fields_membersFrom (title name : String) (base : Nat) (fields : List Field) :
    (Enumeration.mk title name (membersFrom base fields)).fields = fields := by
  have hlength := Nat.le_of_eq (length_fieldIdents fields).symm
  rw [Enumeration.fields, membersFrom, List.map_map]
  exact List.map_fst_zip hlength

theorem idents_membersFrom (title name : String) (base : Nat) (fields : List Field) :
    (Enumeration.mk title name (membersFrom base fields)).idents = fieldIdents fields := by
  have hlength := Nat.le_of_eq (length_fieldIdents fields)
  rw [Enumeration.idents, membersFrom, List.map_map]
  exact List.map_snd_zip hlength

theorem Enumeration.idents_of_mem_ofFields {title name : String} {base : Nat} {fields : List Field}
    {e : Enumeration} (h : e ∈ ofFields title name base fields) :
    e.idents = fieldIdents e.fields := by
  unfold ofFields at h
  split at h
  · cases h
  · rw [List.mem_singleton.mp h, idents_membersFrom, fields_membersFrom]

theorem mem_enumerations_iff {e : Enumeration} :
    e ∈ enumerations options d idents ↔ options.fieldEnums = true ∧
      ∃ o ident, (o, ident) ∈ d.objects.zip idents ∧ e ∈ objectEnumerations o ident := by
  unfold enumerations
  split
  next hwanted =>
    rw [List.mem_flatMap]
    exact ⟨fun ⟨a, ha, he⟩ => ⟨hwanted, a.1, a.2, ha, he⟩, fun ⟨_, o, ident, ha, he⟩ => ⟨_, ha, he⟩⟩
  next hunwanted => exact ⟨fun h => (by cases h), fun h => absurd h.1 hunwanted⟩

/-- The identifiers in an enumeration are those of its fields. -/
theorem idents_of_mem_enumerations {e : Enumeration} (h : e ∈ enumerations options d idents) :
    e.idents = fieldIdents e.fields := by
  obtain ⟨_, o, ident, _, h⟩ := mem_enumerations_iff.mp h
  rcases List.mem_append.mp h with h | h
  · exact Enumeration.idents_of_mem_ofFields h
  · exact Enumeration.idents_of_mem_ofFields h

/-- **When the identifiers in the enumerations of bindings are distinct.** Those of an enumeration
are if and only if none of its fields finds both of its candidates taken by the fields before it. So
they are if no two fields have one number and no name looks like another one with a number added. -/
theorem nodup_idents_iff (h : render? options d = some code) :
    ∃ idents, objectIdents? d = some idents ∧
      code = String.join ((allLines options d idents).map (· ++ "\n")) ∧
      ∀ e ∈ enumerations options d idents,
        (e.idents.Nodup ↔
          ∀ before f, before ++ [f] <+: e.fields → ¬ FindsBothTaken before f) ∧
        ((e.fields.map (·.id)).Nodup →
          (∀ f ∈ e.fields, ∀ g ∈ e.fields, fieldIdent g ≠ fieldIdent f ++ f.id.render) →
          e.idents.Nodup) := by
  obtain ⟨idents, hidents, -, hcode⟩ := render?_eq_some_iff.mp h
  refine ⟨idents, hidents, hcode, fun e he => ?_⟩
  rw [idents_of_mem_enumerations he]
  exact ⟨nodup_fieldIdents_iff e.fields, nodup_fieldIdents⟩

/-- Two fields of one name are told apart. -/
theorem surface_idents_nodup :
    let d := (Outcome.ofText {} none
      "Surface,\n  A1, \\field Name\n  A2; \\field Name\n").dictionary
    ∃ code idents, render? {} d = some code ∧ objectIdents? d = some idents ∧
      (enumerations {} d idents).map (·.idents) = [["Name", "NameA2"]] ∧
      ∀ e ∈ enumerations {} d idents, ∀ before f, before ++ [f] <+: e.fields →
        ¬ FindsBothTaken before f := by
  intro d
  have hfacts : (render? {} d).isSome = true ∧ objectIdents? d = some ["Surface"] ∧
      (enumerations {} d ["Surface"]).map (·.idents) = [["Name", "NameA2"]] := by decide +kernel
  obtain ⟨hexists, hsurface, hnames⟩ := hfacts
  obtain ⟨code, hcode⟩ := Option.isSome_iff_exists.mp hexists
  obtain ⟨idents, hidents, -, hall⟩ := nodup_idents_iff hcode
  obtain rfl := Option.some.inj (hsurface.symm.trans hidents)
  have hnodup : ∀ e ∈ enumerations {} d ["Surface"], e.idents.Nodup := by
    intro e he
    have hmem : e.idents ∈ [["Name", "NameA2"]] := hnames ▸ List.mem_map_of_mem he
    rw [List.mem_singleton.mp hmem]
    decide
  exact ⟨code, _, hcode, hidents, hnames, fun e he => (hall e he).1.mp (hnodup e he)⟩

/-- A name that looks like another one with a number added takes the identifier of the field that
gets this number, and both of them are written. -/
theorem zone_idents_repeat :
    let d := (Outcome.ofText {} none
      "Zone,\n  A1, \\field Name\n  A2, \\field Name A3\n  A3; \\field Name\n").dictionary
    (render? {} d).isSome = true ∧ objectIdents? d = some ["Zone"] ∧
      (enumerations {} d ["Zone"]).map (fun e => (e.name, e.idents)) =
        [("ZoneFields", ["Name", "NameA3", "NameA3"])] ∧
      ¬ ∀ e ∈ enumerations {} d ["Zone"], e.idents.Nodup := by
  decide +kernel

/-! ## The names of the enumerations -/

theorem Enumeration.names_ofFields (title name : String) (base : Nat) (fields : List Field) :
    (ofFields title name base fields).map (·.name) = if fields = [] then [] else [name] := by
  unfold ofFields
  split <;> rfl

theorem Enumeration.mem_names_ofFields_iff {title name n : String} {base : Nat}
    {fields : List Field} :
    n ∈ (ofFields title name base fields).map (·.name) ↔ fields ≠ [] ∧ n = name := by
  rw [names_ofFields]
  split
  next hempty => exact ⟨fun h => (by cases h), fun h => absurd hempty h.1⟩
  next hfields => exact ⟨fun h => ⟨hfields, List.mem_singleton.mp h⟩, fun h => h.2 ▸ .head _⟩

theorem Enumeration.nodup_names_ofFields (title name : String) (base : Nat) (fields : List Field) :
    ((ofFields title name base fields).map (·.name)).Nodup := by
  rw [names_ofFields]
  split
  · exact List.nodup_nil
  · exact List.nodup_singleton name

/-- The names of the enumerations of an object. -/
def namesOf (a : Object × String) : List String := (objectEnumerations a.1 a.2).map (·.name)

theorem mem_namesOf_iff {n : String} :
    n ∈ namesOf (o, ident) ↔ (o.fixedFields ≠ [] ∧ n = ident ++ "Fields") ∨
      (groupOf o ≠ [] ∧ n = ident ++ "ExtensibleFields") := by
  rw [namesOf, objectEnumerations, List.map_append, List.mem_append, fixedEnumeration,
    groupEnumeration, Enumeration.mem_names_ofFields_iff, Enumeration.mem_names_ofFields_iff]

theorem fields_eq_extensibleFields_iff {i j : String} :
    i ++ "Fields" = j ++ "ExtensibleFields" ↔ i = j ++ "Extensible" := by
  have hsplit : "ExtensibleFields" = "Extensible" ++ "Fields" := rfl
  rw [hsplit, ← String.append_assoc, String.append_left_inj]

theorem append_extensible_ne (i : String) : i ++ "Extensible" ≠ i := by
  intro h
  have hlength := congrArg String.length h
  have hadded : "Extensible".length = 10 := rfl
  rw [String.length_append] at hlength
  omega

theorem nodup_namesOf (a : Object × String) : (namesOf a).Nodup := by
  rw [namesOf, objectEnumerations, List.map_append, List.nodup_append]
  refine ⟨Enumeration.nodup_names_ofFields .., Enumeration.nodup_names_ofFields .., ?_⟩
  intro n hn m hm hsame
  obtain ⟨-, rfl⟩ := Enumeration.mem_names_ofFields_iff.mp hn
  obtain ⟨-, rfl⟩ := Enumeration.mem_names_ofFields_iff.mp hm
  exact append_extensible_ne a.2 (fields_eq_extensibleFields_iff.mp hsame).symm

theorem map_name_enumerations (hwanted : options.fieldEnums = true) :
    (enumerations options d idents).map (·.name) = (d.objects.zip idents).flatMap namesOf := by
  rw [enumerations, if_pos hwanted, List.map_flatMap]
  rfl

/-- An object whose repeating group goes by the name that the fields of another object go by. -/
def Clashes (a b : Object × String) : Prop :=
  groupOf a.1 ≠ [] ∧ b.1.fixedFields ≠ [] ∧ b.2 = a.2 ++ "Extensible"

instance (a b : Object × String) : Decidable (Clashes a b) :=
  inferInstanceAs (Decidable (_ ∧ _ ∧ _))

/-- Objects of different identifiers share a name if the group of one of them clashes with the
fields of the other. -/
theorem disjoint_namesOf {a b : Object × String} (hne : a.2 ≠ b.2) (hab : ¬ Clashes a b)
    (hba : ¬ Clashes b a) : (namesOf a).Disjoint (namesOf b) := by
  intro n ha hb
  rcases mem_namesOf_iff.mp ha with ⟨hfixed, rfl⟩ | ⟨hgroup, rfl⟩
  · rcases mem_namesOf_iff.mp hb with ⟨-, hsame⟩ | ⟨hgroup, hsame⟩
    · exact hne ((String.append_left_inj _).mp hsame)
    · exact hba ⟨hgroup, hfixed, fields_eq_extensibleFields_iff.mp hsame⟩
  · rcases mem_namesOf_iff.mp hb with ⟨hfixed, hsame⟩ | ⟨-, hsame⟩
    · exact hab ⟨hgroup, hfixed, fields_eq_extensibleFields_iff.mp hsame.symm⟩
    · exact hne ((String.append_left_inj _).mp hsame)

theorem Clashes.not_disjoint {a b : Object × String} (h : Clashes a b) :
    ¬ (namesOf a).Disjoint (namesOf b) := by
  obtain ⟨hgroup, hfixed, hident⟩ := h
  intro hdisjoint
  refine hdisjoint (mem_namesOf_iff.mpr (.inr ⟨hgroup, rfl⟩)) (mem_namesOf_iff.mpr (.inl ?_))
  exact ⟨hfixed, (fields_eq_extensibleFields_iff.mpr hident).symm⟩

/-- The name of the enumeration of object types is that of no enumeration of fields. -/
theorem objectType_notMem_namesOf (a : Object × String) : "IddObjectType" ∉ namesOf a := by
  have hlast : ∀ i : String, "IddObjectType" ≠ i ++ "Fields" := by
    intro i h
    have hchar := congrArg (fun s => s.toList.getLast?) h
    simp at hchar
  intro h
  rcases mem_namesOf_iff.mp h with ⟨-, h⟩ | ⟨-, h⟩
  · exact hlast _ h
  · have hsplit : "ExtensibleFields" = "Extensible" ++ "Fields" := rfl
    rw [hsplit, ← String.append_assoc] at h
    exact hlast _ h

/-- **When the names in bindings are distinct.** With nothing chosen otherwise, all enumerations
have different names if and only if there is no object with a repeating group and another one with
fields that do not repeat whose identifier is that of the first and `Extensible`. -/
theorem nodup_names_iff (h : render? {} d = some code) :
    ∃ idents, objectIdents? d = some idents ∧
      let options : Options := {}
      let objects := d.objects.zip idents
      code = String.join ((allLines options d idents).map (· ++ "\n")) ∧
        ((options.objectTypeName :: (enumerations options d idents).map (·.name)).Nodup ↔
          ∀ a ∈ objects, ∀ b ∈ objects, ¬ Clashes a b) := by
  obtain ⟨idents, hidents, -, hcode⟩ := render?_eq_some_iff.mp h
  refine ⟨idents, hidents, hcode, ?_⟩
  let objects := d.objects.zip idents
  have hsecond : objects.map Prod.snd = idents :=
    List.map_snd_zip (Nat.le_of_eq (length_objectIdents? hidents))
  have hdistinct : objects.Pairwise fun a b => a.2 ≠ b.2 :=
    List.pairwise_map.mp (hsecond.symm ▸ nodup_objectIdents? hidents)
  have hfirst : "IddObjectType" ∉ objects.flatMap namesOf := by
    intro hmem
    obtain ⟨a, -, ha⟩ := List.mem_flatMap.mp hmem
    exact objectType_notMem_namesOf a ha
  rw [map_name_enumerations rfl, List.nodup_cons, List.nodup_flatMap]
  constructor
  · rintro ⟨-, -, hdisjoint⟩ a ha b hb hclash
    have hsymm : Std.Symm (Function.onFun List.Disjoint namesOf) := ⟨fun _ _ h n hb ha => h ha hb⟩
    have hne : a ≠ b := by
      rintro rfl
      exact append_extensible_ne a.2 hclash.2.2.symm
    exact hclash.not_disjoint (hdisjoint.forall ha hb hne)
  · intro hclash
    refine ⟨hfirst, fun a _ => nodup_namesOf a, ?_⟩
    refine hdistinct.imp_of_mem fun {a b} ha hb hne => ?_
    exact disjoint_namesOf hne (hclash a ha b hb) (hclash b hb a ha)

/-- An object with a repeating group beside one without. -/
theorem surface_names_nodup :
    let d := (Outcome.ofText {} none
      "Surface,\n\\extensible:1\n  A1, \\field Name\n  N1; \\field X\nVersion,\n  A1;\n").dictionary
    ∃ code idents, render? {} d = some code ∧ objectIdents? d = some idents ∧
      (enumerations {} d idents).map (·.name) =
        ["SurfaceFields", "SurfaceExtensibleFields", "VersionFields"] ∧
      ("IddObjectType" :: (enumerations {} d idents).map (·.name)).Nodup := by
  intro d
  have hfacts : (render? {} d).isSome = true ∧ objectIdents? d = some ["Surface", "Version"] ∧
      (enumerations {} d ["Surface", "Version"]).map (·.name) =
        ["SurfaceFields", "SurfaceExtensibleFields", "VersionFields"] ∧
      ∀ a ∈ d.objects.zip ["Surface", "Version"], ∀ b ∈ d.objects.zip ["Surface", "Version"],
        ¬ Clashes a b := by decide +kernel
  obtain ⟨hexists, htwo, hnames, hclash⟩ := hfacts
  obtain ⟨code, hcode⟩ := Option.isSome_iff_exists.mp hexists
  obtain ⟨idents, hidents, -, hnodup⟩ := nodup_names_iff hcode
  obtain rfl := Option.some.inj (htwo.symm.trans hidents)
  exact ⟨code, _, hcode, hidents, hnames, hnodup.mpr hclash⟩

/-- The repeating group of an object and the fields of an object that is called like it, with
`Extensible` added, give two enumerations of one name. -/
theorem zone_names_repeat :
    let d := (Outcome.ofText {} none
      "Zone,\n\\extensible:1\nN1;\nZoneExtensible,\nA1;\n").dictionary
    (render? {} d).isSome = true ∧ objectIdents? d = some ["Zone", "ZoneExtensible"] ∧
      let names := (enumerations {} d ["Zone", "ZoneExtensible"]).map (·.name)
      names = ["ZoneExtensibleFields", "ZoneExtensibleFields"] ∧
        ¬ ("IddObjectType" :: names).Nodup := by
  decide +kernel

end Bindings

end DataDictionary
