import DataDictionary.Proofs.RepeatingGroups

/-!
# The numbers of fields in bindings

The numbers in an enumeration are not counted but worked out: from the index that a field has had
since the object was assembled, and from the index of the first field of the enumeration. They count
the fields from zero all the same, because the indices run on from one field to the next
(`numbers_membersFrom`). In a whole object they run on from zero, and so they do in the part of it
that an enumeration is about, from where that part begins.

So the numbers in the bindings of a dictionary that was read from a text are those of the positions
in each part, and no field has a smaller index than the one it is numbered from
(`Outcome.enumerations_numbered`).
-/

namespace DataDictionary

namespace Bindings

/-- The fields of an enumeration with their numbers, in order. -/
def Enumeration.numbers (e : Enumeration) : List (Field × Nat) :=
  e.members.map fun m => (m.field, m.number)

/-- Fields whose indices run on from `base`. -/
def RunFrom (base : Nat) (fields : List Field) : Prop :=
  ∀ (i : Nat) (f : Field), fields[i]? = some f → f.index = base + i

variable {base : Nat} {fields : List Field}

/-- The first of the fields has the index that the others run on from. -/
theorem RunFrom.startOf (h : RunFrom base fields) : RunFrom (startOf fields) fields := by
  cases fields with
  | nil =>
    intro i f hf
    cases hf
  | cons first rest =>
    have hfirst : first.index = base := h 0 first rfl
    have hstart : Bindings.startOf (first :: rest) = base := hfirst
    rw [hstart]
    exact h

theorem RunFrom.le_index (h : RunFrom base fields) : ∀ f ∈ fields, base ≤ f.index := by
  intro f hf
  obtain ⟨i, hi⟩ := List.mem_iff_getElem?.mp hf
  rw [h i f hi]
  omega

/-- **Fields whose indices run on are numbered from zero.** -/
theorem numbers_membersFrom (title name : String) (h : RunFrom base fields) :
    (Enumeration.mk title name (membersFrom base fields)).numbers = fields.zipIdx := by
  have hlength := Nat.le_of_eq (length_fieldIdents fields).symm
  have hmembers : (Enumeration.mk title name (membersFrom base fields)).numbers =
      fields.map fun f => (f, f.index - base) := by
    conv_rhs => rw [← List.map_fst_zip hlength]
    rw [Enumeration.numbers, membersFrom, List.map_map, List.map_map]
    rfl
  rw [hmembers]
  refine List.ext_getElem? fun i => ?_
  rw [List.getElem?_map, List.getElem?_zipIdx]
  cases hf : fields[i]? with
  | none => rfl
  | some f =>
    have hnumber : f.index - base = 0 + i := by
      rw [h i f hf]
      omega
    rw [Option.map_some, Option.map_some, hnumber]

/-- The name of an enumeration and its fields, counted from zero. There is none of no fields. -/
def counted (name : String) (fields : List Field) : List (String × List (Field × Nat)) :=
  if fields = [] then [] else [(name, fields.zipIdx)]

theorem counted_ofFields (title name : String) (h : RunFrom base fields) :
    (Enumeration.ofFields title name base fields).map (fun e => (e.name, e.numbers)) =
      counted name fields := by
  unfold Enumeration.ofFields counted
  split
  · rfl
  · rw [List.map_singleton, numbers_membersFrom title name h]

/-! ## The parts of an object -/

/-- The parts of an object: the fields in front of the repeating group, and the group. -/
def countedParts (o : Object) (ident : String) : List (String × List (Field × Nat)) :=
  counted (ident ++ "Fields") (o.fields.take o.fixedCount) ++
    counted (ident ++ "ExtensibleFields") (groupOf o)

variable {o : Object}

theorem runFrom_fixedFields (h : o.IsNumbered) : RunFrom 0 o.fixedFields := by
  intro i f hf
  rw [Object.fixedFields, List.getElem?_take, Option.ite_none_right_eq_some] at hf
  rw [h i f hf.2]
  omega

/-- The group of an object is cut out of its fields behind the fixed ones. -/
theorem getElem?_groupOf {i : Nat} {f : Field} (h : (groupOf o)[i]? = some f) :
    o.fields[o.fixedCount + i]? = some f := by
  unfold groupOf at h
  split at h
  · cases hgroup : o.group? with
    | none =>
      rw [hgroup] at h
      cases h
    | some group =>
      obtain ⟨-, rfl⟩ := Object.group?_eq_some_iff.mp hgroup
      rw [hgroup, Option.getD_some, List.getElem?_take, Option.ite_none_right_eq_some,
        List.getElem?_drop] at h
      exact h.2
  · cases h

theorem runFrom_groupOf (h : o.IsNumbered) : RunFrom o.fixedCount (groupOf o) := by
  intro i f hf
  exact h _ f (getElem?_groupOf hf)

/-- The group that is written is all of the repeating group. -/
theorem IsNumberable.group?_eq (h : IsNumberable o) (hextensible : o.isExtensible = true) :
    o.group? = some (groupOf o) := by
  obtain ⟨group, hgroup, -⟩ := h hextensible
  rw [groupOf, if_pos hextensible, hgroup, Option.getD_some]

theorem countedParts_objectEnumerations (h : o.IsNumbered) (ident : String) :
    (objectEnumerations o ident).map (fun e => (e.name, e.numbers)) = countedParts o ident := by
  have hfixed := runFrom_fixedFields h
  have hgroup := (runFrom_groupOf h).startOf
  rw [objectEnumerations, List.map_append, fixedEnumeration, groupEnumeration,
    counted_ofFields _ _ hfixed, counted_ofFields _ _ hgroup]
  rfl

end Bindings

open Bindings in
/-- **The numbers in the bindings of a dictionary that was read from a text.** For every object
there is an enumeration of the fields in front of the repeating group and one of the group itself,
each of them unless it would be empty, and each numbers its fields from zero, in order. The number
of a field in a group, added to the count of the fields in front of the group, is its index and its
position, and this index is not below the one the group is numbered from. -/
theorem Outcome.enumerations_numbered {settings : Settings} {loader : Option Loader} {text : String}
    {options : Options} {code : String}
    (h : render? options (ofText settings loader text).dictionary = some code) :
    let d := (ofText settings loader text).dictionary
    ∃ idents, objectIdents? d = some idents ∧
      code = String.join ((allLines options d idents).map (· ++ "\n")) ∧
      (enumerations options d idents).map (fun e => (e.name, e.numbers)) =
        (if options.fieldEnums then
          (d.objects.zip idents).flatMap fun (o, ident) => countedParts o ident
        else []) ∧
      ∀ o ∈ d.objects,
        (options.fieldEnums = true → o.isExtensible = true → o.group? = some (groupOf o)) ∧
        ∀ (i : Nat) (f : Field), (groupOf o)[i]? = some f →
          startOf (groupOf o) ≤ f.index ∧ f.index = i + o.fixedCount ∧
            o.fields[i + o.fixedCount]? = some f := by
  intro d
  obtain ⟨idents, hidents, hnumberable, hcode⟩ := render?_eq_some_iff.mp h
  have hnumbered : ∀ o ∈ d.objects, o.IsNumbered := by
    intro o ho
    rw [objects_ofText] at ho
    obtain ⟨x, -, rfl⟩ := List.mem_map.mp ho
    exact x.object.isNumbered_numbered
  refine ⟨idents, hidents, hcode, ?_,
    fun o ho => ⟨fun hwanted => (hnumberable hwanted o ho).group?_eq, ?_⟩⟩
  · unfold enumerations
    by_cases hwanted : options.fieldEnums = true
    · rw [if_pos hwanted, if_pos hwanted, List.map_flatMap]
      refine List.flatMap_congr fun a ha => ?_
      exact countedParts_objectEnumerations (hnumbered a.1 (List.of_mem_zip ha).1) a.2
    · rw [if_neg hwanted, if_neg hwanted, List.map_nil]
  · intro i f hf
    have hrun := runFrom_groupOf (hnumbered o ho)
    have hstart := hrun.startOf.le_index f (List.mem_of_getElem? hf)
    rw [Nat.add_comm i]
    exact ⟨hstart, hrun i f hf, getElem?_groupOf hf⟩

open Bindings in
/-- Of two groups behind a field that does not repeat, the first one is numbered. -/
theorem Outcome.surface_numbers :
    let d := (ofText {} none
      "Surface,\n\\extensible:2\nA1,\nN1,\n\\begin-extensible\nN2,\nN3,\nN4;\n").dictionary
    ∃ code idents, render? {} d = some code ∧ objectIdents? d = some idents ∧
      (enumerations {} d idents).map (fun e => (e.name, e.numbers.map fun (f, n) => (f.index, n))) =
        [("SurfaceFields", [(0, 0)]), ("SurfaceExtensibleFields", [(1, 0), (2, 1)])] ∧
      ∀ o ∈ d.objects, o.group? = some (groupOf o) ∧
        ∀ (i : Nat) (f : Field), (groupOf o)[i]? = some f →
          startOf (groupOf o) ≤ f.index ∧ f.index = i + o.fixedCount := by
  intro d
  have hfacts : (render? {} d).isSome = true ∧ objectIdents? d = some ["Surface"] ∧
      (enumerations {} d ["Surface"]).map
          (fun e => (e.name, e.numbers.map fun (f, n) => (f.index, n))) =
        [("SurfaceFields", [(0, 0)]), ("SurfaceExtensibleFields", [(1, 0), (2, 1)])] ∧
      ∀ o ∈ d.objects, o.isExtensible = true := by decide +kernel
  obtain ⟨hexists, hsurface, hnumbers, hextensible⟩ := hfacts
  obtain ⟨code, hcode⟩ := Option.isSome_iff_exists.mp hexists
  obtain ⟨idents, hidents, -, -, hparts⟩ := enumerations_numbered hcode
  obtain rfl := Option.some.inj (hsurface.symm.trans hidents)
  refine ⟨code, _, hcode, hidents, hnumbers, fun o ho => ?_⟩
  obtain ⟨hgroup, hindices⟩ := hparts o ho
  refine ⟨hgroup rfl (hextensible o ho), fun i f hf => ?_⟩
  obtain ⟨hstart, hindex, -⟩ := hindices i f hf
  exact ⟨hstart, hindex⟩

end DataDictionary
