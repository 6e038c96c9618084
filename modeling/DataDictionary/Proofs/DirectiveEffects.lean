import DataDictionary.Source.Reader

/-!
# What a directive does to what is open

A directive of the header changes the object itself and nothing else. Of those for a field, only
the four for bounds can fail, and none of the others touches the forms in which the bounds were
first written. A directive for a bound fails exactly if the same bound was first written in the
other form. Whatever else a directive finds is a warning: a bound or a count that is no number, or a
key that is repeated.
-/

namespace DataDictionary

/-- The bound that a directive sets, and the form in which it does so. -/
def FieldKeyword.bound? : FieldKeyword → Option (Side × BoundForm)
  | .minimumExclusive => some (.minimum, .exclusive)
  | .minimumInclusive => some (.minimum, .inclusive)
  | .maximumExclusive => some (.maximum, .exclusive)
  | .maximumInclusive => some (.maximum, .inclusive)
  | _ => none

/-- The form in which a directive sets the bound of one side. -/
def FieldKeyword.formOf? (side : Side) (k : FieldKeyword) : Option BoundForm :=
  k.bound?.bind fun b => if b.1 = side then some b.2 else none

/-- What can only be found once a field is finished. -/
inductive Problem.IsOfField : Problem → Prop where
  | invertedBounds (id : FieldId) (minimum maximum : Bound) :
      IsOfField (.invertedBounds id minimum maximum)
  | missingFlag (id : FieldId) (which : Sentinel) : IsOfField (.missingFlag id which)
  | repeatedField (id : FieldId) (object : String) : IsOfField (.repeatedField id object)

/-- What can be found when a directive is applied. -/
inductive Problem.IsOfDirective : Problem → Prop where
  | conflictingBounds (id : FieldId) (side : Side) : IsOfDirective (.conflictingBounds id side)
  | badBound (text : String) (id : FieldId) : IsOfDirective (.badBound text id)
  | badCount (what : CountOf) (text : String) : IsOfDirective (.badCount what text)
  | repeatedKey (key : String) (id : FieldId) : IsOfDirective (.repeatedKey key id)

/-- The bound of a field at one side. -/
def Field.bound (f : Field) : Side → Option Bound
  | .minimum => f.minimum
  | .maximum => f.maximum

/-- The count that a directive of the header sets. -/
def ObjectKeyword.count? : ObjectKeyword → Option CountOf
  | .extensible => some .extensible
  | .minFields => some .minFields
  | .maxFields => some .maxFields
  | _ => none

/-- A count of an object. -/
def Object.count (o : Object) : CountOf → Option Nat
  | .extensible => o.extensible
  | .minFields => o.minFields
  | .maxFields => o.maxFields

namespace OpenField

variable {f f' : OpenField} {side : Side} {form first : BoundForm} {k : FieldKeyword}
  {text argument : String} {problems : List Problem}

theorem form_withForm (f : OpenField) (side other : Side) (form : BoundForm) :
    (f.withForm side form).form other = if other = side then some form else f.form other := by
  cases side <;> cases other <;> rfl

@[simp] theorem form_withBound (f : OpenField) (side other : Side) (b : Bound) :
    (f.withBound side b).form other = f.form other := by
  cases side <;> cases other <;> rfl

@[simp] theorem bound_withForm (f : OpenField) (side other : Side) (form : BoundForm) :
    (f.withForm side form).field.bound other = f.field.bound other := by
  cases side <;> rfl

theorem bound_withBound (f : OpenField) (side other : Side) (b : Bound) :
    (f.withBound side b).field.bound other =
      if side = other then some b else f.field.bound other := by
  cases side <;> cases other <;> rfl

@[simp] theorem id_withForm (f : OpenField) (side : Side) (form : BoundForm) :
    (f.withForm side form).field.id = f.field.id := by
  cases side <;> rfl

@[simp] theorem id_withBound (f : OpenField) (side : Side) (b : Bound) :
    (f.withBound side b).field.id = f.field.id := by
  cases side <;> rfl

/-- **What a directive for a bound does.** It is refused if the bound was first written in another
form. Otherwise a number is taken over with the form, and anything else is reported and leaves the
bound as it was. -/
theorem setBound_cases (f : OpenField) (side : Side) (form : BoundForm) (text : String) :
    ((∃ first, f.form side = some first ∧ first ≠ form) ∧
      f.setBound side form text = .error (.conflictingBounds f.field.id side)) ∨
    ((∀ first, f.form side = some first → first = form) ∧
      ∃ f', f.setBound side form text =
          .ok (f', if (Number.ofText? text).isNone then [.badBound text f.field.id] else []) ∧
        f'.field.id = f.field.id ∧
        (∀ other, f'.form other = (f.form other).or (if side = other then some form else none)) ∧
        ∀ other, f'.field.bound other =
          (if side = other then (Number.ofText? text).map form.bound else none).or
            (f.field.bound other)) := by
  by_cases hagree : ∀ first, f.form side = some first → first = form
  · refine .inr ⟨hagree, ?_⟩
    -- the first form stays, and there is none yet or it is this one
    have hform : ∀ other, (f.withForm side form).form other =
        (f.form other).or (if side = other then some form else none) := by
      intro other
      rw [form_withForm]
      by_cases hother : other = side
      · subst hother
        rw [if_pos rfl, if_pos rfl]
        cases hf : f.form other with
        | none => rfl
        | some first => rw [hagree first hf, Option.some_or]
      · rw [if_neg hother, if_neg (Ne.symm hother), Option.or_none]
    have hno : (f.form side).any (· ≠ form) = false := by
      cases hf : f.form side with
      | none => rfl
      | some first => simp [hagree first hf]
    rw [setBound, hno, if_neg Bool.false_ne_true]
    cases Number.ofText? text with
    | none =>
      refine ⟨f.withForm side form, ?_, id_withForm f side form, hform, fun other => ?_⟩
      · dsimp only
        rw [id_withForm, Option.isNone_none, if_pos rfl]
      · rw [bound_withForm, Option.map_none, ite_self, Option.none_or]
    | some value =>
      refine ⟨_, rfl, ?_, fun other => ?_, fun other => ?_⟩
      · rw [id_withBound, id_withForm]
      · rw [form_withBound, hform]
      · rw [bound_withBound, bound_withForm, Option.map_some]
        split <;> rfl
  · obtain ⟨first, hnot⟩ := Classical.not_forall.mp hagree
    obtain ⟨hfirst, hne⟩ := Classical.not_imp.mp hnot
    refine .inl ⟨⟨first, hfirst, hne⟩, ?_⟩
    rw [setBound, hfirst, if_pos (by simp [hne])]

/-- A directive for a bound leaves the keys alone. -/
theorem keys_of_setBound (h : f.setBound side form text = .ok (f', problems)) :
    f'.field.keys = f.field.keys := by
  unfold setBound at h
  split at h
  · cases h
  · cases hnumber : Number.ofText? text with
    | none =>
      rw [hnumber] at h
      cases h
      cases side <;> rfl
    | some value =>
      rw [hnumber] at h
      cases h
      cases side <;> rfl

theorem apply_of_bound? (h : k.bound? = some (side, form)) (f : OpenField) (argument : String) :
    f.apply k argument = f.setBound side form argument := by
  cases k <;> cases h <;> rfl

/-- A directive that is neither for a bound nor for a key changes another entry of the field. -/
theorem apply_eq_change (hbound : k.bound? = none) (hkey : k ≠ .key) (f : OpenField)
    (argument : String) :
    ∃ d : Field, f.apply k argument = f.change d ∧ d.id = f.field.id ∧ d.keys = f.field.keys ∧
      ∀ side, d.bound side = f.field.bound side := by
  cases k with
  | minimumExclusive | minimumInclusive | maximumExclusive | maximumInclusive => cases hbound
  | key => exact absurd rfl hkey
  | _ =>
    refine ⟨_, rfl, rfl, rfl, fun side => ?_⟩
    cases side <;> dsimp only [Field.bound]

theorem apply_key (f : OpenField) (argument : String) :
    f.apply .key argument =
      .ok (if f.field.hasKey argument then (f, [.repeatedKey argument f.field.id])
        else ({ f with field := { f.field with keys := f.field.keys ++ [argument] } }, [])) := rfl

/-- Any other directive succeeds and leaves the bounds and their forms alone. All that it may find
is a repeated key. -/
theorem apply_of_bound?_eq_none (h : k.bound? = none) (f : OpenField) (argument : String) :
    ∃ f' problems, f.apply k argument = .ok (f', problems) ∧ f'.field.id = f.field.id ∧
      (∀ side, f'.form side = f.form side) ∧ (∀ side, f'.field.bound side = f.field.bound side) ∧
      ∀ p ∈ problems, p = .repeatedKey argument f.field.id := by
  by_cases hkey : k = .key
  · rw [hkey, apply_key]
    split
    · exact ⟨f, [.repeatedKey argument f.field.id], rfl, rfl, fun _ => rfl, fun _ => rfl, by simp⟩
    · exact ⟨_, [], rfl, rfl, fun side => by cases side <;> rfl, fun side => by cases side <;> rfl,
        by simp⟩
  · obtain ⟨d, happly, hid, -, hbound⟩ := apply_eq_change h hkey f argument
    exact ⟨{ f with field := d }, [], happly, hid, fun side => by cases side <;> rfl, hbound,
      by simp⟩

/-- **What a directive does to an open field.** It is refused if it writes a bound in another form
than the one it was first written in. Otherwise it adds its own form behind those that were there,
and finds nothing worse than a warning. -/
theorem apply_cases (f : OpenField) (k : FieldKeyword) (argument : String) :
    (∃ side form first, k.bound? = some (side, form) ∧ f.form side = some first ∧ first ≠ form ∧
      f.apply k argument = .error (.conflictingBounds f.field.id side)) ∨
    ∃ f' problems, f.apply k argument = .ok (f', problems) ∧
      (∀ side form, k.bound? = some (side, form) → ∀ first, f.form side = some first →
        first = form) ∧
      f'.field.id = f.field.id ∧
      (∀ side, f'.form side = (f.form side).or (k.formOf? side)) ∧
      ∀ p ∈ problems, p.severity = .warning := by
  cases hk : k.bound? with
  | none =>
    obtain ⟨f', problems, happly, hid, hform, -, hkeys⟩ := apply_of_bound?_eq_none hk f argument
    refine .inr ⟨f', problems, happly, fun _ _ h => ?_, hid, fun side => ?_, fun p hp => ?_⟩
    · cases h
    · rw [FieldKeyword.formOf?, hk, Option.bind_none, Option.or_none, hform]
    · rw [hkeys p hp, Problem.severity]
  | some b =>
    obtain ⟨side, form⟩ := b
    rw [apply_of_bound? hk]
    rcases f.setBound_cases side form argument with
      ⟨⟨first, hfirst, hne⟩, hset⟩ | ⟨hagree, f', hset, hid, hform, -⟩
    · exact .inl ⟨side, form, first, rfl, hfirst, hne, hset⟩
    · refine .inr ⟨f', _, hset, fun _ _ h => ?_, hid, fun other => ?_, fun p hp => ?_⟩
      · cases h
        exact hagree
      · rw [hform, FieldKeyword.formOf?, hk, Option.bind_some]
      · split at hp
        · rw [List.mem_singleton.mp hp, Problem.severity]
        · cases hp

theorem ofField_of_mem_problems {p : Problem} (h : p ∈ f.problems) : p.IsOfField := by
  unfold problems boundProblems defaultProblems at h
  rcases List.mem_append.mp h with h | h
  · split at h
    · split at h
      · simp at h
      · rw [List.mem_singleton.mp h]
        exact .invertedBounds _ _ _
    · simp at h
  · split at h
    · split at h
      · simp at h
      · rw [List.mem_singleton.mp h]
        exact .missingFlag _ _
    · simp at h

end OpenField

namespace OpenObject

/-- A directive of the header leaves the name, the fields and the end of the object alone. -/
theorem apply_frame (o : OpenObject) (k : ObjectKeyword) (argument : String) :
    (o.apply k argument).1.object.name = o.object.name ∧
    (o.apply k argument).1.object.fields = o.object.fields ∧
    (o.apply k argument).1.line = o.line ∧ (o.apply k argument).1.field = o.field ∧
    (o.apply k argument).1.closed = o.closed ∧ (o.apply k argument).1.failed = o.failed := by
  cases k <;> exact ⟨rfl, rfl, rfl, rfl, rfl, rfl⟩

theorem readCount_eq (what : CountOf) (text : String) :
    readCount what text =
      (Number.readCount? text,
       if (Number.readCount? text).isNone then [.badCount what text] else []) := by
  unfold readCount
  cases Number.readCount? text <;> rfl

/-- **What a directive of the header does to the counts.** It sets its own to what its argument
says. If that is no count, there is none afterwards, whatever there was before. -/
theorem count_apply (o : OpenObject) (k : ObjectKeyword) (argument : String) (what : CountOf) :
    (o.apply k argument).1.object.count what =
      if k.count? = some what then Number.readCount? argument else o.object.count what := by
  have hread : ∀ own, (readCount own argument).1 = Number.readCount? argument := fun own =>
    congrArg Prod.fst (readCount_eq own argument)
  cases k with
  | extensible | minFields | maxFields => cases what <;> first | exact hread _ | rfl
  | _ => rfl

/-- All that a directive of the header may find is that its argument is no count. -/
theorem problems_apply (o : OpenObject) (k : ObjectKeyword) (argument : String) :
    (o.apply k argument).2 =
      if (Number.readCount? argument).isNone then (k.count?.map (.badCount · argument)).toList
      else [] := by
  cases k with
  | extensible | minFields | maxFields => exact congrArg Prod.snd (readCount_eq _ argument)
  | _ => exact (ite_self _).symm

theorem badCount_of_mem_apply {o : OpenObject} {k : ObjectKeyword} {argument : String}
    {p : Problem} (h : p ∈ (o.apply k argument).2) : ∃ what, p = .badCount what argument := by
  rw [problems_apply] at h
  split at h
  · obtain ⟨what, -, rfl⟩ := Option.map_eq_some_iff.mp (Option.mem_toList.mp h)
    exact ⟨what, rfl⟩
  · cases h

/-- A directive of the header finds nothing worse than a warning. -/
theorem severity_of_mem_apply {o : OpenObject} {k : ObjectKeyword} {argument : String}
    {p : Problem} (h : p ∈ (o.apply k argument).2) : p.severity = .warning := by
  obtain ⟨what, rfl⟩ := badCount_of_mem_apply h
  rfl

theorem ofDirective_of_mem_applyToField {o : OpenObject} {f : OpenField} {k : FieldKeyword}
    {argument : String} {p : Problem} (h : p ∈ (o.applyToField f k argument).2) :
    p.IsOfDirective := by
  unfold applyToField at h
  cases hk : k.bound? with
  | none =>
    obtain ⟨f', problems, happly, -, -, -, hkeys⟩ :=
      OpenField.apply_of_bound?_eq_none hk f argument
    rw [happly] at h
    rw [hkeys p h]
    exact .repeatedKey _ _
  | some b =>
    obtain ⟨side, form⟩ := b
    rw [OpenField.apply_of_bound? hk] at h
    rcases f.setBound_cases side form argument with ⟨-, hset⟩ | ⟨-, f', hset, -⟩
    · rw [hset] at h
      rw [List.mem_singleton.mp h]
      exact .conflictingBounds _ _
    · rw [hset] at h
      dsimp only at h
      split at h
      · rw [List.mem_singleton.mp h]
        exact .badBound _ _
      · cases h

/-- Finishing a field leaves the name, the line and the end of the object alone. -/
theorem finishField_frame (o : OpenObject) :
    o.finishField.1.object.name = o.object.name ∧ o.finishField.1.line = o.line ∧
    o.finishField.1.closed = o.closed ∧ o.finishField.1.failed = o.failed := by
  unfold finishField
  split <;> exact ⟨rfl, rfl, rfl, rfl⟩

/-- What is found when a field is finished is about the field as a whole. -/
theorem ofField_of_mem_finishField {o : OpenObject} {f : Finding} (h : f ∈ o.finishField.2) :
    f.problem.IsOfField := by
  unfold finishField at h
  split at h
  · simp at h
  · obtain ⟨p, hp, rfl⟩ := List.mem_map.mp h
    rcases List.mem_append.mp hp with hp | hp
    · exact OpenField.ofField_of_mem_problems hp
    · split at hp
      · rw [List.mem_singleton.mp hp]
        exact .repeatedField _ _
      · simp at hp

/-- What is found when a field is finished is a warning. -/
theorem severity_of_mem_finishField {o : OpenObject} {f : Finding} (h : f ∈ o.finishField.2) :
    f.problem.severity = .warning := by
  have hseverity : ∀ {p : Problem}, p.IsOfField → p.severity = .warning := by
    intro p hp
    cases hp <;> rfl
  exact hseverity (ofField_of_mem_finishField h)

end OpenObject

end DataDictionary
