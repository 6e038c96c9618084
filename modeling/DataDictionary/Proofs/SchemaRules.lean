import DataDictionary.Proofs.UniqueNames

/-!
# What a strictly accepted dictionary guarantees

The rules for objects and fields are looked at one by one, each at its own moment: a repeated key
when its directive is applied, bounds and defaults when a field is finished, a repeated identifier
when the field joins its object, the number of fields when the dictionary is assembled. None of them
is enforced. A field that breaks a rule is kept, and all that tells is a warning.

So the rules can only be recovered from the absence of warnings. `Object.IsOrderly` collects what
reading one source has to say, and `OpenObject.Orderly` is its invariant while an object is open;
a source with nothing worse than remarks keeps orderly objects (`Source.isOrderly_of_harmless`).
Inclusions add nothing to an object and lose none of the findings of any source. What is left is
numbering, which the assembly does itself.
-/

namespace DataDictionary

open Text

/-! ## The rules -/

/-- The rules for a field by itself. -/
structure Field.ObeysRules (f : Field) : Prop where
  /-- No two keys differ in the case of Latin letters only. -/
  keys : f.keys.Pairwise fun a b => sameWord a b = false
  /-- A minimum and a maximum leave room for a value. -/
  bounds : ∀ low high, f.minimum = some low → f.maximum = some high → low.consistent high = true
  autosizable : f.default = some (.sentinel .autosize) → f.autosizable = true
  autocalculatable : f.default = some (.sentinel .autocalculate) → f.autocalculatable = true

/-- The rules for an object that do not depend on where its fields stand. -/
structure Object.IsOrderly (o : Object) : Prop where
  ids : (o.fields.map Field.id).Nodup
  fields : ∀ f ∈ o.fields, f.ObeysRules

/-- The rules for an object of a dictionary. -/
structure Object.ObeysRules (o : Object) : Prop extends o.IsOrderly where
  index : ∀ (i : Nat) (f : Field), o.fields[i]? = some f → f.index = i
  isLast : ∀ (i : Nat) (f : Field), o.fields[i]? = some f →
    (f.isLast = true ↔ i + 1 = o.fields.length)
  minFields : ∀ least, o.minFields = some least → least ≤ o.fields.length

/-- The rules for a field do not mention its position. -/
theorem Field.ObeysRules.place {f : Field} (h : f.ObeysRules) (index : Nat) (isLast : Bool) :
    { f with index, isLast }.ObeysRules :=
  ⟨h.keys, h.bounds, h.autosizable, h.autocalculatable⟩

/-! ## Fields -/

namespace OpenField

/-- A directive leaves the keys as they are or adds one that was not there. -/
theorem keys_of_apply {f f' : OpenField} {k : FieldKeyword} {argument : String}
    {problems : List Problem} (h : f.apply k argument = .ok (f', problems)) :
    f'.field.keys = f.field.keys ∨
    (f.field.hasKey argument = false ∧ f'.field.keys = f.field.keys ++ [argument]) := by
  by_cases hkey : k = .key
  · rw [hkey, apply_key] at h
    cases hhas : f.field.hasKey argument with
    | true =>
      rw [hhas] at h
      cases h
      exact .inl rfl
    | false =>
      rw [hhas] at h
      cases h
      exact .inr ⟨rfl, rfl⟩
  · refine .inl ?_
    cases hbound : k.bound? with
    | none =>
      obtain ⟨d, happly, -, hkeys, -⟩ := apply_eq_change hbound hkey f argument
      rw [happly] at h
      cases h
      exact hkeys
    | some b =>
      rw [apply_of_bound? hbound] at h
      exact keys_of_setBound h

/-- The keys of a field stay distinct, since arguments come without blanks around them. -/
theorem pairwise_keys_of_apply {f f' : OpenField} {k : FieldKeyword} {argument : String}
    {problems : List Problem} (h : f.apply k argument = .ok (f', problems))
    (htrim : IsTrimmed argument)
    (hkeys : f.field.keys.Pairwise fun a b => sameWord a b = false) :
    f'.field.keys.Pairwise fun a b => sameWord a b = false := by
  rcases keys_of_apply h with heq | ⟨hnew, heq⟩
  · rwa [heq]
  · rw [heq, List.pairwise_append]
    refine ⟨hkeys, List.pairwise_singleton _ _, fun key hkey added hadded => ?_⟩
    rw [List.mem_singleton.mp hadded]
    unfold Field.hasKey at hnew
    rw [htrim.strip_eq] at hnew
    exact Bool.eq_false_iff.mpr (List.any_eq_false.mp hnew key hkey)

/-- A finished field without problems obeys the rules. -/
theorem obeysRules_of_problems {f : OpenField} (h : f.problems = [])
    (hkeys : f.field.keys.Pairwise fun a b => sameWord a b = false) : f.field.ObeysRules := by
  obtain ⟨hbounds, hdefault⟩ := List.append_eq_nil_iff.mp h
  have hallows : ∀ s, f.field.default = some (.sentinel s) → f.field.allows s = true := by
    intro s hs
    by_contra hno
    simp [defaultProblems, hs, hno] at hdefault
  refine ⟨hkeys, fun low high hlow hhigh => ?_, hallows .autosize, hallows .autocalculate⟩
  by_contra hno
  simp [boundProblems, hlow, hhigh, hno] at hbounds

end OpenField

/-! ## Objects while they are read -/

namespace OpenObject

/-- What an open object keeps as long as nothing but remarks is found. -/
structure Orderly (o : OpenObject) : Prop where
  object : o.object.IsOrderly
  keys : ∀ f, o.field = some f → f.field.keys.Pairwise fun a b => sameWord a b = false

/-- Finishing a field finds either nothing or something worse than a remark. -/
theorem finishField_of_harmless {o : OpenObject}
    (h : ∀ f ∈ o.finishField.2, f.problem.severity = .info) : o.finishField.2 = [] := by
  refine List.eq_nil_iff_forall_not_mem.mpr fun f hf => ?_
  have hwarning := severity_of_mem_finishField hf
  rw [h f hf] at hwarning
  cases hwarning

theorem Orderly.finishField {o : OpenObject} (h : o.Orderly)
    (hfound : ∀ f ∈ o.finishField.2, f.problem.severity = .info) :
    o.finishField.1.object.IsOrderly := by
  have hnone := finishField_of_harmless hfound
  cases hfield : o.field with
  | none =>
    rw [OpenObject.finishField, hfield]
    exact h.object
  | some f =>
    rw [OpenObject.finishField, hfield] at hnone ⊢
    obtain ⟨hproblems, hrepeated⟩ := List.append_eq_nil_iff.mp (List.map_eq_nil_iff.mp hnone)
    have hrules := OpenField.obeysRules_of_problems hproblems (h.keys f hfield)
    -- had the identifier been there before, it would have been reported
    have hnew : f.field.id ∉ o.object.fields.map Field.id := by
      intro hmem
      obtain ⟨g, hg, hid⟩ := List.mem_map.mp hmem
      rw [if_pos (List.any_eq_true.mpr ⟨g, hg, by simp [hid]⟩)] at hrepeated
      cases hrepeated
    refine ⟨?_, fun g hg => ?_⟩
    · rw [List.map_append]
      exact h.object.ids.append (List.nodup_singleton _) (by simpa using hnew)
    · rcases List.mem_append.mp hg with hg | hg
      · exact h.object.fields g hg
      · rw [List.mem_singleton.mp hg]
        exact hrules.place _ f.field.isLast

/-- **Every edit without warnings keeps an open object orderly.** -/
theorem Orderly.edit {t : Token} {o o' : OpenObject} {found : List Finding} (h : o.Orderly)
    (hedit : o.Edit t o' found) (hfound : ∀ f ∈ found, f.problem.severity = .info) :
    o'.Orderly := by
  cases hedit with
  | close _ ending => exact ⟨h.object, h.keys⟩
  | openField _ _ _ =>
    -- the field before is finished, and the new one has no keys yet
    refine ⟨h.finishField hfound, fun f hf => ?_⟩
    cases hf
    exact List.Pairwise.nil
  | header _ _ hnone _ =>
    obtain ⟨-, hfields, -, hfield, -, -⟩ := o.apply_frame _ _
    refine ⟨⟨?_, ?_⟩, fun f hf => ?_⟩
    · rw [hfields]
      exact h.object.ids
    · rw [hfields]
      exact h.object.fields
    · exact h.keys f (hfield ▸ hf)
  | @field _ argument _ k f _ _ hsome hclassify =>
    unfold applyToField
    cases happly : f.apply k argument with
    | error p =>
      -- a bound that is refused leaves the field as it was
      exact ⟨h.object, h.keys⟩
    | ok out =>
      refine ⟨h.object, fun g hg => ?_⟩
      cases hg
      have htrim := Directive.isTrimmed_argument hclassify
      exact OpenField.pairwise_keys_of_apply happly htrim
        (h.keys f hsome)

theorem Orderly.start (name : String) (group : Option String) (closed : Bool) (line : Nat) :
    (OpenObject.start name group closed line).Orderly :=
  ⟨⟨List.nodup_nil, fun _ hf => absurd hf List.not_mem_nil⟩, fun _ hf => nomatch hf⟩

end OpenObject

/-- **A source in which nothing but remarks was found keeps orderly objects.** -/
theorem Source.isOrderly_of_harmless {text : String}
    (h : ∀ f ∈ (Source.ofText text).findings, f.problem.severity = .info) {o : Object}
    (ho : o ∈ (Source.ofText text).objects) : o.IsOrderly :=
  objects_hold (I := OpenObject.Orderly) (Q := Object.IsOrderly)
    (fun t _ name _ group closed _ _ _ => .start name group closed t.line)
    (fun _ _ _ _ _ hedit hfound horderly => horderly.edit hedit hfound)
    (fun horderly hfound => horderly.finishField hfound) h o ho

/-! ## Numbering -/

/-- Numbering changes the position of a field and nothing else. -/
theorem Object.getElem?_numberedFields {fields : List Field} {i : Nat} {f : Field}
    (h : (numberedFields fields)[i]? = some f) :
    ∃ g, fields[i]? = some g ∧ f = { g with index := i, isLast := i + 1 = fields.length } := by
  rw [numberedFields, List.getElem?_mapIdx] at h
  obtain ⟨g, hg, rfl⟩ := Option.map_eq_some_iff.mp h
  exact ⟨g, hg, rfl⟩

theorem Object.length_numbered (o : Object) : o.numbered.fields.length = o.fields.length :=
  List.length_mapIdx

theorem Object.ids_numbered (o : Object) :
    o.numbered.fields.map Field.id = o.fields.map Field.id := by
  refine List.ext_getElem? fun i => ?_
  simp [numbered, numberedFields, List.getElem?_mapIdx, Function.comp_def]

/-- An orderly object with enough fields obeys all rules once it is numbered. -/
theorem Object.IsOrderly.numbered {o : Object} (h : o.IsOrderly)
    (hcount : o.numbered.countProblems = []) : o.numbered.ObeysRules where
  ids := by
    rw [o.ids_numbered]
    exact h.ids
  fields := by
    intro f hf
    obtain ⟨i, hi⟩ := List.mem_iff_getElem?.mp hf
    obtain ⟨g, hg, rfl⟩ := getElem?_numberedFields hi
    exact (h.fields g (List.mem_of_getElem? hg)).place _ _
  index := by
    intro i f hf
    obtain ⟨g, -, rfl⟩ := getElem?_numberedFields hf
    rfl
  isLast := by
    intro i f hf
    obtain ⟨g, -, rfl⟩ := getElem?_numberedFields hf
    rw [o.length_numbered]
    exact decide_eq_true_iff
  minFields := by
    intro least hleast
    by_contra hno
    simp [countProblems, hleast, Nat.not_le.mp hno] at hcount

/-! ## Strict acceptance -/

/-- What is wrong with a whole object is a warning. -/
theorem Object.severity_of_mem_problems {o : Object} {p : Problem} (h : p ∈ o.problems) :
    p.severity = .warning := by
  have hcount : p ∈ o.countProblems → p.severity = .warning := by
    intro hp
    unfold countProblems at hp
    split at hp
    · split at hp
      · rw [List.mem_singleton.mp hp, Problem.severity]
      · cases hp
    · cases hp
  have hgroup : p ∈ o.groupProblems → p.severity = .warning := by
    intro hp
    unfold groupProblems at hp
    dsimp only at hp
    split at hp
    · split at hp
      · rw [List.mem_singleton.mp hp, Problem.severity]
      · split at hp
        · split at hp
          · rw [List.mem_singleton.mp hp, Problem.severity]
          · cases hp
        · cases hp
    · rw [List.mem_singleton.mp hp, Problem.severity]
    · cases hp
  exact (List.mem_append.mp h).elim hcount hgroup

theorem isOrderly_commentOnly : commentOnly.object.IsOrderly :=
  ⟨List.nodup_nil, fun _ hf => absurd hf List.not_mem_nil⟩

namespace Outcome

/-- A dictionary is strictly accepted exactly if every diagnostic is an info. -/
theorem strictWithWarnings_eq_ok_iff {o : Outcome} {d : Dictionary} :
    o.strictWithWarnings = .ok d ↔
      (∀ x ∈ o.diagnostics, x.severity = .info) ∧ d = o.dictionary := by
  have hinfo : o.diagnostics.problems = [] ↔ ∀ x ∈ o.diagnostics, x.severity = .info := by
    rw [Diagnostics.problems, List.filter_eq_nil_iff]
    refine forall₂_congr fun x _ => ?_
    rw [Diagnostic.isError, Diagnostic.isWarning]
    cases x.severity <;> decide
  unfold strictWithWarnings accept
  rw [← hinfo]
  split
  · next h => simp [h, eq_comm]
  · next h => simp [h]

/-- Whatever source a definition comes from, its object is orderly if there are infos only. -/
theorem isOrderly_of_mem_complete {settings : Settings} {loader : Option Loader} {text : String}
    (h : ∀ x ∈ (merged settings loader text).2, x.severity = .info) {d : Definition}
    (hd : d ∈ settings.complete (merged settings loader text).1.definitions) :
    d.object.IsOrderly := by
  rcases settings.mem_complete hd with rfl | hd
  · exact isOrderly_commentOnly
  · obtain ⟨origin, hobject, hreported⟩ := Resolver.origin_of_mem_expand hd
    exact Source.isOrderly_of_harmless (fun f hf => h _ (hreported f hf)) hobject

/-- **A strictly accepted dictionary obeys all rules.** -/
theorem obeysRules_of_strictWithWarnings {settings : Settings} {loader : Option Loader}
    {text : String} {d : Dictionary}
    (h : (ofText settings loader text).strictWithWarnings = .ok d) :
    ∀ o ∈ d.objects, o.ObeysRules := by
  obtain ⟨hinfo, rfl⟩ := strictWithWarnings_eq_ok_iff.mp h
  rw [diagnostics_ofText] at hinfo
  rw [objects_ofText]
  intro o ho
  obtain ⟨x, hx, rfl⟩ := List.mem_map.mp ho
  have horderly := isOrderly_of_mem_complete
    (fun y hy => hinfo y (List.mem_append_left _ hy)) hx
  refine horderly.numbered (List.eq_nil_iff_forall_not_mem.mpr fun p hcount => ?_)
  have hp : p ∈ x.object.numbered.problems := List.mem_append_left _ hcount
  -- a problem with the count would have been reported where the object was declared
  have hreported : p.report x.numbered.location ∈ ((settings.complete
      (merged settings loader text).1.definitions).map Definition.numbered).flatMap
        Definition.check :=
    List.mem_flatMap.mpr ⟨x.numbered, List.mem_map_of_mem hx, List.mem_map_of_mem hp⟩
  have hseverity : p.severity = .info := hinfo _ (List.mem_append_right _ hreported)
  rw [Object.severity_of_mem_problems hp] at hseverity
  cases hseverity

/-- A source with an object of two fields, and an inclusion behind it. -/
def zoneText : String :=
  "Zone,\n \\min-fields 1\n A1 , \\key Yes\n \\key No\n N1 ; \\minimum 0\n \\maximum< 10\n" ++
    "\\include-file material.idd\n"

def materialLoader : Loader
  | "material.idd" => .ok "Material,\n A1 ; \\autosizable\n \\default autosize\n"
  | name => .error (.notFound name)

/-- The dictionary of both sources and of the object for free comments. -/
def zoneOutcome : Outcome :=
  .ofText { insertCommentOnlyObject := true } (some materialLoader) zoneText

theorem zoneOutcome_obeysRules :
    zoneOutcome.strictWithWarnings = .ok zoneOutcome.dictionary ∧
      zoneOutcome.dictionary.objects.map (·.fields.length) = [0, 2, 1] ∧
      ∀ o ∈ zoneOutcome.dictionary.objects, o.ObeysRules := by
  have hzone : zoneOutcome.diagnostics = [] ∧
      zoneOutcome.dictionary.objects.map (·.fields.length) = [0, 2, 1] := by decide +kernel
  have haccept : zoneOutcome.strictWithWarnings = .ok zoneOutcome.dictionary :=
    strictWithWarnings_eq_ok_iff.mpr ⟨by simp [hzone.1], rfl⟩
  exact ⟨haccept, hzone.2, obeysRules_of_strictWithWarnings haccept⟩

end Outcome

end DataDictionary
