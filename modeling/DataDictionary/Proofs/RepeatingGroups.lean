import DataDictionary.Proofs.Enumerations
import DataDictionary.Proofs.Exports

/-!
# Repeating groups

How many fields stand in front of the repeating group of an object is worked out twice: by the
object, which has an answer for every size and every mark, and by the check of the assembly, which
goes through the same data in another order. The two agree (`Object.groupProblems_eq_nil_iff`). No
source reports on groups, so the warnings about them are exactly those of the objects whose group
does not fit (`Outcome.groupWarnings_exact`). The check may divide by the size, because the pattern
of the directive that declares it does not let it begin with a zero.

The object cannot always answer, though. The fixed fields end where the fields end at the latest,
but the group behind a mark may end beyond the largest count, since a size may be anything below
that. Then there is no group, and there are no bindings (`Outcome.group_missing_iff`). The object is
warned about and kept. Besides that, bindings only need identifiers for the objects.
-/

namespace DataDictionary

namespace Object

variable {o : Object} {group : List Field} {size start : Nat} {p : Problem}

/-! ## Where the group lies -/

theorem groupMark?_lt (h : o.groupMark? = some start) : start < o.fields.length :=
  (List.findIdx?_eq_some_iff_getElem.mp h).1

theorem groupMark?_eq_none_iff :
    o.groupMark? = none ↔ ∀ f ∈ o.fields, f.beginExtensible = false := List.findIdx?_eq_none_iff

theorem fixedCount_of_none (h : o.extensible = none) : o.fixedCount = o.fields.length := by
  rw [fixedCount, h]

theorem fixedCount_of_some (h : o.extensible = some size) :
    o.fixedCount = o.groupMark?.getD (o.fields.length - size) := by
  rw [fixedCount, h]

/-- The fixed fields end where the fields end, or before. -/
theorem fixedCount_le (o : Object) : o.fixedCount ≤ o.fields.length := by
  cases hsize : o.extensible with
  | none => exact Nat.le_of_eq (fixedCount_of_none hsize)
  | some size =>
    rw [fixedCount_of_some hsize]
    cases hmark : o.groupMark? with
    | none => exact Nat.sub_le _ _
    | some start => exact Nat.le_of_lt (groupMark?_lt hmark)

theorem group?_eq_some_iff :
    o.group? = some group ↔ o.fixedCount + o.groupSize < Number.countLimit ∧
      group = (o.fields.drop o.fixedCount).take o.groupSize := by
  rw [group?, Option.ite_none_right_eq_some, Option.some.injEq, eq_comm (a := group)]

theorem group?_eq_none_iff :
    o.group? = none ↔ Number.countLimit ≤ o.fixedCount + o.groupSize := by
  rw [group?, ite_eq_right_iff, ← Nat.not_lt]
  exact ⟨fun h hlt => (by cases h hlt), fun h hlt => absurd hlt h⟩

/-- The fixed fields and the group behind them are the first fields of the object. -/
theorem fixedFields_append_group (h : o.group? = some group) :
    o.fixedFields ++ group <+: o.fields := by
  obtain ⟨-, rfl⟩ := group?_eq_some_iff.mp h
  rw [fixedFields, ← List.take_add]
  exact List.take_prefix _ _

theorem length_group (h : o.group? = some group) :
    group.length = min o.groupSize (o.fields.length - o.fixedCount) := by
  obtain ⟨-, rfl⟩ := group?_eq_some_iff.mp h
  rw [List.length_take, List.length_drop]

/-! ## Whether the group fits -/

/-- A group of an object does not fit: it is not of the size that the object declares, or the fields
behind the fixed ones do not make up whole groups, or a group is marked and no size declared. -/
def Misfits (o : Object) (group : List Field) : Prop :=
  match o.extensible with
  | none => ∃ f ∈ o.fields, f.beginExtensible = true
  | some size => ¬ (group.length = size ∧ size ∣ o.fields.length - o.fixedCount)

theorem misfits_of_none (h : o.extensible = none) :
    o.Misfits group ↔ ∃ f ∈ o.fields, f.beginExtensible = true := by
  rw [Misfits, h]

theorem misfits_of_some (h : o.extensible = some size) :
    o.Misfits group ↔ ¬ (group.length = size ∧ size ∣ o.fields.length - o.fixedCount) := by
  rw [Misfits, h]

/-- At most one thing is wrong with a group. -/
theorem groupProblems_cases (o : Object) :
    o.groupProblems = [] ∨
      ∃ p, o.groupProblems = [p] ∧ p.kind = .extensibleMismatch ∧ p.severity = .warning := by
  unfold groupProblems
  dsimp only
  split
  · split
    · exact .inr ⟨_, rfl, rfl, rfl⟩
    · split
      · split
        · exact .inr ⟨_, rfl, rfl, rfl⟩
        · exact .inl rfl
      · exact .inl rfl
  · exact .inr ⟨_, rfl, rfl, rfl⟩
  · exact .inl rfl

theorem kind_of_mem_groupProblems (h : p ∈ o.groupProblems) : p.kind = .extensibleMismatch := by
  rcases o.groupProblems_cases with hnil | ⟨q, hq, hkind, -⟩
  · rw [hnil] at h
    cases h
  · rw [hq] at h
    rwa [List.mem_singleton.mp h]

theorem kind_of_mem_countProblems (h : p ∈ o.countProblems) :
    p.kind = .minFieldsExceedsFieldCount := by
  unfold countProblems at h
  split at h
  · split at h
    · rw [List.mem_singleton.mp h, Problem.kind]
    · cases h
  · cases h

/-- What the check objects to, in the terms of the check. -/
theorem groupProblems_ne_nil_iff_of_some (h : o.extensible = some size) :
    o.groupProblems ≠ [] ↔ o.fields.length < size ∨
      ∃ start, o.groupMark? = some start ∧
        (¬ size ∣ o.fields.length - start ∨ o.fields.length - start < size) := by
  rw [groupProblems, h]
  dsimp only
  split
  next hlt => simp [hlt]
  next hle =>
    cases hmark : o.groupMark? with
    | none => simp [hle]
    | some start => simp [hle, Nat.dvd_iff_mod_eq_zero, Classical.or_iff_not_imp_left]

theorem groupProblems_eq_nil_iff_of_none (h : o.extensible = none) :
    o.groupProblems = [] ↔ ¬ o.Misfits group := by
  rw [misfits_of_none h, groupProblems, h]
  cases hmark : o.groupMark? with
  | none =>
    rw [groupMark?_eq_none_iff] at hmark
    refine iff_of_true rfl fun ⟨f, hf, hbegin⟩ => ?_
    rw [hmark f hf] at hbegin
    cases hbegin
  | some start =>
    obtain ⟨hlt, hbegin, -⟩ := List.findIdx?_eq_some_iff_getElem.mp hmark
    exact iff_of_false (List.cons_ne_nil _ _) (not_not_intro ⟨_, List.getElem_mem hlt, hbegin⟩)

/-- Without a mark the group takes up the last fields, if there are so many. -/
theorem misfits_iff_of_unmarked (h : o.extensible = some size) (hmark : o.groupMark? = none)
    (hgroup : o.group? = some group) : o.Misfits group ↔ o.fields.length < size := by
  rw [misfits_of_some h, length_group hgroup, groupSize, fixedCount_of_some h, hmark, h,
    Option.getD_none, Option.getD_some]
  constructor
  · intro hmisfits
    by_contra hle
    have hrest : o.fields.length - (o.fields.length - size) = size := by omega
    rw [hrest, Nat.min_self] at hmisfits
    exact hmisfits ⟨rfl, Nat.dvd_refl size⟩
  · intro hlt hfits
    omega

theorem misfits_iff_of_marked (h : o.extensible = some size) (hmark : o.groupMark? = some start)
    (hgroup : o.group? = some group) :
    o.Misfits group ↔ ¬ size ∣ o.fields.length - start ∨ o.fields.length - start < size := by
  rw [misfits_of_some h, length_group hgroup, groupSize, fixedCount_of_some h, hmark, h,
    Option.getD_some, Option.getD_some, min_eq_left_iff, not_and_or, Nat.not_le, or_comm]

/-- **The check finds fault with an object exactly if its group does not fit.** -/
theorem groupProblems_eq_nil_iff (h : o.group? = some group) :
    o.groupProblems = [] ↔ ¬ o.Misfits group := by
  cases hsize : o.extensible with
  | none => exact groupProblems_eq_nil_iff_of_none hsize
  | some size =>
    rw [← not_iff_not, ← ne_eq, groupProblems_ne_nil_iff_of_some hsize, not_not]
    cases hmark : o.groupMark? with
    | none =>
      rw [misfits_iff_of_unmarked hsize hmark h]
      simp
    | some start =>
      -- a group that does not fit into all fields does not fit into those behind the mark
      rw [misfits_iff_of_marked hsize hmark h]
      refine ⟨?_, fun hbad => .inr ⟨start, rfl, hbad⟩⟩
      rintro (hlt | ⟨_, hsame, hbad⟩)
      · exact .inr (by omega)
      · cases hsame
        exact hbad

/-! ## Where there is no group -/

/-- There is no group if it would end beyond the largest count: the group behind a mark because of
its size, or one without a mark because there are so many fields. -/
theorem group?_eq_none_iff_of_lt (h : ∀ size ∈ o.extensible, size < Number.countLimit) :
    o.group? = none ↔
      (∃ size start, o.extensible = some size ∧ o.groupMark? = some start ∧
        Number.countLimit ≤ start + size) ∨
      ((o.extensible = none ∨ o.groupMark? = none) ∧ Number.countLimit ≤ o.fields.length) := by
  rw [group?_eq_none_iff, groupSize]
  cases hsize : o.extensible with
  | none =>
    rw [fixedCount_of_none hsize]
    simp
  | some size =>
    have hlt := h size hsize
    rw [fixedCount_of_some hsize]
    cases hmark : o.groupMark? with
    | some start => simp
    | none =>
      -- the group ends where the fields end, or where it would if it did not begin before them
      rw [Option.getD_none, Option.getD_some]
      simp only [reduceCtorEq, false_and, and_false, exists_const, false_or, or_true, true_and]
      omega

/-- An object without a group is found fault with, as long as its fields can be counted. -/
theorem groupProblems_ne_nil_of_group? (hlength : o.fields.length < Number.countLimit)
    (h : ∀ size ∈ o.extensible, size < Number.countLimit) (hnone : o.group? = none) :
    o.groupProblems ≠ [] := by
  rcases (group?_eq_none_iff_of_lt h).mp hnone with ⟨size, start, hsize, hmark, hend⟩ | ⟨-, hle⟩
  · have hstart := groupMark?_lt hmark
    rw [groupProblems_ne_nil_iff_of_some hsize]
    exact .inr ⟨start, hmark, .inr (by omega)⟩
  · exact absurd hlength (Nat.not_lt.mpr hle)

/-! ## Numbered fields -/

/-- Every field has its position for an index. -/
def IsNumbered (o : Object) : Prop := ∀ (i : Nat) (f : Field), o.fields[i]? = some f → f.index = i

theorem isNumbered_numbered (o : Object) : o.numbered.IsNumbered := by
  intro i f hf
  obtain ⟨g, -, rfl⟩ := getElem?_numberedFields hf
  rfl

/-- The fields of a group are numbered on from the fixed ones. -/
theorem IsNumbered.index_group (hnumbered : o.IsNumbered) (h : o.group? = some group) {i : Nat}
    {f : Field} (hf : group[i]? = some f) : f.index = o.fixedCount + i := by
  obtain ⟨-, rfl⟩ := group?_eq_some_iff.mp h
  rw [List.getElem?_take, Option.ite_none_right_eq_some, List.getElem?_drop] at hf
  exact hnumbered _ f hf.2

/-- All that stands against numbering the group of an object is that there is none. -/
theorem IsNumbered.isNumberable_iff (hnumbered : o.IsNumbered) :
    Bindings.IsNumberable o ↔ ¬ (o.isExtensible = true ∧ o.group? = none) := by
  unfold Bindings.IsNumberable
  constructor
  · rintro h ⟨hextensible, hnone⟩
    obtain ⟨group, hsome, -⟩ := h hextensible
    cases hnone.symm.trans hsome
  · intro h hextensible
    obtain ⟨group, hgroup⟩ := Option.ne_none_iff_exists'.mp fun hnone => h ⟨hextensible, hnone⟩
    refine ⟨group, hgroup, fun f hf => ?_⟩
    obtain ⟨i, hi⟩ := List.mem_iff_getElem?.mp hf
    rw [hnumbered.index_group hgroup hi]
    cases group with
    | nil => cases hf
    | cons first rest =>
      have hfirst := hnumbered.index_group hgroup (i := 0) rfl
      rw [Bindings.startOf, List.head?_cons, Option.map_some, Option.getD_some, hfirst]
      omega

end Object

/-! ## The size of a group -/

/-- A group has a size that is not zero. -/
def Object.HasGroupSize (o : Object) : Prop := ∀ size ∈ o.extensible, 0 < size

/-- Of the rules in the header, one reads the size of a group. -/
theorem Rule.eq_of_extensible {r : Rule} (h : r ∈ Scope.object.rules)
    (hkeyword : r.keyword = .object .extensible) :
    r = ofObject .extensible "Extensible" .groupSize := by
  revert r
  decide

theorem isDigit_of_mem_leadingDigits {cs ds : List Char} (h : leadingDigits? cs = some ds) :
    ∀ c ∈ ds, c.isDigit = true := by
  unfold leadingDigits? at h
  split at h
  · cases h
  · cases h
    exact fun c hc => List.mem_takeWhile_imp hc

/-- The size of a group begins with a digit other than zero. -/
theorem ArgumentForm.head_groupSize {cs ds : List Char} (h : groupSize.read? cs = some ds) :
    ∀ c ∈ ds.head?, c.isDigit = true ∧ c ≠ '0' := by
  simp only [read?, Option.bind_eq_bind, Option.bind_eq_some_iff, Option.ite_none_left_eq_some,
    Option.some.injEq] at h
  obtain ⟨_, -, _, hdigits, hzero, rfl⟩ := h
  exact fun c hc => ⟨isDigit_of_mem_leadingDigits hdigits c (List.mem_of_mem_head? hc),
    fun heq => hzero (heq ▸ hc)⟩

/-- So it is not zero, unless it is no count at all. -/
theorem Directive.pos_of_extensible {text argument : String} {size : Nat}
    (h : classify? .object text = some ⟨.object .extensible, argument⟩)
    (hsize : Number.readCount? argument = some size) : 0 < size := by
  obtain ⟨rule, hmem, hkeyword, hargument⟩ := exists_rule_of_classify? h
  rw [Rule.eq_of_extensible hmem hkeyword] at hargument
  obtain ⟨_, -, hargument⟩ := Option.bind_eq_some_iff.mp hargument
  obtain ⟨ds, hds, hargument⟩ := Option.bind_eq_some_iff.mp hargument
  have hargument : String.ofList (Text.trim ds) = argument := Option.some.inj hargument
  have htrim : argument.toList = Text.trim ds := by
    rw [← hargument, String.toList_ofList]
  obtain ⟨hread, -⟩ := Option.filter_eq_some_iff.mp hsize
  rw [htrim, Text.readNat?, Option.ite_none_right_eq_some] at hread
  obtain ⟨⟨hne, -⟩, hnumeral⟩ := hread
  cases ds with
  | nil => exact absurd rfl hne
  | cons d ds =>
    obtain ⟨hdigit, hzero⟩ := ArgumentForm.head_groupSize hds d rfl
    obtain ⟨rest, hrest⟩ := Text.exists_trim_cons (Text.isBlank_of_isDigit hdigit) ds
    rw [hrest] at hnumeral
    exact Option.some.inj hnumeral ▸ Text.numeral_pos hdigit hzero rest

/-! ### The objects of a source -/

/-- An edit declares no group of size zero. -/
theorem OpenObject.hasGroupSize_edit {t : Token} {o o' : OpenObject} {found : List Finding}
    (h : o.object.HasGroupSize) (hedit : o.Edit t o' found) : o'.object.HasGroupSize := by
  have hfinish : o.finishField.1.object.HasGroupSize := by
    unfold finishField
    split <;> exact h
  cases hedit with
  | close _ _ => exact h
  | openField _ _ _ => exact hfinish
  | @header _ argument _ k _ _ _ hclassify =>
    cases k with
    | extensible =>
      intro size hsize
      refine Directive.pos_of_extensible hclassify ?_
      have hcount : _ = Number.readCount? argument := o.count_apply .extensible argument .extensible
      exact hcount.symm.trans hsize
    | _ => exact h
  | field _ _ _ _ =>
    unfold applyToField
    split <;> exact h

theorem Source.hasGroupSize {text : String} {o : Object} (h : o ∈ (Source.ofText text).objects) :
    o.HasGroupSize := by
  have hnamed : ∀ {name : String} {group : Option String},
      Object.HasGroupSize { name, group } := fun _ hsize => (by cases hsize)
  refine objects_hold (I := fun o => o.object.HasGroupSize) (Q := Object.HasGroupSize)
    (fun _ _ _ _ _ _ _ _ _ => hnamed)
    (fun _ _ _ _ _ hedit _ hsize => OpenObject.hasGroupSize_edit hsize hedit)
    (fun {o} hsize _ => ?_) (fun _ _ => trivial) o h
  unfold OpenObject.finishField
  split <;> exact hsize

/-! ## Who reports on groups -/

theorem Problem.IsRemark.kind_ne {p : Problem} (h : p.IsRemark) : p.kind ≠ .extensibleMismatch := by
  cases h <;> exact fun hkind => (by cases hkind)

theorem Problem.IsOfField.kind_ne {p : Problem} (h : p.IsOfField) :
    p.kind ≠ .extensibleMismatch := by
  cases h <;> exact fun hkind => (by cases hkind)

theorem Problem.IsOfEnd.kind_ne {p : Problem} (h : p.IsOfEnd) : p.kind ≠ .extensibleMismatch := by
  cases h <;> exact fun hkind => (by cases hkind)

theorem Problem.IsOfDirective.kind_ne {p : Problem} (h : p.IsOfDirective) :
    p.kind ≠ .extensibleMismatch := by
  cases h <;> exact fun hkind => (by cases hkind)

/-- No source reports on groups. -/
theorem Source.kind_of_mem_findings {text : String} :
    ∀ f ∈ (Source.ofText text).findings, f.problem.kind ≠ .extensibleMismatch := by
  refine Source.found_of_move fun hm f hf => ?_
  rcases hm.found_cases hf with hremark | hfield | hend | ⟨hdirective, -⟩
  · exact hremark.kind_ne
  · exact hfield.kind_ne
  · exact hend.kind_ne
  · exact hdirective.kind_ne

namespace Resolver

theorem Refuses.kind_ne {r : Resolver} {chain : List String} {d : Inclusion} {p : Problem}
    (h : r.Refuses chain d p) : p.kind ≠ .extensibleMismatch := by
  cases h <;> exact fun hkind => (by cases hkind)

/-- Neither does merging sources. -/
theorem kind_of_mem_expand (r : Resolver) (label : Option String) (chain : List String)
    (text : String) :
    ∀ x ∈ (r.expand label chain (.ofText text)).2, x.kind ≠ .extensibleMismatch := by
  refine expand_induction r
    (C := fun label chain text =>
      ∀ x ∈ (r.expand label chain (.ofText text)).2, x.kind ≠ .extensibleMismatch)
    (fun label chain text ih x hx => ?_) label chain text
  obtain ⟨parts, hparts, -, hdiagnostics⟩ := r.expand_contributions label chain (.ofText text)
  rw [hdiagnostics] at hx
  rcases List.mem_append.mp hx with hx | hx
  · obtain ⟨f, hf, rfl⟩ := List.mem_map.mp hx
    exact Source.kind_of_mem_findings f hf
  · obtain ⟨part, hpart, hx⟩ := List.mem_flatMap.mp hx
    obtain ⟨item, -, taken, hcontributes⟩ := hparts.exists_of_mem hpart
    cases hcontributes with
    | object _ _ | group _ => cases hx
    | refused hrefuses =>
      rw [List.mem_singleton.mp hx]
      exact hrefuses.kind_ne
    | @followed d inner hfollows =>
      rcases List.mem_append.mp hx with hx | hx
      · exact ih d inner hfollows x hx
      · obtain ⟨p, hp, rfl⟩ := List.mem_map.mp hx
        rcases List.mem_append.mp hp with hp | hp
        · obtain ⟨name, -, rfl⟩ := List.mem_map.mp hp
          exact fun hkind => (by cases hkind)
        · obtain ⟨y, -, rfl⟩ := List.mem_map.mp hp
          exact fun hkind => (by cases hkind)

end Resolver

namespace Outcome

/-- The warnings about groups are those of the definitions, in their order. -/
theorem ofKind_extensibleMismatch (settings : Settings) (loader : Option Loader) (text : String) :
    (ofText settings loader text).diagnostics.ofKind .extensibleMismatch =
      (definitions settings loader text).flatMap fun x =>
        x.object.groupProblems.map (·.report x.location) := by
  have hmerged : (merged settings loader text).2.filter (·.kind == .extensibleMismatch) = [] := by
    rw [List.filter_eq_nil_iff]
    intro x hx
    rw [beq_iff_eq]
    exact Resolver.kind_of_mem_expand _ _ _ _ x hx
  rw [diagnostics_eq, Diagnostics.ofKind, List.filter_append, hmerged, List.nil_append,
    List.filter_flatMap]
  refine congrArg (List.flatMap · _) (funext fun x => ?_)
  have hcount : (x.object.countProblems.map (·.report x.location)).filter
      (·.kind == .extensibleMismatch) = [] := by
    rw [List.filter_eq_nil_iff]
    intro y hy
    obtain ⟨p, hp, rfl⟩ := List.mem_map.mp hy
    simp [Problem.report, Object.kind_of_mem_countProblems hp]
  have hgroup : (x.object.groupProblems.map (·.report x.location)).filter
      (·.kind == .extensibleMismatch) = x.object.groupProblems.map (·.report x.location) := by
    rw [List.filter_eq_self]
    intro y hy
    obtain ⟨p, hp, rfl⟩ := List.mem_map.mp hy
    simp [Problem.report, Object.kind_of_mem_groupProblems hp]
  rw [Definition.check, Object.problems, List.map_append, List.filter_append, hcount, hgroup,
    List.nil_append]

/-- **The warnings about repeating groups are exact.** A definition has one if its group does not
fit, and none if it does, whenever there is a group at all. The fixed fields and the group are the
first fields, and no group is of size zero. -/
theorem groupWarnings_exact (settings : Settings) (loader : Option Loader) (text : String) :
    let o := ofText settings loader text
    let ds := definitions settings loader text
    o.dictionary.objects = ds.map (·.object) ∧
    o.diagnostics.ofKind .extensibleMismatch =
      (ds.flatMap fun x => x.object.groupProblems.map (·.report x.location)) ∧
    ∀ x ∈ ds, x.object.HasGroupSize ∧
      ∀ group, x.object.group? = some group →
        x.object.fixedFields ++ group <+: x.object.fields ∧
        ((∃ p, x.object.groupProblems = [p] ∧ p.severity = .warning) ↔ x.object.Misfits group) ∧
        (x.object.groupProblems = [] ↔ ¬ x.object.Misfits group) := by
  intro o ds
  refine ⟨objects_eq settings loader text, ofKind_extensibleMismatch settings loader text,
    fun x hx => ⟨?_, fun group hgroup => ?_⟩⟩
  · obtain ⟨y, hy, rfl⟩ := List.mem_map.mp hx
    exact forall_definitions (P := Object.HasGroupSize) (fun _ hsize => (by cases hsize))
      (fun _ _ => Source.hasGroupSize) settings loader text y hy
  · have hfits := Object.groupProblems_eq_nil_iff hgroup
    refine ⟨Object.fixedFields_append_group hgroup, ?_, hfits⟩
    rw [← not_iff_not, ← hfits]
    rcases x.object.groupProblems_cases with hnil | ⟨p, hp, -, hseverity⟩
    · simp [hnil]
    · simp [hp, hseverity]

/-- **When the repeating group of an object is missing, and what it takes along.** The fixed fields
never reach beyond the fields. A group is missing if and only if it would end beyond the largest
count, and then, unless the fields themselves are so many, the object is warned about. Bindings are
missing if and only if the objects have no identifiers or, where enumerations of fields are asked
for, the group of an extensible object is missing. -/
theorem group_missing_iff (settings : Settings) (loader : Option Loader) (text : String)
    (options : Bindings.Options) :
    let d := (ofText settings loader text).dictionary
    (∀ o ∈ d.objects, o.fixedCount ≤ o.fields.length ∧
      (o.group? = none ↔
        (∃ size start, o.extensible = some size ∧ o.groupMark? = some start ∧
          Number.countLimit ≤ start + size) ∨
        ((o.extensible = none ∨ o.groupMark? = none) ∧
          Number.countLimit ≤ o.fields.length)) ∧
      (o.fields.length < Number.countLimit → o.group? = none → o.groupProblems ≠ [])) ∧
    (Bindings.render? options d = none ↔
      Bindings.objectIdents? d = none ∨
        options.fieldEnums = true ∧ ∃ o ∈ d.objects, o.isExtensible = true ∧ o.group? = none) := by
  intro d
  have hcounts : ∀ o ∈ d.objects, ∀ size ∈ o.extensible, size < Number.countLimit := by
    intro o ho
    rw [objects_eq] at ho
    obtain ⟨_, hnumbered, rfl⟩ := List.mem_map.mp ho
    obtain ⟨x, hx, rfl⟩ := List.mem_map.mp hnumbered
    exact (forall_definitions (P := Object.CountsFit) (Object.countsFit_named _ _)
      (fun _ _ => Source.countsFit) settings loader text x hx).extensible
  have hnumbered : ∀ o ∈ d.objects, o.IsNumbered := by
    intro o ho
    rw [objects_ofText] at ho
    obtain ⟨x, -, rfl⟩ := List.mem_map.mp ho
    exact x.object.isNumbered_numbered
  refine ⟨fun o ho => ⟨o.fixedCount_le, Object.group?_eq_none_iff_of_lt (hcounts o ho),
    fun hlength => Object.groupProblems_ne_nil_of_group? hlength (hcounts o ho)⟩, ?_⟩
  have hsome : (∃ code, Bindings.render? options d = some code) ↔
      (∃ idents, Bindings.objectIdents? d = some idents) ∧
        (options.fieldEnums = true → ∀ o ∈ d.objects, Bindings.IsNumberable o) := by
    constructor
    · rintro ⟨code, hcode⟩
      obtain ⟨idents, hidents, hall, -⟩ := Bindings.render?_eq_some_iff.mp hcode
      exact ⟨⟨idents, hidents⟩, hall⟩
    · rintro ⟨⟨idents, hidents⟩, hall⟩
      exact ⟨_, Bindings.render?_eq_some_iff.mpr ⟨idents, hidents, hall, rfl⟩⟩
  rw [← not_iff_not, ← ne_eq, Option.ne_none_iff_exists', hsome, not_or, ← ne_eq,
    Option.ne_none_iff_exists', not_and]
  refine and_congr_right fun _ => forall_congr' fun _ => ?_
  rw [not_exists]
  refine forall_congr' fun o => ?_
  rw [not_and]
  exact forall_congr' fun ho => (hnumbered o ho).isNumberable_iff

/-- The declared size is the largest of all counts, and the second field is marked. -/
def boundlessZone : String :=
  "Zone,\n\\extensible:18446744073709551615\nA1,\nA2;\n\\begin-extensible\n"

/-- That text makes a dictionary, with a warning, that has neither the group nor bindings. -/
theorem boundlessZone_group_missing :
    let o := ofText {} none boundlessZone
    o.diagnostics.map (fun x => (x.severity, x.kind)) = [(.warning, .extensibleMismatch)] ∧
      o.dictionary.objects.map (fun z => (z.name, z.fixedCount, z.group?)) = [("Zone", 1, none)] ∧
      Bindings.render? {} o.dictionary = none ∧
      ¬ ∀ z ∈ o.dictionary.objects, ∃ group, z.group? = some group := by
  have hobjects : (ofText {} none boundlessZone).dictionary.objects.map
      (fun z => (z.name, z.fixedCount, z.group?)) = [("Zone", 1, none)] := by
    decide +kernel
  refine ⟨by decide +kernel, hobjects, by decide +kernel, fun hall => ?_⟩
  have hzone : ("Zone", 1, none) ∈ (ofText {} none boundlessZone).dictionary.objects.map
      (fun z => (z.name, z.fixedCount, z.group?)) := hobjects ▸ List.mem_singleton_self _
  obtain ⟨z, hz, hmissing⟩ := List.mem_map.mp hzone
  obtain ⟨group, hgroup⟩ := hall z hz
  have hnone : z.group? = none := congrArg (·.2.2) hmissing
  cases hnone.symm.trans hgroup

end Outcome

end DataDictionary
