import DataDictionary.Proofs.FieldMarkers

/-!
# Fields are read one by one

Behind a field marker, each directive of the field is applied to what those before it have made of
the field (`OpenField.obeyAll`). Nothing else has a part in it: neither the header nor the fields
before matter, except that the header may have announced the repeating group. So a field of an
object is what its own directives make of a field that has only its identifier, and what is found
about these directives is found by themselves (`Declaration.fieldReadings`).

A property of all fields can thus be proved by induction on a list of directives, without another
look at tokens and open objects.
-/

namespace DataDictionary

/-- The directives of a field, in their order. -/
def FieldDeclaration.allDirectives (s : FieldDeclaration) : List FieldDirective :=
  s.behind.filterMap Token.fieldDirective?

/-! ## Applying directives -/

namespace OpenField

/-- What becomes of a field at a directive, and what is found. A field that cannot take a directive
stays as it is. -/
def obey (f : OpenField) (d : FieldDirective) : OpenField × List Finding :=
  match f.apply d.keyword d.argument with
  | .ok (f', problems) => (f', problems.map (Finding.mk d.line))
  | .error problem => (f, [⟨d.line, problem⟩])

/-- Applies directives one after the other. -/
def obeyAll (f : OpenField) : List FieldDirective → OpenField × List Finding
  | [] => (f, [])
  | d :: ds => (((f.obey d).1.obeyAll ds).1, (f.obey d).2 ++ ((f.obey d).1.obeyAll ds).2)

theorem obeyAll_append (f : OpenField) (ds es : List FieldDirective) :
    f.obeyAll (ds ++ es) =
      (((f.obeyAll ds).1.obeyAll es).1, (f.obeyAll ds).2 ++ ((f.obeyAll ds).1.obeyAll es).2) := by
  induction ds generalizing f with
  | nil => rfl
  | cons d ds ih => rw [List.cons_append, obeyAll, ih, obeyAll, List.append_assoc]

theorem obeyAll_singleton (f : OpenField) (d : FieldDirective) : f.obeyAll [d] = f.obey d := by
  rw [obeyAll, obeyAll, List.append_nil]

/-- A directive does not change which field it is. -/
theorem id_obey (f : OpenField) (d : FieldDirective) : (f.obey d).1.field.id = f.field.id := by
  unfold obey
  rcases f.apply_cases d.keyword d.argument with
    ⟨_, _, _, -, -, -, happly⟩ | ⟨f', _, happly, -, hid, -⟩
  · rw [happly]
  · rw [happly]
    exact hid

theorem id_obeyAll (f : OpenField) (ds : List FieldDirective) :
    (f.obeyAll ds).1.field.id = f.field.id := by
  induction ds generalizing f with
  | nil => rfl
  | cons d ds ih => rw [obeyAll, ih, id_obey]

end OpenField

/-- The findings about directives of fields. -/
def Finding.ofFieldDirectives (found : List Finding) : List Finding :=
  found.filter (·.isOfFieldDirective)

theorem Finding.ofFieldDirectives_append (found more : List Finding) :
    ofFieldDirectives (found ++ more) = ofFieldDirectives found ++ ofFieldDirectives more :=
  List.filter_append _ _

theorem Finding.ofFieldDirectives_eq_nil {found : List Finding}
    (h : ∀ f ∈ found, f.isOfFieldDirective = false) : ofFieldDirectives found = [] :=
  List.filter_eq_nil_iff.mpr fun f hf => by rw [h f hf]; exact Bool.false_ne_true

/-- What becomes of a field whose marker is read, once all of its directives are applied. -/
def FieldDeclaration.Reads (s : FieldDeclaration) (r : OpenField × List Finding) : Prop :=
  ∃ line ahead,
    r = OpenField.obeyAll { field := { id := s.id, beginExtensible := ahead }, line }
      s.allDirectives

/-! ## One token -/

namespace OpenObject

variable {o : OpenObject} {f : OpenField} {t : Token}

/-- An open object applies a directive to its open field. -/
theorem applyToField_eq_obey (hf : o.field = some f) (d : FieldDirective) :
    (o.applyToField f d.keyword d.argument).1.field = some (f.obey d).1 ∧
      (o.applyToField f d.keyword d.argument).1.object = o.object ∧
      (o.applyToField f d.keyword d.argument).2.map (Finding.mk d.line) = (f.obey d).2 := by
  unfold applyToField OpenField.obey
  cases f.apply d.keyword d.argument with
  | ok applied => exact ⟨rfl, rfl, rfl⟩
  | error problem => exact ⟨hf, rfl, rfl⟩

/-- **Behind a field marker, the field obeys the directive that a token is.** -/
theorem take_behind (hf : o.field = some f) (hmark : t.marker? = none) :
    (o.take t).1.field = some (f.obeyAll t.fieldDirective?.toList).1 ∧
      (o.take t).1.object = o.object ∧
      Finding.ofFieldDirectives (o.take t).2 =
        Finding.ofFieldDirectives (f.obeyAll t.fieldDirective?.toList).2 := by
  rcases take_behind_cases hf hmark with
    ⟨d, ending, hd, htake⟩ | ⟨hnone, hfield, hobject, -, hfound⟩
  · obtain ⟨hfield, hobject, hfound⟩ := applyToField_eq_obey hf d
    rw [htake, hd, Option.toList_some, OpenField.obeyAll_singleton]
    exact ⟨hfield, hobject, congrArg Finding.ofFieldDirectives hfound⟩
  · rw [hnone]
    exact ⟨hfield, hobject, Finding.ofFieldDirectives_eq_nil hfound⟩

end OpenObject

/-! ## One field after the other -/

/-- The directives of a field up to the next field marker. -/
def Token.leadingDirectives (ts : List Token) : List FieldDirective :=
  (ts.takeWhile (·.marker? == none)).filterMap fieldDirective?

namespace Token

variable {t : Token}

theorem leadingDirectives_of_marker {id : FieldId} (h : t.marker? = some id) (ts : List Token) :
    leadingDirectives (t :: ts) = [] := by
  rw [leadingDirectives, List.takeWhile_cons_of_neg (by simp [h]), List.filterMap_nil]

theorem leadingDirectives_of_none (h : t.marker? = none) (ts : List Token) :
    leadingDirectives (t :: ts) = t.fieldDirective?.toList ++ leadingDirectives ts := by
  rw [leadingDirectives, List.takeWhile_cons_of_pos (by simp [h]), List.filterMap_cons]
  cases t.fieldDirective? <;> rfl

end Token

namespace OpenObject

/-- What the open field becomes, if there is one, by directives that are still to come. -/
def openReading (o : OpenObject) (ds : List FieldDirective) : List (OpenField × List Finding) :=
  (o.field.map (·.obeyAll ds)).toList

/-- The tokens `ts` have taken the open object from `o` to `o'`. The open field and those behind it
have been read one by one, with these readings. -/
structure HasRead (ts : List Token) (o o' : OpenObject) (found : List Finding)
    (readings : List (OpenField × List Finding)) : Prop where
  fields : o'.finishField.1.object.fields.map Field.unplaced =
    o.object.fields.map Field.unplaced ++
      (o.openReading (Token.leadingDirectives ts) ++ readings).map (·.1.field.unplaced)
  found : Finding.ofFieldDirectives found =
    Finding.ofFieldDirectives
      ((o.openReading (Token.leadingDirectives ts) ++ readings).flatMap (·.2))

variable {o o' : OpenObject} {f : OpenField} {t : Token} {ts : List Token} {more : List Finding}
  {readings : List (OpenField × List Finding)}

theorem hasRead_nil (o : OpenObject) : HasRead [] o o [] [] := by
  refine ⟨?_, ?_⟩
  · rw [o.finishField_joins.1, openReading, List.append_nil]
    cases o.field <;> rfl
  · unfold openReading
    cases o.field <;> rfl

/-- In the header there is no field to be read. -/
theorem hasRead_header (hf : o.field = none) (hmark : t.marker? = none)
    (h : HasRead ts (o.take t).1 o' more readings) :
    HasRead (t :: ts) o o' ((o.take t).2 ++ more) readings := by
  obtain ⟨hnone, hfields, -, hheader⟩ := take_header hf hmark
  obtain ⟨hread, hfound⟩ := h
  rw [openReading, hnone] at hread hfound
  refine ⟨?_, ?_⟩
  · rw [hread, hfields, openReading, hf]
    rfl
  · rw [Finding.ofFieldDirectives_append, Finding.ofFieldDirectives_eq_nil hheader, hfound,
      openReading, hf]
    rfl

/-- A token behind a field marker comes in front of the directives that follow. -/
theorem hasRead_behind (hf : o.field = some f) (hmark : t.marker? = none)
    (h : HasRead ts (o.take t).1 o' more readings) :
    HasRead (t :: ts) o o' ((o.take t).2 ++ more) readings := by
  obtain ⟨hfield, hobject, htoken⟩ := take_behind hf hmark
  obtain ⟨hread, hfound⟩ := h
  rw [openReading, hfield] at hread hfound
  have hreading : o.openReading (Token.leadingDirectives (t :: ts)) =
      [f.obeyAll (t.fieldDirective?.toList ++ Token.leadingDirectives ts)] := by
    rw [openReading, hf, Token.leadingDirectives_of_none hmark]
    rfl
  refine ⟨?_, ?_⟩
  · rw [hread, hobject, hreading, OpenField.obeyAll_append]
    rfl
  · rw [Finding.ofFieldDirectives_append, htoken, hfound, hreading, OpenField.obeyAll_append,
      ← Finding.ofFieldDirectives_append]
    simp

/-- A field marker ends the open field, with no directive in front of it, and begins another. -/
theorem hasRead_marker {id : FieldId} (hmark : t.marker? = some id)
    (h : HasRead ts (o.take t).1 o' more readings) :
    ∃ r, (Token.declarationOf id ts).Reads r ∧
      HasRead (t :: ts) o o' ((o.take t).2 ++ more) (r :: readings) := by
  obtain ⟨⟨ahead, hfield⟩, hfields, -, htoken⟩ := take_marker hmark o
  obtain ⟨hread, hfound⟩ := h
  rw [openReading, hfield] at hread hfound
  refine ⟨_, ⟨t.line, ahead, rfl⟩, ?_, ?_⟩
  · rw [hread, hfields, openReading, Token.leadingDirectives_of_marker hmark, List.append_assoc]
    cases o.field <;> rfl
  · rw [Finding.ofFieldDirectives_append, Finding.ofFieldDirectives_eq_nil htoken, hfound,
      openReading, Token.leadingDirectives_of_marker hmark]
    cases o.field <;> rfl

/-- **The open field and the fields behind it are read one by one.** -/
theorem takeAll_hasRead (o : OpenObject) (ts : List Token) :
    ∃ readings, List.Forall₂ FieldDeclaration.Reads (Token.fieldDeclarations ts) readings ∧
      HasRead ts o (o.takeAll ts).1 (o.takeAll ts).2 readings := by
  induction ts generalizing o with
  | nil => exact ⟨[], .nil, o.hasRead_nil⟩
  | cons t ts ih =>
    -- only a marker adds a reading, and it is in front of the others
    obtain ⟨readings, hreads, h⟩ := ih (o.take t).1
    rw [takeAll]
    cases hmark : t.marker? with
    | some id =>
      obtain ⟨r, hr, hread⟩ := hasRead_marker hmark h
      rw [Token.fieldDeclarations_of_marker hmark]
      exact ⟨r :: readings, .cons hr hreads, hread⟩
    | none =>
      rw [Token.fieldDeclarations_of_none hmark]
      cases hf : o.field with
      | none => exact ⟨readings, hreads, hasRead_header hf hmark h⟩
      | some f => exact ⟨readings, hreads, hasRead_behind hf hmark h⟩

end OpenObject

/-- **The fields of a declaration are what their own directives make of them**, and what is found
about these directives is found field by field. -/
theorem Declaration.fieldReadings (d : Declaration) :
    ∃ readings, List.Forall₂ FieldDeclaration.Reads d.fieldDeclarations readings ∧
      d.object.fields.map Field.unplaced = readings.map (·.1.field.unplaced) ∧
      Finding.ofFieldDirectives d.findings =
        Finding.ofFieldDirectives (readings.flatMap (·.2)) := by
  let o := OpenObject.start d.name none d.opening.closes d.opening.line
  obtain ⟨readings, hreads, hfields, hfound⟩ := o.takeAll_hasRead d.rest
  refine ⟨readings, hreads, hfields, ?_⟩
  rw [findings, Finding.ofFieldDirectives_append,
    Finding.ofFieldDirectives_eq_nil (OpenObject.finishField_joins _).2.2, List.append_nil]
  exact hfound

/-- What holds of the reading of each field marker holds of the fields. -/
theorem Declaration.forall₂_fields {P : FieldDeclaration → Field → Prop} (d : Declaration)
    (h : ∀ s r, s.Reads r → ∀ index, P s { r.1.field with index }) :
    List.Forall₂ P d.fieldDeclarations d.object.fields := by
  obtain ⟨readings, hreads, hfields, -⟩ := d.fieldReadings
  generalize d.object.fields = fields at hfields
  generalize d.fieldDeclarations = ss at hreads
  induction hreads generalizing fields with
  | nil =>
    rw [List.map_nil, List.map_eq_nil_iff] at hfields
    rw [hfields]
    exact .nil
  | @cons s r ss rs hr _ ih =>
    rw [List.map_cons, List.map_eq_cons_iff] at hfields
    obtain ⟨f, fields, rfl, hf, hfields⟩ := hfields
    refine .cons ?_ (ih fields hfields)
    -- the field differs from what was read in nothing but its place
    have heq : f = { r.1.field with index := f.index } := by
      rw [Field.unplaced, Field.unplaced] at hf
      cases f
      simp_all
    rw [heq]
    exact h s r hr f.index

/-- What is found about directives of one kind is found field by field. -/
theorem Declaration.filter_findings {p : Finding → Bool} {reports : FieldDeclaration → List Finding}
    (d : Declaration) (hp : ∀ f, p f = true → f.isOfFieldDirective = true)
    (h : ∀ s r, s.Reads r → r.2.filter p = reports s) :
    d.findings.filter p = d.fieldDeclarations.flatMap reports := by
  obtain ⟨readings, hreads, -, hfound⟩ := d.fieldReadings
  have hpicked : d.findings.filter p = (readings.flatMap (·.2)).filter p := by
    have hfilter := congrArg (List.filter p) hfound
    rwa [Finding.ofFieldDirectives, Finding.ofFieldDirectives, Finding.filter_filter_of_imp hp,
      Finding.filter_filter_of_imp hp] at hfilter
  rw [hpicked, List.filter_flatMap]
  clear hfound hpicked
  generalize d.fieldDeclarations = ss at hreads
  induction hreads with
  | nil => rfl
  | @cons s r _ _ hr _ ih => rw [List.flatMap_cons, List.flatMap_cons, ih, h s r hr]

end DataDictionary
