import DataDictionary.Proofs.Readings

/-!
# The fields of a declaration

A declaration is cut at its field markers. What stands before the first one is the header, and what
stands behind a marker, up to the next one, belongs to its field (`FieldDeclaration`).

A token of the header leaves the fields alone. A field marker finishes the field that is open and
opens another one, which has nothing but its identifier and perhaps the mark that the header has
announced. Neither has anything to say about the directives of a field, and neither lets an object
fail. Behind a marker, a token is a directive that is applied to the open field, or it leaves the
field alone.
-/

namespace DataDictionary

/-- A field marker with the tokens up to the next one. -/
structure FieldDeclaration where
  id : FieldId
  behind : List Token

/-- A directive for a field, and the line it stands on. -/
structure FieldDirective where
  keyword : FieldKeyword
  argument : String
  line : Nat
  deriving DecidableEq

namespace Token

/-- The directive for a field that a token is, if it stands behind a field marker. -/
def fieldDirective? (t : Token) : Option FieldDirective :=
  match t.body with
  | .directive text _ =>
    match Directive.classify? .field text with
    | some ⟨.field k, argument⟩ => some ⟨k, argument, t.line⟩
    | _ => none
  | _ => none

/-- The fields that are declared among some tokens. -/
def fieldDeclarations : List Token → List FieldDeclaration
  | [] => []
  | t :: ts =>
    match t.marker? with
    | some id => ⟨id, ts.takeWhile (·.marker? == none)⟩ :: fieldDeclarations ts
    | none => fieldDeclarations ts

/-- The declaration that a field marker in front of some tokens begins. -/
def declarationOf (id : FieldId) (ts : List Token) : FieldDeclaration :=
  ⟨id, ts.takeWhile (·.marker? == none)⟩

variable {t : Token}

theorem fieldDeclarations_of_marker {id : FieldId} (h : t.marker? = some id) (ts : List Token) :
    fieldDeclarations (t :: ts) = declarationOf id ts :: fieldDeclarations ts := by
  rw [fieldDeclarations, h, declarationOf]

theorem fieldDeclarations_of_none (h : t.marker? = none) (ts : List Token) :
    fieldDeclarations (t :: ts) = fieldDeclarations ts := by
  rw [fieldDeclarations, h]

end Token

/-- The fields of a declaration. -/
def Declaration.fieldDeclarations (d : Declaration) : List FieldDeclaration :=
  Token.fieldDeclarations d.rest

/-- A field wherever it stands in its object. -/
def Field.unplaced (f : Field) : Field := { f with index := 0 }

/-- Whether a finding is about a directive of a field. -/
def Finding.isOfFieldDirective (f : Finding) : Bool :=
  match f.problem with
  | .conflictingBounds .. | .badBound .. | .repeatedKey .. => true
  | _ => false

/-- Directives are part of what declarations say. -/
theorem Finding.isOfContent_of_fieldDirective {f : Finding} (h : f.isOfFieldDirective = true) :
    f.isOfContent = true := by
  obtain ⟨line, p⟩ := f
  cases p with
  | conflictingBounds | badBound | repeatedKey => rfl
  | _ => cases h

namespace OpenObject

variable {o : OpenObject} {f : OpenField} {t : Token}

/-- A token of the header opens no field and says nothing about directives of fields. -/
theorem take_header (hf : o.field = none) (hmark : t.marker? = none) :
    (o.take t).1.field = none ∧ (o.take t).1.object.fields = o.object.fields ∧
      (o.take t).1.failed = o.failed ∧ ∀ x ∈ (o.take t).2, x.isOfFieldDirective = false := by
  cases hbody : t.body with
  | content text ending =>
    rw [take_of_content hbody ((Token.marker?_of_content hbody).symm.trans hmark)]
    refine ⟨hf, rfl, rfl, fun x hx => ?_⟩
    dsimp only at hx
    split at hx
    · cases hx
    · rw [List.mem_singleton.mp hx]
      rfl
  | directive text ending =>
    rw [take_of_directive hbody]
    rcases o.direct_cases text t.line with ⟨k, argument, -, hc⟩ | ⟨g, k, argument, hg, -⟩ |
      ⟨-, hdirect⟩
    · obtain ⟨-, hfields, -, hfield, -, hfailed⟩ := o.apply_frame k argument
      rw [direct_of_object hf hc]
      refine ⟨hfield.trans hf, hfields, hfailed, fun x hx => ?_⟩
      obtain ⟨p, hp, rfl⟩ := List.mem_map.mp hx
      obtain ⟨what, rfl⟩ := badCount_of_mem_apply hp
      rfl
    · cases hf.symm.trans hg
    · rw [hdirect]
      refine ⟨hf, rfl, rfl, fun x hx => ?_⟩
      rw [List.mem_singleton.mp hx]
      rfl
  | comment text =>
    rw [take, hbody]
    exact ⟨hf, rfl, rfl, fun x hx => by cases hx⟩

/-- A field that is finished joins the others. Nothing is said about its directives any more. -/
theorem finishField_joins (o : OpenObject) :
    o.finishField.1.object.fields.map Field.unplaced =
        o.object.fields.map Field.unplaced ++ (o.field.map (·.field.unplaced)).toList ∧
      o.finishField.1.failed = o.failed ∧
      ∀ x ∈ o.finishField.2, x.isOfFieldDirective = false := by
  refine ⟨?_, ?_, fun x hx => ?_⟩
  · unfold finishField
    cases o.field with
    | none => exact (List.append_nil _).symm
    | some f => exact List.map_append
  · unfold finishField
    split <;> rfl
  · have hfield := ofField_of_mem_finishField hx
    obtain ⟨line, p⟩ := x
    cases hfield <;> rfl

/-- A field marker finishes the open field and opens another one. -/
theorem take_marker {id : FieldId} (hmark : t.marker? = some id) (o : OpenObject) :
    (∃ ahead, (o.take t).1.field =
        some { field := { id, beginExtensible := ahead }, line := t.line }) ∧
      (o.take t).1.object.fields.map Field.unplaced =
        o.object.fields.map Field.unplaced ++ (o.field.map (·.field.unplaced)).toList ∧
      (o.take t).1.failed = o.failed ∧ ∀ x ∈ (o.take t).2, x.isOfFieldDirective = false := by
  cases hbody : t.body with
  | content text ending =>
    rw [take_of_marker hbody ((Token.marker?_of_content hbody).symm.trans hmark)]
    exact ⟨⟨_, rfl⟩, o.finishField_joins⟩
  | directive text ending =>
    rw [Token.marker?_of_directive hbody] at hmark
    cases hmark
  | comment text =>
    rw [Token.marker?, hbody] at hmark
    cases hmark

/-- **Behind a field marker, a token is a directive of the field or leaves the field alone.** -/
theorem take_behind_cases (hf : o.field = some f) (hmark : t.marker? = none) :
    (∃ d ending, t.fieldDirective? = some d ∧
      o.take t = ((o.applyToField f d.keyword d.argument).1.closeIf ending,
        (o.applyToField f d.keyword d.argument).2.map (Finding.mk d.line))) ∨
    (t.fieldDirective? = none ∧ (o.take t).1.field = some f ∧ (o.take t).1.object = o.object ∧
      (o.take t).1.failed = o.failed ∧ ∀ x ∈ (o.take t).2, x.isOfFieldDirective = false) := by
  cases hbody : t.body with
  | content text ending =>
    rw [take_of_content hbody ((Token.marker?_of_content hbody).symm.trans hmark)]
    refine .inr ⟨by rw [Token.fieldDirective?, hbody], hf, rfl, rfl, fun x hx => ?_⟩
    dsimp only at hx
    split at hx
    · cases hx
    · rw [List.mem_singleton.mp hx]
      rfl
  | directive text ending =>
    rw [take_of_directive hbody]
    rcases o.direct_cases text t.line with ⟨k, argument, hnone, -⟩ | ⟨g, k, argument, hg, hc⟩ |
      ⟨hno, hdirect⟩
    · cases hf.symm.trans hnone
    · cases hf.symm.trans hg
      rw [direct_of_field hf hc]
      exact .inl ⟨⟨k, argument, t.line⟩, ending, by simp only [Token.fieldDirective?, hbody, hc],
        rfl⟩
    · have hnone : t.fieldDirective? = none := by
        rw [Token.fieldDirective?, hbody]
        dsimp only
        split
        · next k argument hc =>
          exact absurd hc (hno.resolve_left (fun h => by cases hf.symm.trans h) k argument)
        · rfl
      rw [hdirect]
      refine .inr ⟨hnone, hf, rfl, rfl, fun x hx => ?_⟩
      rw [List.mem_singleton.mp hx]
      rfl
  | comment text =>
    rw [take, hbody]
    exact .inr ⟨by rw [Token.fieldDirective?, hbody], hf, rfl, rfl, fun x hx => by cases hx⟩

end OpenObject

end DataDictionary
