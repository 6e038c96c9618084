import DataDictionary.Proofs.FieldMarkers

/-!
# Headers are read one directive at a time

In front of all field markers, each directive of an object is applied to what those before it have
made of the object (`OpenObject.obeyAll`). From the first marker on nothing does so any more: what a
token still changes is in the fields. So an object is, apart from its fields, what the directives of
its header make of one that has only its name (`Declaration.header_object`).

A property of what the header decides can thus be proved by induction on a list of directives.
-/

namespace DataDictionary

/-- A directive in the header of an object. -/
structure HeaderDirective where
  keyword : ObjectKeyword
  argument : String
  deriving DecidableEq

namespace Token

/-- The directive of a header that a token is, if it stands in front of all field markers. -/
def headerDirective? (t : Token) : Option HeaderDirective :=
  match t.body with
  | .directive text _ =>
    match Directive.classify? .object text with
    | some ⟨.object k, argument⟩ => some ⟨k, argument⟩
    | _ => none
  | _ => none

/-- The directives of a header up to the first field marker. -/
def headerDirectives (ts : List Token) : List HeaderDirective :=
  (ts.takeWhile (·.marker? == none)).filterMap headerDirective?

variable {t : Token}

theorem headerDirectives_of_marker {id : FieldId} (h : t.marker? = some id) (ts : List Token) :
    headerDirectives (t :: ts) = [] := by
  rw [headerDirectives, List.takeWhile_cons_of_neg (by simp [h]), List.filterMap_nil]

theorem headerDirectives_of_none (h : t.marker? = none) (ts : List Token) :
    headerDirectives (t :: ts) = t.headerDirective?.toList ++ headerDirectives ts := by
  rw [headerDirectives, List.takeWhile_cons_of_pos (by simp [h]), List.filterMap_cons]
  cases t.headerDirective? <;> rfl

end Token

/-- The directives in the header of a declaration, in their order. -/
def Declaration.headerDirectives (d : Declaration) : List HeaderDirective :=
  Token.headerDirectives d.rest

/-- What the header decides of an object: all but its fields and its group. -/
def Object.header (o : Object) : Object := { o with fields := [], group := none }

namespace OpenObject

/-- Applies directives of the header one after the other. -/
def obeyAll (o : OpenObject) (ds : List HeaderDirective) : OpenObject :=
  ds.foldl (fun o d => (o.apply d.keyword d.argument).1) o

variable {o o' : OpenObject} {f : OpenField} {t : Token}

/-- What a directive makes of an object is a matter of the object alone. -/
theorem object_apply_congr (h : o.object = o'.object) (k : ObjectKeyword) (argument : String) :
    (o.apply k argument).1.object = (o'.apply k argument).1.object := by
  cases k <;> simp only [apply, h]

theorem object_obeyAll_congr (h : o.object = o'.object) (ds : List HeaderDirective) :
    (o.obeyAll ds).object = (o'.obeyAll ds).object := by
  induction ds generalizing o o' with
  | nil => exact h
  | cons d ds ih => exact ih (object_apply_congr h d.keyword d.argument)

theorem obeyAll_append (o : OpenObject) (ds es : List HeaderDirective) :
    o.obeyAll (ds ++ es) = (o.obeyAll ds).obeyAll es := List.foldl_append

/-! ## One token -/

theorem header_finishField (o : OpenObject) : o.finishField.1.object.header = o.object.header := by
  unfold finishField
  split <;> rfl

/-- In the header, the object obeys the directive that a token is. -/
theorem object_take_header (hf : o.field = none) (hmark : t.marker? = none) :
    (o.take t).1.object = (o.obeyAll t.headerDirective?.toList).object := by
  cases hbody : t.body with
  | content text ending =>
    rw [take_of_content hbody ((Token.marker?_of_content hbody).symm.trans hmark),
      Token.headerDirective?, hbody]
    rfl
  | directive text ending =>
    -- both look the directive up in the same table
    rw [take_of_directive hbody, direct, hf, Token.headerDirective?, hbody]
    dsimp only
    cases Directive.classify? .object text with
    | none => rfl
    | some directive =>
      obtain ⟨k, argument⟩ := directive
      cases k <;> rfl
  | comment text =>
    rw [take, Token.headerDirective?, hbody]
    rfl

/-- A field marker and what stands behind one say nothing about the header. -/
theorem header_take (hbehind : t.marker?.isSome ∨ o.field.isSome) :
    (o.take t).1.object.header = o.object.header ∧ (o.take t).1.field.isSome := by
  cases hmark : t.marker? with
  | some id =>
    obtain ⟨⟨ahead, hfield⟩, -⟩ := take_marker hmark o
    refine ⟨?_, by rw [hfield]; rfl⟩
    cases hbody : t.body with
    | content text ending =>
      rw [take_of_marker hbody ((Token.marker?_of_content hbody).symm.trans hmark)]
      exact o.header_finishField
    | directive text ending =>
      rw [Token.marker?_of_directive hbody] at hmark
      cases hmark
    | comment text =>
      rw [Token.marker?, hbody] at hmark
      cases hmark
  | none =>
    rw [hmark] at hbehind
    obtain ⟨f, hf⟩ := Option.isSome_iff_exists.mp (hbehind.resolve_left Bool.false_ne_true)
    rcases take_behind_cases hf hmark with ⟨d, ending, -, htake⟩ | ⟨-, hfield, hobject, -⟩
    · rw [htake]
      unfold applyToField
      split
      · exact ⟨rfl, rfl⟩
      · exact ⟨rfl, Option.isSome_iff_exists.mpr ⟨f, hf⟩⟩
    · rw [hobject, hfield]
      exact ⟨rfl, rfl⟩

/-! ## Token by token -/

theorem header_takeAll_behind (h : o.field.isSome) (ts : List Token) :
    (o.takeAll ts).1.object.header = o.object.header := by
  induction ts generalizing o with
  | nil => rfl
  | cons t ts ih =>
    obtain ⟨hheader, hfield⟩ := header_take (t := t) (.inr h)
    rw [takeAll]
    exact (ih hfield).trans hheader

/-- **The header of an object is what its directives make of it.** -/
theorem header_takeAll (h : o.field = none) (ts : List Token) :
    (o.takeAll ts).1.object.header = (o.obeyAll (Token.headerDirectives ts)).object.header := by
  induction ts generalizing o with
  | nil => rfl
  | cons t ts ih =>
    rw [takeAll]
    cases hmark : t.marker? with
    | some id =>
      -- the header is over
      obtain ⟨hheader, hfield⟩ := header_take (o := o) (t := t) (.inl (by rw [hmark]; rfl))
      rw [Token.headerDirectives_of_marker hmark]
      exact (header_takeAll_behind hfield ts).trans hheader
    | none =>
      obtain ⟨hnone, -⟩ := take_header h hmark
      rw [Token.headerDirectives_of_none hmark, obeyAll_append]
      exact (ih hnone).trans
        (congrArg Object.header (object_obeyAll_congr (object_take_header h hmark) _))

end OpenObject

/-- **An object is, apart from its fields, what the directives of its header make of its name.** -/
theorem Declaration.header_object (d : Declaration) :
    d.object.header =
      ((OpenObject.start d.name none d.opening.closes d.opening.line).obeyAll
        d.headerDirectives).object.header := by
  let o := OpenObject.start d.name none d.opening.closes d.opening.line
  have hfinish : d.object.header = d.reading.1.object.header :=
    d.reading.1.header_finishField
  exact hfinish.trans (OpenObject.header_takeAll (o := o) rfl d.rest)

end DataDictionary
