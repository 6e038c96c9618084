import DataDictionary.Proofs.Declarations

/-!
# What the reader knows of a declaration

While an object is open the reader has it in hand as an object: fields that are finished, one that
is not, the forms in which its bounds were first written, and two flags. `Tracks` says that all this
can be told from the tokens of the declaration, and there is a lemma for each kind of token that is
added to it. The one that takes thought is a directive that sets a bound. It is refused exactly if
its token is in conflict with those behind the last field marker, because the forms that the open
field remembers are the first ones among them (`Tracks.add_field`).
-/

namespace DataDictionary

/-- Whether a finding speaks against an object of the source. -/
def Finding.denies (f : Finding) : Bool :=
  match f.problem with
  | .conflictingBounds .. | .unterminated .. | .repeatedObject .. => true
  | _ => false

theorem Finding.denies_eq_false {f : Finding} (h : f.problem.severity ≠ .error) :
    f.denies = false := by
  unfold denies
  split
  · next hp => exact absurd (by rw [hp, Problem.severity]) h
  · next hp => exact absurd (by rw [hp, Problem.severity]) h
  · next hp => exact absurd (by rw [hp, Problem.severity]) h
  · rfl

theorem Finding.filter_denies_of_warning {found : List Finding}
    (h : ∀ f ∈ found, f.problem.severity = .warning) : found.filter (·.denies) = [] := by
  rw [List.filter_eq_nil_iff]
  intro f hf
  rw [denies_eq_false (by rw [h f hf]; decide)]
  exact Bool.false_ne_true

theorem filter_denies_reports {line : Nat} {problems : List Problem}
    (h : ∀ p ∈ problems, p.severity = .warning) :
    (problems.map (Finding.mk line)).filter (·.denies) = [] := by
  refine Finding.filter_denies_of_warning fun f hf => ?_
  obtain ⟨p, hp, rfl⟩ := List.mem_map.mp hf
  exact h p hp

/-! ## The open object -/

/-- What matters of an open field for the bounds that are still to come. -/
def OpenField.view (f : OpenField) : FieldId × (Side → Option BoundForm) := (f.field.id, f.form)

/-- The same, told from the tokens behind the marker of the field. -/
def Token.viewOf (p : FieldId × List Token) : FieldId × (Side → Option BoundForm) :=
  (p.1, fun side => firstForm? side p.2)

theorem Token.viewOf_append_singleton {t : Token} (h : t.bound? = none) (id : FieldId)
    (ts : List Token) : viewOf (id, ts ++ [t]) = viewOf (id, ts) := by
  unfold viewOf
  congr 1
  funext side
  rw [firstForm?_append_singleton, formOf?, h]
  simp

namespace OpenObject

/-- The open object is what has been read of a declaration so far. -/
structure Tracks (o : OpenObject) (d : Declaration) : Prop where
  name : o.object.name = d.name
  line : o.line = d.opening.line
  /-- The finished fields and the open one are those of the declaration, in order. -/
  fields : o.object.fields.map (·.id) ++ (o.field.map (·.field.id)).toList = d.markers
  view : o.field.map OpenField.view = (Token.lastField? d.rest).map Token.viewOf
  closed : o.closed = d.isTerminated
  failed : o.failed = !d.conflicts.isEmpty

variable {o o' : OpenObject} {d : Declaration} {t : Token}

theorem tracks_start (name : String) (group : Option String) (t : Token) :
    (OpenObject.start name group t.closes t.line).Tracks ⟨name, t, []⟩ where
  name := rfl
  line := rfl
  fields := rfl
  view := rfl
  closed := by
    rw [Declaration.isTerminated, Declaration.tokens, Token.terminated]
    simp [start, Token.terminated]
  failed := rfl

theorem Tracks.lastField?_eq_none (h : o.Tracks d) (hf : o.field = none) :
    Token.lastField? d.rest = none := by
  have hview := h.view
  rw [hf] at hview
  simpa using hview.symm

/-- Without an open field the declaration has no field marker. -/
theorem Tracks.markers_of_none (h : o.Tracks d) (hf : o.field = none) : d.markers = [] :=
  Token.lastField?_eq_none_iff.mp (h.lastField?_eq_none hf)

theorem Tracks.markers_of_some (h : o.Tracks d) {f : OpenField} (hf : o.field = some f) :
    d.markers ≠ [] := by
  rw [← h.fields, hf]
  simp

/-- What the reader knows of the open field is what the tokens behind its marker say. -/
theorem Tracks.exists_field (h : o.Tracks d) {f : OpenField} (hf : o.field = some f) :
    ∃ behind, Token.lastField? d.rest = some (f.field.id, behind) ∧
      ∀ side, f.form side = Token.firstForm? side behind := by
  have hview := h.view
  rw [hf] at hview
  obtain ⟨⟨id, behind⟩, hlast, hp⟩ := Option.map_eq_some_iff.mp hview.symm
  have hid : id = f.field.id := congrArg Prod.fst hp
  exact ⟨behind, hid ▸ hlast, fun side => (congrFun (congrArg Prod.snd hp) side).symm⟩

/-- Whether the next name ends the declaration is what the reader looks at. -/
theorem Tracks.mayEnd (h : o.Tracks d) : d.mayEnd = !(o.field.isNone && !o.closed) := by
  unfold Declaration.mayEnd
  cases hf : o.field with
  | some f => simp [h.markers_of_some hf]
  | none =>
    have hmarkers := h.markers_of_none hf
    have hall : d.rest.all (·.marker? == none) = true := by
      rw [List.all_eq_true]
      intro u hu
      simp [List.filterMap_eq_nil_iff.mp hmarkers u hu]
    have hclosed : o.closed = d.tokens.any Token.closes := by
      rw [h.closed, Declaration.isTerminated, Declaration.tokens, Token.terminated,
        Token.terminated_eq_any hmarkers, List.any_cons, hall, Bool.and_true]
    simp [hmarkers, hclosed]

/-- One more token behind an open object, if it is no field marker. -/
theorem Tracks.add (h : o.Tracks d) (hmark : t.marker? = none)
    (hname : o'.object.name = o.object.name) (hline : o'.line = o.line)
    (hfields : o'.object.fields = o.object.fields)
    (hid : o'.field.map (·.field.id) = o.field.map (·.field.id))
    (hview : o'.field.map OpenField.view =
      (Token.lastField? d.rest).map fun p => Token.viewOf (p.1, p.2 ++ [t]))
    (hclosed : o'.closed = (o.closed || t.closes))
    (hfailed : o'.failed = (o.failed || (Token.conflict? d.rest t).isSome)) :
    o'.Tracks (d.add t) where
  name := hname.trans h.name
  line := hline.trans h.line
  fields := by
    rw [Declaration.add_markers, hmark, ← h.fields, hfields, hid, Option.toList_none,
      List.append_nil]
  view := by
    rw [Declaration.add, Token.lastField?_append_singleton, hmark, hview, Option.map_map]
    rfl
  closed := by
    rw [hclosed, h.closed, Declaration.add_isTerminated, hmark]
    simp [Bool.or_comm]
  failed := by
    rw [hfailed, h.failed, Declaration.add_conflicts]
    cases d.conflicts with
    | nil => cases Token.conflict? d.rest t <;> rfl
    | cons f fs => rfl

/-- A token that sets no bound of an open field changes nothing but the end. -/
theorem Tracks.add_plain (h : o.Tracks d) (hmark : t.marker? = none)
    (hbound : o.field = none ∨ t.bound? = none) (hname : o'.object.name = o.object.name)
    (hline : o'.line = o.line) (hfields : o'.object.fields = o.object.fields)
    (hview : o'.field.map OpenField.view = o.field.map OpenField.view)
    (hclosed : o'.closed = (o.closed || t.closes)) (hfailed : o'.failed = o.failed) :
    o'.Tracks (d.add t) ∧ Token.conflict? d.rest t = none := by
  have hno : Token.conflict? d.rest t = none := by
    rcases hbound with hf | hb
    · exact Token.conflict?_of_lastField?_eq_none (h.lastField?_eq_none hf) t
    · exact Token.conflict?_of_bound?_eq_none hb d.rest
  have hid := congrArg (Option.map Prod.fst) hview
  rw [Option.map_map, Option.map_map] at hid
  refine ⟨h.add hmark hname hline hfields hid ?_ hclosed (by rw [hfailed, hno]; simp), hno⟩
  rw [hview, h.view]
  rcases hbound with hf | hb
  · rw [h.lastField?_eq_none hf]
    rfl
  · congr 1
    funext p
    exact (Token.viewOf_append_singleton hb p.1 p.2).symm

/-- A finished object has the fields of its declaration, and is otherwise what it was. -/
theorem Tracks.finishField (h : o.Tracks d) :
    o.finishField.1.object.name = d.name ∧ o.finishField.1.line = d.opening.line ∧
      o.finishField.1.closed = d.isTerminated ∧
      o.finishField.1.failed = (!d.conflicts.isEmpty) ∧
      o.finishField.1.object.fields.map (·.id) = d.markers := by
  rw [← h.name, ← h.line, ← h.closed, ← h.failed, ← h.fields, OpenObject.finishField]
  cases o.field with
  | none => exact ⟨rfl, rfl, rfl, rfl, (List.append_nil _).symm⟩
  | some f => exact ⟨rfl, rfl, rfl, rfl, List.map_append⟩

/-- A field marker finishes the field before it and decides anew whether the object is closed. -/
theorem Tracks.add_marker (h : o.Tracks d) {text : String} {ending : Option Separator}
    {id : FieldId} (hbody : t.body = .content text ending) (hid : FieldId.parse? text = some id) :
    (o.openField id ending t.line).1.Tracks (d.add t) ∧ Token.conflict? d.rest t = none := by
  have hmark : t.marker? = some id := (Token.marker?_of_content hbody).trans hid
  have hno : Token.conflict? d.rest t = none :=
    Token.conflict?_of_bound?_eq_none (Token.bound?_of_content hbody) d.rest
  -- whether the object was closed before is of no account any more
  obtain ⟨hname, hline, -, hfailed, hfields⟩ := h.finishField
  refine ⟨⟨hname, hline, ?_, ?_, ?_, ?_⟩, hno⟩
  · rw [Declaration.add_markers, hmark, ← hfields]
    rfl
  · rw [Declaration.add, Token.lastField?_append_singleton, hmark]
    refine congrArg some (Prod.ext rfl (funext fun side => ?_))
    cases side <;> rfl
  · rw [Declaration.add_isTerminated, hmark, Token.closes_of_content hbody]
    simp [openField]
  · rw [Declaration.add_conflicts, hno, Option.toList_none, List.append_nil]
    exact hfailed

/-- A separator at the end of a token closes the object. -/
theorem closed_closeIf (o : OpenObject) {ending : Option Separator}
    (hends : t.closes = (ending == some .semicolon)) :
    (o.closeIf ending).closed = (o.closed || t.closes) := by
  rw [closeIf, hends]

/-- A directive of the header belongs to the declaration, and says nothing about fields. -/
theorem Tracks.add_header (h : o.Tracks d) {text argument : String} {ending : Option Separator}
    {k : ObjectKeyword} (hbody : t.body = .directive text ending) (hf : o.field = none) :
    ((o.apply k argument).1.closeIf ending).Tracks (d.add t) ∧
      Token.conflict? d.rest t = none := by
  obtain ⟨hname, hfields, hline, hfield, hclosed, hfailed⟩ := o.apply_frame k argument
  refine h.add_plain (Token.marker?_of_directive hbody) (.inl hf) hname hline hfields
    (congrArg _ hfield) ?_ hfailed
  rw [closed_closeIf _ (Token.closes_of_directive hbody), hclosed]

/-! ### Directives of a field -/

/-- A bound that a token sets is in conflict with the form that the open field has for it. -/
theorem Tracks.conflict?_eq (h : o.Tracks d) {f : OpenField} (hf : o.field = some f) {side : Side}
    {form : BoundForm} (hbound : t.bound? = some (side, form)) :
    Token.conflict? d.rest t = (f.form side).bind fun first =>
      if first = form then none else some ⟨t.line, .conflictingBounds f.field.id side⟩ := by
  obtain ⟨behind, hlast, hfirst⟩ := h.exists_field hf
  rw [Token.conflict?, hlast, hbound, hfirst]
  rfl

/-- The open field takes in the form of a bound if it has none for it yet. -/
theorem Tracks.add_bound (h : o.Tracks d) {f g : OpenField} (hf : o.field = some f)
    (hmark : t.marker? = none) (hobject : o'.object = o.object) (hline : o'.line = o.line)
    (hfield : o'.field = some g) (hid : g.field.id = f.field.id)
    (hform : ∀ side, g.form side = (f.form side).or (t.formOf? side))
    (hclosed : o'.closed = (o.closed || t.closes))
    (hfailed : o'.failed = (o.failed || (Token.conflict? d.rest t).isSome)) :
    o'.Tracks (d.add t) := by
  obtain ⟨behind, hlast, hfirst⟩ := h.exists_field hf
  have hfields : o'.object.fields = o.object.fields := by rw [hobject]
  have hids : o'.field.map (·.field.id) = o.field.map (·.field.id) := by
    rw [hfield, hf]
    exact congrArg some hid
  refine h.add hmark (by rw [hobject]) hline hfields hids ?_ hclosed hfailed
  rw [hfield, hlast]
  refine congrArg some (Prod.ext hid (funext fun side => ?_))
  show g.form side = Token.firstForm? side (behind ++ [t])
  rw [hform, hfirst, Token.firstForm?_append_singleton]

/-- **A directive of a field is reported against the object exactly if its token is in conflict.**
-/
theorem Tracks.add_field (h : o.Tracks d) {text argument : String} {ending : Option Separator}
    {k : FieldKeyword} {f : OpenField} (hbody : t.body = .directive text ending)
    (hf : o.field = some f)
    (hc : Directive.classify? .field text = some ⟨.field k, argument⟩) :
    ((o.applyToField f k argument).1.closeIf ending).Tracks (d.add t) ∧
      ((o.applyToField f k argument).2.map (Finding.mk t.line)).filter (·.denies) =
        (Token.conflict? d.rest t).toList := by
  have hmark := Token.marker?_of_directive hbody
  have hends := Token.closes_of_directive hbody
  have hbound : t.bound? = k.bound? := Token.bound?_of_directive hbody hc
  have hformOf : ∀ side, t.formOf? side = k.formOf? side := by
    intro side
    rw [Token.formOf?, hbound, FieldKeyword.formOf?]
  unfold applyToField
  rcases f.apply_cases k argument with ⟨side, form, first, hk, hfirst, hne, happly⟩ |
    ⟨f', problems, happly, hagree, hid, hform, hsev⟩
  · have hconflict : Token.conflict? d.rest t =
        some ⟨t.line, .conflictingBounds f.field.id side⟩ := by
      rw [h.conflict?_eq hf (hbound.trans hk), hfirst, Option.bind_some, if_neg hne]
    -- the field stays as it is, and so do its forms: the one that is refused has one already
    have hstays : ∀ other, f.form other = (f.form other).or (t.formOf? other) := by
      intro other
      rw [hformOf, FieldKeyword.formOf?, hk, Option.bind_some]
      by_cases hother : side = other
      · rw [← hother, hfirst, Option.some_or]
      · rw [if_neg hother, Option.or_none]
    rw [happly]
    refine ⟨h.add_bound hf hmark rfl rfl hf rfl hstays (closed_closeIf _ hends) ?_, ?_⟩
    · rw [hconflict]
      exact (Bool.or_true _).symm
    · rw [hconflict]
      rfl
  · have hno : Token.conflict? d.rest t = none := by
      cases hk : k.bound? with
      | none => exact Token.conflict?_of_bound?_eq_none (hbound.trans hk) d.rest
      | some b =>
        rw [h.conflict?_eq hf (hbound.trans hk)]
        cases hfirst : f.form b.1 with
        | none => rfl
        | some first => rw [Option.bind_some, if_pos (hagree b.1 b.2 hk first hfirst)]
    rw [happly]
    refine ⟨h.add_bound hf hmark rfl rfl rfl hid ?_ (closed_closeIf _ hends) ?_, ?_⟩
    · intro side
      rw [hform, hformOf]
    · rw [hno]
      exact (Bool.or_false _).symm
    · rw [hno, filter_denies_reports hsev]
      rfl

end OpenObject

end DataDictionary
