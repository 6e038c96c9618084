import DataDictionary.Proofs.FieldMarkers

/-!
# The bounds of a field

A field may be bounded by any number of directives, in four spellings, with other directives between
them. For each side the first directive decides whether the bound is inclusive or exclusive. Those
that follow either agree with it or are in conflict with it, and it takes no more than the list of
the directives to tell which: a conflict does not change what the first one was, and neither does an
argument that is no number.

So the directives behind a field marker are sorted out at once (`FieldDeclaration`), and the reading
of a declaration is compared with that. What an open field remembers of the directives before is
their first forms and the last number, and both can be put in front of those that are still to come;
`OpenObject.takeAll_bounds` is an induction along the tokens with the forms held fixed up to the
next field marker.
-/

namespace DataDictionary

/-- A directive for a bound of a field. -/
structure BoundDirective where
  side : Side
  form : BoundForm
  argument : String
  line : Nat
  deriving DecidableEq

namespace BoundDirective

/-- The bound that a directive gives, if its argument is a number. -/
def bound? (b : BoundDirective) : Option Bound := (Number.ofText? b.argument).map b.form.bound

/-- The form of the first directive for one side. -/
def firstForm? (side : Side) (bs : List BoundDirective) : Option BoundForm :=
  (bs.find? (·.side = side)).map (·.form)

/-- Whether a directive is of the form that the bound has. -/
def agrees (forms : Side → Option BoundForm) (b : BoundDirective) : Bool :=
  forms b.side = some b.form

/-- What there is to say about a directive: that it is in conflict, or else that its argument is no
number. -/
def report? (forms : Side → Option BoundForm) (id : FieldId) (b : BoundDirective) :
    Option Finding :=
  if b.agrees forms then
    if b.bound?.isNone then some ⟨b.line, .badBound b.argument id⟩ else none
  else some ⟨b.line, .conflictingBounds id b.side⟩

/-- The last number that is given for one side, in the form that the bound has. -/
def last? (forms : Side → Option BoundForm) (side : Side) (bs : List BoundDirective) :
    Option Bound :=
  (bs.filterMap fun b => if b.side = side ∧ b.agrees forms then b.bound? else none).getLast?

/-- What one more directive in front makes of the last number. -/
theorem last?_cons (forms : Side → Option BoundForm) (side : Side) (b : BoundDirective)
    (bs : List BoundDirective) :
    last? forms side (b :: bs) =
      (last? forms side bs).or (if b.side = side ∧ b.agrees forms then b.bound? else none) := by
  rw [last?, List.filterMap_cons]
  split
  · next hnone => rw [hnone, Option.or_none, last?]
  · next bound hsome =>
    rw [hsome, List.getLast?_cons, last?]
    cases (bs.filterMap fun b => if b.side = side ∧ b.agrees forms then b.bound? else none).getLast?
      <;> rfl

end BoundDirective

/-- The directive for a bound that a token is, if it stands behind a field marker. -/
def Token.boundDirective? (t : Token) : Option BoundDirective :=
  match t.body with
  | .directive text _ =>
    match Directive.classify? .field text with
    | some ⟨.field k, argument⟩ => k.bound?.map fun b => ⟨b.1, b.2, argument, t.line⟩
    | _ => none
  | _ => none

/-- The directive for a bound that a directive for a field is. -/
def FieldDirective.bound? (d : FieldDirective) : Option BoundDirective :=
  d.keyword.bound?.map fun b => ⟨b.1, b.2, d.argument, d.line⟩

theorem Token.boundDirective?_eq (t : Token) :
    t.boundDirective? = t.fieldDirective?.bind FieldDirective.bound? := by
  unfold boundDirective? fieldDirective?
  cases t.body with
  | content | comment => rfl
  | directive text ending =>
    dsimp only
    cases Directive.classify? .field text with
    | none => rfl
    | some directive =>
      obtain ⟨k, argument⟩ := directive
      cases k <;> rfl

namespace FieldDeclaration

/-- The directives for bounds, in their order. -/
def directives (s : FieldDeclaration) : List BoundDirective :=
  s.behind.filterMap Token.boundDirective?

/-- The forms that the bounds have. -/
def forms (s : FieldDeclaration) (side : Side) : Option BoundForm :=
  BoundDirective.firstForm? side s.directives

/-- The directives for one side. -/
def ofSide (s : FieldDeclaration) (side : Side) : List BoundDirective :=
  s.directives.filter (·.side = side)

/-- The directives for one side that are not of the form of the first one. -/
def deviating (s : FieldDeclaration) (side : Side) : List BoundDirective :=
  (s.ofSide side).filter fun b => (s.ofSide side).head?.map (·.form) ≠ some b.form

/-- What there is to say about the directives, in their order. -/
def reports (s : FieldDeclaration) : List Finding :=
  s.directives.filterMap (·.report? s.forms s.id)

/-- The bound for one side. -/
def bound? (s : FieldDeclaration) (side : Side) : Option Bound :=
  BoundDirective.last? s.forms side s.directives

/-- The identifier of the field and its bounds. -/
def bounds (s : FieldDeclaration) : FieldId × Option Bound × Option Bound :=
  (s.id, s.bound? .minimum, s.bound? .maximum)

/-- Whether some directive is in conflict. -/
def conflicted (s : FieldDeclaration) : Bool := s.directives.any (!·.agrees s.forms)

end FieldDeclaration

/-- The identifier of a field and its bounds. -/
def Field.idBounds (f : Field) : FieldId × Option Bound × Option Bound :=
  (f.id, f.minimum, f.maximum)

/-- Whether a finding is about a directive for a bound. -/
def Finding.isOfBound (f : Finding) : Bool :=
  match f.problem with
  | .conflictingBounds .. | .badBound .. => true
  | _ => false

/-- The findings about directives for bounds. -/
def Finding.ofBounds (found : List Finding) : List Finding := found.filter (·.isOfBound)

theorem Finding.ofBounds_append (found more : List Finding) :
    ofBounds (found ++ more) = ofBounds found ++ ofBounds more := List.filter_append _ _

theorem Finding.isOfFieldDirective_of_bound (f : Finding) (h : f.isOfBound = true) :
    f.isOfFieldDirective = true := by
  obtain ⟨line, p⟩ := f
  cases p with
  | conflictingBounds | badBound => rfl
  | _ => cases h

/-- Bounds are a matter of what declarations say. -/
theorem Finding.ofBounds_ofContent (found : List Finding) :
    ofBounds (ofContent found) = ofBounds found :=
  filter_filter_of_imp
    (fun f hf => isOfContent_of_fieldDirective (f.isOfFieldDirective_of_bound hf)) found

/-- Bounds are a matter of directives. -/
theorem Finding.ofBounds_eq_nil {found : List Finding}
    (h : ∀ f ∈ found, f.isOfFieldDirective = false) : ofBounds found = [] :=
  List.filter_eq_nil_iff.mpr fun f hf hbound =>
    Bool.noConfusion ((h f hf).symm.trans (f.isOfFieldDirective_of_bound hbound))

/-! ## One token -/

namespace OpenField

/-- The identifier of an open field and its bounds, with those that directives to come give it. -/
def boundsWith (f : OpenField) (forms : Side → Option BoundForm) (bs : List BoundDirective) :
    FieldId × Option Bound × Option Bound :=
  (f.field.id, (BoundDirective.last? forms .minimum bs).or (f.field.bound .minimum),
    (BoundDirective.last? forms .maximum bs).or (f.field.bound .maximum))

/-- The bounds have the forms that the open field has for them, or else those in which directives
to come set them first. -/
def Settles (f : OpenField) (bs : List BoundDirective) (forms : Side → Option BoundForm) : Prop :=
  ∀ side, forms side = (f.form side).or (BoundDirective.firstForm? side bs)

end OpenField

/-- The open object has gone on from `o` to `o'`, and its open field from `f` to `f'`, by the
directives `now` and whatever else was between them; `later` are still to come. -/
structure OpenObject.TakesBounds (forms : Side → Option BoundForm) (now later : List BoundDirective)
    (o o' : OpenObject) (f f' : OpenField) (found : List Finding) : Prop where
  field : o'.field = some f'
  fields : o'.object.fields = o.object.fields
  settles : f'.Settles later forms
  bounds : f'.boundsWith forms later = f.boundsWith forms (now ++ later)
  /-- The object fails if a directive is in conflict. -/
  failed : o'.failed = (o.failed || now.any (!·.agrees forms))
  found : Finding.ofBounds found = now.filterMap (·.report? forms f.field.id)

namespace OpenObject

variable {o o' : OpenObject} {f f' : OpenField} {forms : Side → Option BoundForm}
  {later : List BoundDirective} {found : List Finding} {t : Token}

/-- What leaves the bounds alone brings no directive for them. -/
theorem TakesBounds.of_same (hsettles : f.Settles later forms) (hfield : o'.field = some f')
    (hfields : o'.object.fields = o.object.fields) (hfailed : o'.failed = o.failed)
    (hid : f'.field.id = f.field.id) (hform : ∀ side, f'.form side = f.form side)
    (hbound : ∀ side, f'.field.bound side = f.field.bound side)
    (hfound : Finding.ofBounds found = []) : TakesBounds forms [] later o o' f f' found where
  field := hfield
  fields := hfields
  settles := fun side => by rw [hsettles side, hform]
  bounds := by rw [OpenField.boundsWith, OpenField.boundsWith, hid, hbound, hbound, List.nil_append]
  failed := by rw [hfailed, List.any_nil, Bool.or_false]
  found := hfound

/-- **A directive for a bound.** It is reported if it is in conflict or no number, and otherwise it
comes in front of those that follow. -/
theorem takesBounds_setBound {b : BoundDirective} {k : FieldKeyword} {ending : Option Separator}
    (hf : o.field = some f) (hsettles : f.Settles (b :: later) forms)
    (hk : k.bound? = some (b.side, b.form)) :
    ∃ f', TakesBounds forms [b] later o ((o.applyToField f k b.argument).1.closeIf ending) f f'
      ((o.applyToField f k b.argument).2.map (Finding.mk b.line)) := by
  have hforms := hsettles b.side
  rw [BoundDirective.firstForm?, List.find?_cons_of_pos (by simp), Option.map_some] at hforms
  have hother : ∀ side, side ≠ b.side →
      forms side = (f.form side).or (BoundDirective.firstForm? side later) := by
    intro side hside
    rw [hsettles side, BoundDirective.firstForm?,
      List.find?_cons_of_neg (by simpa using hside.symm), BoundDirective.firstForm?]
  unfold applyToField
  rw [OpenField.apply_of_bound? hk]
  rcases f.setBound_cases b.side b.form b.argument with
    ⟨⟨first, hfirst, hne⟩, hset⟩ | ⟨hagree, f', hset, hid, hform, hbound⟩
  · -- the form is another one, and the first one stays
    rw [hfirst, Option.some_or] at hforms
    have hdeviates : b.agrees forms = false := by
      simpa [BoundDirective.agrees, hforms] using hne
    rw [hset]
    refine ⟨f, hf, rfl, fun side => ?_, ?_, ?_, ?_⟩
    · by_cases hside : side = b.side
      · rw [hside, hforms, hfirst, Option.some_or]
      · exact hother side hside
    · simp only [OpenField.boundsWith, List.cons_append, List.nil_append,
        BoundDirective.last?_cons, hdeviates]
      simp
    · simp [hdeviates, closeIf]
    · simp [Finding.ofBounds, Finding.isOfBound, BoundDirective.report?, hdeviates]
  · have hagrees : b.agrees forms = true := by
      rw [BoundDirective.agrees, decide_eq_true_eq, hforms]
      cases hfirst : f.form b.side with
      | none => rfl
      | some first => rw [hagree first hfirst, Option.some_or]
    rw [hset]
    refine ⟨f', rfl, rfl, fun side => ?_, ?_, ?_, ?_⟩
    · rw [hform]
      by_cases hside : side = b.side
      · rw [hside, if_pos rfl, hforms]
        cases f.form b.side <;> rfl
      · rw [if_neg (Ne.symm hside), Option.or_none]
        exact hother side hside
    · simp only [OpenField.boundsWith, List.cons_append, List.nil_append,
        BoundDirective.last?_cons, hagrees, hid, hbound, and_true, Option.or_assoc]
      rfl
    · simp [hagrees, closeIf]
    · rw [List.filterMap_cons, BoundDirective.report?, if_pos hagrees, BoundDirective.bound?,
        Option.isNone_map]
      cases hnumber : (Number.ofText? b.argument).isNone <;>
        simp [Finding.ofBounds, Finding.isOfBound]

/-- Any other directive of a field leaves the bounds alone. -/
theorem takesBounds_applyToField {k : FieldKeyword} {argument : String} {ending : Option Separator}
    (hsettles : f.Settles later forms) (hk : k.bound? = none) (line : Nat) :
    ∃ f', TakesBounds forms [] later o ((o.applyToField f k argument).1.closeIf ending) f f'
      ((o.applyToField f k argument).2.map (Finding.mk line)) := by
  obtain ⟨f', problems, happly, hid, hform, hbound, hkeys⟩ :=
    OpenField.apply_of_bound?_eq_none hk f argument
  unfold applyToField
  rw [happly]
  refine ⟨f', .of_same hsettles rfl rfl rfl hid hform hbound ?_⟩
  rw [Finding.ofBounds, List.filter_eq_nil_iff]
  intro x hx
  obtain ⟨p, hp, rfl⟩ := List.mem_map.mp hx
  rw [hkeys p hp]
  exact Bool.false_ne_true

/-- **Every token behind a field marker is a directive for a bound or leaves the bounds alone.** -/
theorem takesBounds_take (hf : o.field = some f) (hmark : t.marker? = none)
    (hsettles : f.Settles (t.boundDirective?.toList ++ later) forms) :
    ∃ f', TakesBounds forms t.boundDirective?.toList later o (o.take t).1 f f' (o.take t).2 := by
  rw [Token.boundDirective?_eq] at hsettles ⊢
  rcases take_behind_cases hf hmark with
    ⟨d, ending, hd, htake⟩ | ⟨hnone, hfield, hobject, hfailed, hfound⟩
  · rw [hd, Option.bind_some, FieldDirective.bound?] at hsettles ⊢
    rw [htake]
    cases hk : d.keyword.bound? with
    | none =>
      rw [hk] at hsettles
      exact takesBounds_applyToField hsettles hk d.line
    | some b =>
      rw [hk] at hsettles
      exact takesBounds_setBound (b := ⟨b.1, b.2, d.argument, d.line⟩) hf hsettles hk
  · rw [hnone] at hsettles ⊢
    exact ⟨f, .of_same hsettles hfield (congrArg Object.fields hobject) hfailed rfl (fun _ => rfl)
      (fun _ => rfl) (Finding.ofBounds_eq_nil hfound)⟩

/-! ## One field after the other -/

/-- The bounds of fields do not depend on where they stand. -/
theorem idBounds_of_unplaced {fields before : List Field} {field : Option OpenField}
    (h : fields.map Field.unplaced =
      before.map Field.unplaced ++ (field.map (·.field.unplaced)).toList) :
    fields.map Field.idBounds =
      before.map Field.idBounds ++ (field.map (·.field.idBounds)).toList := by
  have hview := congrArg (List.map Field.idBounds) h
  rw [List.map_append, List.map_map, List.map_map] at hview
  refine hview.trans (congrArg _ ?_)
  cases field <;> rfl

end OpenObject

namespace Token

variable {t : Token}

/-- The directives for bounds up to the next field marker. -/
def boundDirectives (ts : List Token) : List BoundDirective :=
  (ts.takeWhile (·.marker? == none)).filterMap boundDirective?

theorem boundDirectives_of_marker {id : FieldId} (h : t.marker? = some id) (ts : List Token) :
    boundDirectives (t :: ts) = [] := by
  rw [boundDirectives, List.takeWhile_cons_of_neg (by simp [h]), List.filterMap_nil]

theorem boundDirectives_of_none (h : t.marker? = none) (ts : List Token) :
    boundDirectives (t :: ts) = t.boundDirective?.toList ++ boundDirectives ts := by
  rw [boundDirectives, List.takeWhile_cons_of_pos (by simp [h]), List.filterMap_cons]
  cases t.boundDirective? <;> rfl

end Token

/-- The tokens `ts` have taken the open object from `o` to `o'`. The open field has got the bounds
that the directives before the next marker give it, and the fields behind it those of theirs. -/
structure OpenObject.GetsBounds (forms : Side → Option BoundForm) (ts : List Token)
    (o o' : OpenObject) (found : List Finding) : Prop where
  bounds : o'.finishField.1.object.fields.map Field.idBounds =
    o.object.fields.map Field.idBounds ++
      (o.field.map (·.boundsWith forms (Token.boundDirectives ts))).toList ++
      (Token.fieldDeclarations ts).map FieldDeclaration.bounds
  failed : o'.failed =
    (o.failed || (o.field.isSome && (Token.boundDirectives ts).any (!·.agrees forms) ||
      (Token.fieldDeclarations ts).any FieldDeclaration.conflicted))
  found : Finding.ofBounds found =
    o.field.elim [] (fun f => (Token.boundDirectives ts).filterMap (·.report? forms f.field.id)) ++
      (Token.fieldDeclarations ts).flatMap FieldDeclaration.reports

namespace OpenObject

variable {o o' : OpenObject} {f : OpenField} {forms : Side → Option BoundForm} {t : Token}
  {ts : List Token} {more : List Finding}

theorem getsBounds_nil (o : OpenObject) (forms : Side → Option BoundForm) :
    GetsBounds forms [] o o [] where
  bounds := by
    rw [idBounds_of_unplaced o.finishField_joins.1]
    exact (List.append_nil _).symm
  failed := by simp [Token.boundDirectives, Token.fieldDeclarations]
  found := by cases o.field <;> rfl

/-- The forms of the bounds are settled afresh behind a field marker. -/
theorem settles_marker {id : FieldId} (hmark : t.marker? = some id) (o : OpenObject)
    (ts : List Token) :
    ∀ g ∈ (o.take t).1.field,
      g.Settles (Token.boundDirectives ts) (Token.declarationOf id ts).forms := by
  obtain ⟨⟨ahead, hg⟩, -⟩ := take_marker hmark o
  intro f hf side
  cases hg.symm.trans hf
  cases side <;> rfl

/-- A field marker ends the open field, with no directive in front of it, and begins another. -/
theorem getsBounds_marker {id : FieldId} (hmark : t.marker? = some id)
    (h : GetsBounds (Token.declarationOf id ts).forms ts (o.take t).1 o' more) :
    GetsBounds forms (t :: ts) o o' ((o.take t).2 ++ more) := by
  obtain ⟨⟨ahead, hfield⟩, hfields, hfailed, hfound⟩ := take_marker hmark o
  obtain ⟨hbounds, hfail, hsay⟩ := h
  rw [hfield] at hbounds hfail hsay
  have hown : OpenField.boundsWith { field := { id, beginExtensible := ahead }, line := t.line }
      (Token.declarationOf id ts).forms (Token.boundDirectives ts) =
      (Token.declarationOf id ts).bounds := by
    rw [OpenField.boundsWith, OpenField.field, Field.bound, Field.bound, Option.or_none,
      Option.or_none]
    rfl
  refine ⟨?_, ?_, ?_⟩
  · rw [hbounds, idBounds_of_unplaced hfields, Option.map_some, hown,
      Token.boundDirectives_of_marker hmark, Token.fieldDeclarations_of_marker hmark,
      List.map_cons, List.append_assoc]
    rfl
  · rw [hfail, hfailed, Token.boundDirectives_of_marker hmark,
      Token.fieldDeclarations_of_marker hmark, List.any_cons, List.any_nil, Bool.and_false,
      Bool.false_or]
    rfl
  · rw [Finding.ofBounds_append, Finding.ofBounds_eq_nil hfound, hsay, Option.elim_some,
      Token.boundDirectives_of_marker hmark, Token.fieldDeclarations_of_marker hmark]
    cases o.field <;> rfl

/-- In the header there are no bounds. -/
theorem getsBounds_header (hf : o.field = none) (hmark : t.marker? = none)
    (h : GetsBounds forms ts (o.take t).1 o' more) :
    GetsBounds forms (t :: ts) o o' ((o.take t).2 ++ more) := by
  obtain ⟨hnone, hfields, hfailed, hfound⟩ := take_header hf hmark
  obtain ⟨hbounds, hfail, hsay⟩ := h
  rw [hnone] at hbounds hfail hsay
  refine ⟨?_, ?_, ?_⟩
  · rw [hbounds, hfields, hf, Token.fieldDeclarations_of_none hmark]
    rfl
  · rw [hfail, hfailed, hf, Token.fieldDeclarations_of_none hmark]
    rfl
  · rw [Finding.ofBounds_append, Finding.ofBounds_eq_nil hfound, hsay, hf,
      Token.fieldDeclarations_of_none hmark]
    rfl

/-- A token behind a field marker comes in front of those that follow. -/
theorem getsBounds_behind {f' : OpenField} (hf : o.field = some f) (hmark : t.marker? = none)
    (htakes : TakesBounds forms t.boundDirective?.toList (Token.boundDirectives ts)
      o (o.take t).1 f f' (o.take t).2)
    (h : GetsBounds forms ts (o.take t).1 o' more) :
    GetsBounds forms (t :: ts) o o' ((o.take t).2 ++ more) := by
  have hid : f'.field.id = f.field.id := congrArg Prod.fst htakes.bounds
  obtain ⟨hbounds, hfail, hsay⟩ := h
  rw [htakes.field] at hbounds hfail hsay
  refine ⟨?_, ?_, ?_⟩
  · rw [hbounds, htakes.fields, hf, Option.map_some, htakes.bounds,
      Token.boundDirectives_of_none hmark, Token.fieldDeclarations_of_none hmark]
    rfl
  · rw [hfail, htakes.failed, hf, Token.boundDirectives_of_none hmark,
      Token.fieldDeclarations_of_none hmark, List.any_append]
    simp only [Option.isSome_some, Bool.true_and, Bool.or_assoc]
  · rw [Finding.ofBounds_append, htakes.found, hsay, hf, Option.elim_some, Option.elim_some, hid,
      Token.boundDirectives_of_none hmark, Token.fieldDeclarations_of_none hmark,
      List.filterMap_append, List.append_assoc]

/-- **An open field and the fields behind it have the bounds that their directives give them.** -/
theorem takeAll_bounds (o : OpenObject) (ts : List Token) (forms : Side → Option BoundForm)
    (hsettles : ∀ f ∈ o.field, f.Settles (Token.boundDirectives ts) forms) :
    GetsBounds forms ts o (o.takeAll ts).1 (o.takeAll ts).2 := by
  induction ts generalizing o forms with
  | nil => exact o.getsBounds_nil forms
  | cons t ts ih =>
    rw [takeAll]
    cases hmark : t.marker? with
    | some id => exact getsBounds_marker hmark (ih (o.take t).1 _ (settles_marker hmark o ts))
    | none =>
      cases hf : o.field with
      | none =>
        obtain ⟨hnone, -⟩ := take_header hf hmark
        refine getsBounds_header hf hmark (ih (o.take t).1 forms fun g hg => ?_)
        cases hnone.symm.trans hg
      | some f =>
        have hfirst := hsettles f hf
        rw [Token.boundDirectives_of_none hmark] at hfirst
        obtain ⟨f', htakes⟩ := takesBounds_take hf hmark hfirst
        refine getsBounds_behind hf hmark htakes (ih (o.take t).1 forms fun g hg => ?_)
        cases htakes.field.symm.trans hg
        exact htakes.settles

end OpenObject

/-- **What a declaration makes of the directives for bounds.** -/
theorem Declaration.bounds (d : Declaration) :
    d.object.fields.map Field.idBounds = d.fieldDeclarations.map FieldDeclaration.bounds ∧
      d.reading.1.failed = d.fieldDeclarations.any FieldDeclaration.conflicted ∧
      Finding.ofBounds d.findings = d.fieldDeclarations.flatMap FieldDeclaration.reports := by
  let o := OpenObject.start d.name none d.opening.closes d.opening.line
  have hall := o.takeAll_bounds d.rest (fun _ => none) (fun f hf => by cases hf)
  refine ⟨hall.bounds, hall.failed, ?_⟩
  rw [findings, Finding.ofBounds_append,
    Finding.ofBounds_eq_nil (OpenObject.finishField_joins _).2.2, List.append_nil]
  exact hall.found

/-! ## What that means for one bound -/

namespace FieldDeclaration

variable {s : FieldDeclaration} {side : Side} {b : BoundDirective}

theorem side_of_mem_ofSide (h : b ∈ s.ofSide side) : b.side = side :=
  of_decide_eq_true (List.mem_filter.mp h).2

/-- The form that a bound has is that of the first directive for it. -/
theorem agrees_iff (h : b ∈ s.ofSide side) :
    b.agrees s.forms = true ↔ (s.ofSide side).head?.map (·.form) = some b.form := by
  have hforms : s.forms side = (s.ofSide side).head?.map (·.form) := by
    rw [forms, BoundDirective.firstForm?, ofSide, List.head?_filter]
  rw [BoundDirective.agrees, side_of_mem_ofSide h, hforms, decide_eq_true_eq]

theorem deviating_eq (s : FieldDeclaration) (side : Side) :
    s.deviating side = (s.ofSide side).filter (!·.agrees s.forms) := by
  refine List.filter_congr fun b hb => ?_
  rw [Bool.eq_iff_iff, decide_eq_true_eq, Bool.not_eq_true', Bool.eq_false_iff]
  exact not_congr (agrees_iff hb).symm

/-- A field is in conflict with itself if it is so on one side. -/
theorem conflicted_iff : s.conflicted = true ↔ ∃ side, s.deviating side ≠ [] := by
  rw [conflicted, List.any_eq_true]
  constructor
  · rintro ⟨b, hb, hdeviates⟩
    have hside : b ∈ s.ofSide b.side := List.mem_filter.mpr ⟨hb, decide_eq_true rfl⟩
    refine ⟨b.side, List.ne_nil_of_mem (a := b) ?_⟩
    rw [deviating_eq]
    exact List.mem_filter.mpr ⟨hside, hdeviates⟩
  · rintro ⟨side, hne⟩
    obtain ⟨b, hb⟩ := List.exists_mem_of_ne_nil _ hne
    rw [deviating_eq] at hb
    obtain ⟨hside, hdeviates⟩ := List.mem_filter.mp hb
    exact ⟨b, (List.mem_filter.mp hside).1, hdeviates⟩

/-- The conflicts are reported one by one, where the directives stand. -/
theorem conflicts_reports (s : FieldDeclaration) (side : Side) :
    s.reports.filter (·.problem = .conflictingBounds s.id side) =
      (s.deviating side).map fun b => ⟨b.line, .conflictingBounds s.id side⟩ := by
  rw [deviating_eq, reports, ofSide, List.filter_filter]
  induction s.directives with
  | nil => rfl
  | cons b bs ih =>
    rw [List.filterMap_cons, BoundDirective.report?]
    cases hagrees : b.agrees s.forms with
    | true =>
      -- a directive that agrees is reported for its argument, or not at all
      rw [List.filter_cons_of_neg (by simp [hagrees]), ← ih, if_pos rfl]
      cases b.bound?.isNone <;> simp
    | false =>
      rw [if_neg Bool.false_ne_true]
      dsimp only
      by_cases hside : b.side = side
      · rw [List.filter_cons_of_pos (by simp [hside]), ih,
          List.filter_cons_of_pos (by simp [hside, hagrees]), List.map_cons, hside]
      · rw [List.filter_cons_of_neg (by simpa using hside), ih,
          List.filter_cons_of_neg (by simp [hside])]

/-- Without a conflict the last number counts, and every argument that is no number is reported. -/
theorem bound?_of_deviating (h : s.deviating side = []) :
    s.bound? side = ((s.ofSide side).filterMap BoundDirective.bound?).getLast? ∧
      ∀ b ∈ s.ofSide side, b.report? s.forms s.id =
        if b.bound?.isNone then some ⟨b.line, .badBound b.argument s.id⟩ else none := by
  have hagrees : ∀ b ∈ s.ofSide side, b.agrees s.forms = true := by
    rw [deviating_eq, List.filter_eq_nil_iff] at h
    intro b hb
    simpa using h b hb
  refine ⟨?_, fun b hb => by rw [BoundDirective.report?, if_pos (hagrees b hb)]⟩
  rw [bound?, BoundDirective.last?, ofSide, List.filterMap_filter]
  refine congrArg List.getLast? (List.filterMap_congr fun b hb => ?_)
  by_cases hside : b.side = side
  · simp [hside, hagrees b (List.mem_filter.mpr ⟨hb, decide_eq_true hside⟩)]
  · simp [hside]

end FieldDeclaration

/-- **The bounds of a source.** An object that is kept has the fields that its declaration declares,
with the bounds that the directives behind them give. A declaration fails if and only if a directive
behind one of its fields is not of the form of the first one for the same bound, and is not kept
then. All that is found about bounds is reported field by field: every directive that is not of the
first form, and otherwise every argument that is no number. As long as all directives for a bound
are of one form, it is the last number among their arguments. -/
theorem Source.bounds_exact (text : String) :
    let source := Source.ofText text
    let ds := Declaration.ofText text
    source.items.filterMap Item.placed? =
        (Declaration.keptOf ds).map (fun d => (d.object, d.opening.line)) ∧
      Finding.ofBounds source.findings =
        ds.flatMap (·.1.fieldDeclarations.flatMap FieldDeclaration.reports) ∧
      (∀ p ∈ ds,
        p.1.object.fields.map Field.idBounds =
          p.1.fieldDeclarations.map FieldDeclaration.bounds ∧
        (p.1.reading.1.failed = true ↔
          ∃ s ∈ p.1.fieldDeclarations, ∃ side, s.deviating side ≠ []) ∧
        (p.1.reading.1.failed = true → p.2 ≠ .kept)) ∧
      ∀ (s : FieldDeclaration) (side : Side),
        s.reports.filter (·.problem = .conflictingBounds s.id side) =
          (s.deviating side).map (fun b => ⟨b.line, .conflictingBounds s.id side⟩) ∧
        (s.deviating side = [] →
          s.bound? side = ((s.ofSide side).filterMap BoundDirective.bound?).getLast? ∧
          ∀ b ∈ s.ofSide side, b.report? s.forms s.id =
            if b.bound?.isNone then some ⟨b.line, .badBound b.argument s.id⟩ else none) := by
  intro source ds
  obtain ⟨hkept, hfound⟩ := Source.readings text
  refine ⟨hkept, ?_, fun p hp => ?_, fun s side =>
    ⟨s.conflicts_reports side, FieldDeclaration.bound?_of_deviating⟩⟩
  · have hbounds := congrArg Finding.ofBounds hfound
    rw [Finding.ofBounds_ofContent, Finding.ofBounds_ofContent] at hbounds
    rw [hbounds, Finding.ofBounds, List.filter_flatMap]
    exact congrArg (List.flatMap · _) (funext fun p => p.1.bounds.2.2)
  · obtain ⟨hfields, hfailed, -⟩ := p.1.bounds
    refine ⟨hfields, ?_, fun hfail hkeep => ?_⟩
    · rw [hfailed, List.any_eq_true]
      exact exists_congr fun s => and_congr_right' FieldDeclaration.conflicted_iff
    · rw [p.1.tracks_reading.failed, Declaration.conflicts_of_kept hp hkeep] at hfail
      cases hfail

example :
    let zone := "Zone,\nN1, \\minimum> 1\n \\minimum x\n \\minimum 2\nN2; \\maximum y\n"
    let wall := "Wall,\nN1; \\minimum> 1\n \\units m\n \\minimum> 2\n \\minimum> z\n"
    let source := Source.ofText (zone ++ wall)
    source.findings =
        [⟨3, .conflictingBounds ⟨.numeric, 1⟩ .minimum⟩,
         ⟨4, .conflictingBounds ⟨.numeric, 1⟩ .minimum⟩,
         ⟨5, .badBound "y" ⟨.numeric, 2⟩⟩,
         ⟨10, .badBound "z" ⟨.numeric, 1⟩⟩] ∧
      source.objects.map (fun o => (o.name, o.fields.map (·.minimum))) =
        [("Wall", [(Number.ofText? "2").map BoundForm.exclusive.bound])] := by
  decide +kernel

end DataDictionary
