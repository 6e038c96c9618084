import DataDictionary.Proofs.Segmentation
import Mathlib.Data.List.Induction

/-!
# Declarations are read one by one

What a source makes of a declaration depends on nothing but the tokens of the declaration. While an
object is open, a token either ends it or is added to it, and `OpenObject.take` says how it is added
without a look at the rest of the state. So a declaration can be read by itself, from its name to
its last token (`Declaration.reading`).

The reader does just that (`State.run_reads`). An object that a source keeps is the reading of its
declaration, up to the group that it was declared in; and what a source has to say about its objects
is what the readings of their declarations have to say, one after the other. Nothing else is found
but remarks, and at the end of a declaration the reason why it is not kept.

A property of kept objects or of findings can thus be proved of readings, by induction on the tokens
of one declaration.
-/

namespace DataDictionary

namespace OpenObject

/-- Applies a directive to an open object. A directive of the file is none here. -/
def direct (o : OpenObject) (text : String) (line : Nat) : OpenObject × List Finding :=
  match o.field with
  | none =>
    match Directive.classify? .object text with
    | some ⟨.object k, argument⟩ =>
      ((o.apply k argument).1, (o.apply k argument).2.map (Finding.mk line))
    | _ => (o, [⟨line, .unrecognized text⟩])
  | some f =>
    match Directive.classify? .field text with
    | some ⟨.field k, argument⟩ =>
      ((o.applyToField f k argument).1, (o.applyToField f k argument).2.map (Finding.mk line))
    | _ => (o, [⟨line, .unrecognized text⟩])

/-- Adds a token to an open object. A name is commentary here. -/
def take (o : OpenObject) (t : Token) : OpenObject × List Finding :=
  match t.body with
  | .content text ending =>
    match FieldId.parse? text with
    | some id => o.openField id ending t.line
    | none =>
      (o.closeIf ending,
        if text = "" then [] else [⟨t.line, .strayText text o.object.name⟩])
  | .directive text ending =>
    ((o.direct text t.line).1.closeIf ending, (o.direct text t.line).2)
  | .comment _ => (o, [])

/-- Adds tokens one after the other. -/
def takeAll (o : OpenObject) : List Token → OpenObject × List Finding
  | [] => (o, [])
  | t :: ts => (((o.take t).1.takeAll ts).1, (o.take t).2 ++ ((o.take t).1.takeAll ts).2)

theorem takeAll_append (o : OpenObject) (ts us : List Token) :
    o.takeAll (ts ++ us) =
      (((o.takeAll ts).1.takeAll us).1, (o.takeAll ts).2 ++ ((o.takeAll ts).1.takeAll us).2) := by
  induction ts generalizing o with
  | nil => rfl
  | cons t ts ih => rw [List.cons_append, takeAll, ih, takeAll, List.append_assoc]

/-- A name is commentary in the header of an object that is not closed, and nowhere else. -/
def takesNames (o : OpenObject) : Bool := o.field.isNone && !o.closed

variable {o : OpenObject} {t : Token} {text argument : String} {ending : Option Separator}

theorem take_of_content (h : t.body = .content text ending) (hid : FieldId.parse? text = none) :
    o.take t = (o.closeIf ending,
      if text = "" then [] else [⟨t.line, .strayText text o.object.name⟩]) := by
  simp only [take, h, hid]

theorem take_of_marker {id : FieldId} (h : t.body = .content text ending)
    (hid : FieldId.parse? text = some id) : o.take t = o.openField id ending t.line := by
  simp only [take, h, hid]

theorem take_of_directive (h : t.body = .directive text ending) :
    o.take t = ((o.direct text t.line).1.closeIf ending, (o.direct text t.line).2) := by
  rw [take, h]

theorem direct_of_object {k : ObjectKeyword} (hf : o.field = none)
    (hc : Directive.classify? .object text = some ⟨.object k, argument⟩) (line : Nat) :
    o.direct text line =
      ((o.apply k argument).1, (o.apply k argument).2.map (Finding.mk line)) := by
  simp only [direct, hf, hc]

theorem direct_of_field {k : FieldKeyword} {f : OpenField} (hf : o.field = some f)
    (hc : Directive.classify? .field text = some ⟨.field k, argument⟩) (line : Nat) :
    o.direct text line =
      ((o.applyToField f k argument).1, (o.applyToField f k argument).2.map (Finding.mk line)) := by
  simp only [direct, hf, hc]

/-- **What a directive does to an open object.** It belongs to the header or to the open field, or
it is passed over. -/
theorem direct_cases (o : OpenObject) (text : String) (line : Nat) :
    (∃ k argument, o.field = none ∧
      Directive.classify? .object text = some ⟨.object k, argument⟩) ∨
    (∃ f k argument, o.field = some f ∧
      Directive.classify? .field text = some ⟨.field k, argument⟩) ∨
    ((o.field = none ∨ ∀ k argument,
        Directive.classify? .field text ≠ some ⟨.field k, argument⟩) ∧
      o.direct text line = (o, [⟨line, .unrecognized text⟩])) := by
  unfold direct
  split
  · next hf =>
    split
    · next k argument hc => exact .inl ⟨k, argument, hf, hc⟩
    · exact .inr (.inr ⟨.inl hf, rfl⟩)
  · next f hf =>
    split
    · next k argument hc => exact .inr (.inl ⟨f, k, argument, hf, hc⟩)
    · next hno => exact .inr (.inr ⟨.inr fun k argument hc => hno k argument hc, rfl⟩)

/-! ## Groups -/

/-- The object in another group. -/
def inGroup (o : OpenObject) (group : Option String) : OpenObject :=
  { o with object := { o.object with group } }

theorem finishField_inGroup (o : OpenObject) (group : Option String) :
    (o.inGroup group).finishField = (o.finishField.1.inGroup group, o.finishField.2) := by
  unfold finishField
  show (match o.field with | none => _ | some f => _) = _
  cases o.field <;> rfl

theorem apply_inGroup (o : OpenObject) (group : Option String) (k : ObjectKeyword)
    (argument : String) :
    (o.inGroup group).apply k argument =
      ((o.apply k argument).1.inGroup group, (o.apply k argument).2) := by
  cases k <;> rfl

theorem applyToField_inGroup (o : OpenObject) (group : Option String) (f : OpenField)
    (k : FieldKeyword) (argument : String) :
    (o.inGroup group).applyToField f k argument =
      ((o.applyToField f k argument).1.inGroup group, (o.applyToField f k argument).2) := by
  unfold applyToField
  split <;> rfl

theorem take_inGroup (o : OpenObject) (group : Option String) (t : Token) :
    (o.inGroup group).take t = ((o.take t).1.inGroup group, (o.take t).2) := by
  have hdirect : ∀ text, (o.inGroup group).direct text t.line =
      ((o.direct text t.line).1.inGroup group, (o.direct text t.line).2) := by
    intro text
    unfold direct
    show (match o.field with | none => _ | some f => _) = _
    cases o.field with
    | none =>
      dsimp only
      split
      · rw [apply_inGroup]
      · rfl
    | some f =>
      dsimp only
      split
      · rw [applyToField_inGroup]
      · rfl
  unfold take
  split
  · next text ending _ =>
    split
    · rw [openField, finishField_inGroup]
      rfl
    · rfl
  · rw [hdirect]
    rfl
  · rfl

end OpenObject

/-! ## The reading of a declaration -/

namespace Declaration

/-- What becomes of a declaration by itself, with its last field still open. -/
def reading (d : Declaration) : OpenObject × List Finding :=
  (OpenObject.start d.name none d.opening.closes d.opening.line).takeAll d.rest

/-- The object that a declaration declares, without its group. -/
def object (d : Declaration) : Object :=
  { d.reading.1.finishField.1.object with group := none }

/-- What there is to say about a declaration by itself. -/
def findings (d : Declaration) : List Finding := d.reading.2 ++ d.reading.1.finishField.2

/-- There is a verdict on every declaration. -/
theorem map_fst_judge (survivors ds : List Declaration) : (judge survivors ds).map (·.1) = ds := by
  induction ds generalizing survivors with
  | nil => rfl
  | cons d ds ih => rw [judge, List.map_cons, ih]

theorem reading_add (d : Declaration) (t : Token) :
    (d.add t).reading = ((d.reading.1.take t).1, d.reading.2 ++ (d.reading.1.take t).2) := by
  simp only [reading, add, OpenObject.takeAll_append, OpenObject.takeAll, List.append_nil]

end Declaration

/-- A token that only closes the open object is one more token of its declaration. -/
theorem OpenObject.Tracks.closeIf {o : OpenObject} {d : Declaration} {t : Token}
    {ending : Option Separator} (h : o.Tracks d) (hmark : t.marker? = none)
    (hbound : o.field = none ∨ t.bound? = none)
    (hends : t.closes = (ending == some .semicolon)) : (o.closeIf ending).Tracks (d.add t) := by
  have hadd : (o.closeIf ending).Tracks (d.add t) ∧ Token.conflict? d.rest t = none :=
    h.add_plain hmark hbound rfl rfl rfl rfl (closed_closeIf o hends) rfl
  exact hadd.1

/-- What has been read of a declaration is told by its tokens, and a token that is added is too. -/
theorem OpenObject.Tracks.take {o : OpenObject} {d : Declaration} (h : o.Tracks d) (t : Token) :
    (o.take t).1.Tracks (d.add t) := by
  cases hbody : t.body with
  | content text ending =>
    cases hid : FieldId.parse? text with
    | some id =>
      rw [take_of_marker hbody hid]
      exact (h.add_marker hbody hid).1
    | none =>
      rw [take_of_content hbody hid]
      exact h.closeIf ((Token.marker?_of_content hbody).trans hid)
        (.inr (Token.bound?_of_content hbody)) (Token.closes_of_content hbody)
  | directive text ending =>
    rw [take_of_directive hbody]
    rcases o.direct_cases text t.line with ⟨k, argument, hf, hc⟩ | ⟨f, k, argument, hf, hc⟩ |
      ⟨hno, hdirect⟩
    · rw [direct_of_object hf hc]
      exact (h.add_header hbody hf).1
    · rw [direct_of_field hf hc]
      exact (h.add_field hbody hf hc).1
    · have hbound : o.field = none ∨ t.bound? = none := by
        refine hno.imp id fun hno => ?_
        rw [Token.bound?, hbody]
        dsimp only
        split
        · next hc => exact absurd hc (hno _ _)
        · rfl
      rw [hdirect]
      exact h.closeIf (Token.marker?_of_directive hbody) hbound (Token.closes_of_directive hbody)
  | comment text =>
    have hclosed : (o.take t).1.closed = (o.closed || t.closes) := by
      rw [OpenObject.take, Token.closes, hbody, Bool.or_false]
    rw [OpenObject.take, hbody] at hclosed ⊢
    exact (h.add_plain (by rw [Token.marker?, hbody]) (.inr (by rw [Token.bound?, hbody]))
      rfl rfl rfl rfl hclosed rfl).1

theorem OpenObject.Tracks.inGroup {o : OpenObject} {d : Declaration} (h : o.Tracks d)
    (group : Option String) : (o.inGroup group).Tracks d :=
  ⟨h.name, h.line, h.fields, h.view, h.closed, h.failed⟩

theorem Declaration.tracks_reading (d : Declaration) : d.reading.1.Tracks d := by
  obtain ⟨name, opening, rest⟩ := d
  induction rest using List.reverseRecOn with
  | nil => exact OpenObject.tracks_start name none opening
  | append_singleton rest t ih =>
    have hadd : Declaration.mk name opening (rest ++ [t]) =
        (Declaration.mk name opening rest).add t := rfl
    rw [hadd, Declaration.reading_add]
    exact ih.take t

/-! ## The reader reads declarations -/

/-- Whether a finding is about what a declaration says of its object and its fields. -/
def Finding.isOfContent (f : Finding) : Bool :=
  match f.problem with
  | .conflictingBounds .. | .badBound .. | .badCount .. | .repeatedKey .. | .invertedBounds ..
  | .missingFlag .. | .repeatedField .. => true
  | _ => false

/-- Findings of one kind can be picked from those of another one that they all are of. -/
theorem Finding.filter_filter_of_imp {p q : Finding → Bool} (h : ∀ f, p f = true → q f = true)
    (found : List Finding) : (found.filter q).filter p = found.filter p := by
  rw [List.filter_filter]
  refine List.filter_congr fun f _ => ?_
  cases hp : p f with
  | true => rw [h f hp, Bool.true_and]
  | false => exact Bool.false_and _

/-- The findings that are about what declarations say. -/
def Finding.ofContent (found : List Finding) : List Finding := found.filter (·.isOfContent)

theorem Finding.ofContent_append (found more : List Finding) :
    ofContent (found ++ more) = ofContent found ++ ofContent more := List.filter_append _ _

theorem Finding.ofContent_eq_nil {found : List Finding}
    (h : ∀ f ∈ found, f.isOfContent = false) : ofContent found = [] :=
  List.filter_eq_nil_iff.mpr fun f hf => by rw [h f hf]; exact Bool.false_ne_true

theorem Problem.IsRemark.isOfContent {p : Problem} (h : p.IsRemark) (line : Nat) :
    Finding.isOfContent ⟨line, p⟩ = false := by
  cases h <;> rfl

/-- The object of an item, without its group, and the line it was declared on. -/
def Item.placed? : Item → Option (Object × Nat)
  | .object o line => some ({ o with group := none }, line)
  | _ => none

namespace State

open Declaration

variable {s : State} {survivors : List Declaration} {current : Option Declaration}
  {o : OpenObject} {d : Declaration} {t : Token}

/-- A directive that is not one of the file belongs to the open object. -/
theorem onDirective_of_open (hs : s.current = some o) {text : String}
    (hfile : Directive.classify? .file text = none) (line : Nat) :
    s.onDirective text line =
      ({ s with current := some (o.direct text line).1 }, (o.direct text line).2) := by
  have hpassed : Directive.classify? s.scope text = none →
      s.onDirective text line = ({ s with current := some o }, [⟨line, .unrecognized text⟩]) := by
    intro hc
    rw [onDirective_of_none hc, strange, hs]
    cases s
    simp_all
  cases hf : o.field with
  | none =>
    cases hc : Directive.classify? .object text with
    | none =>
      rw [hpassed (scope_eq_object hs hf ▸ hc)]
      simp only [OpenObject.direct, hf, hc]
    | some directive =>
      obtain ⟨k, argument⟩ := directive
      obtain ⟨k, rfl⟩ := Keyword.eq_object_of_scope (k := k)
        (Directive.scope_eq_of_not_file hfile hc)
      rw [onDirective_of_object (scope_eq_object hs hf ▸ hc) hs, OpenObject.direct_of_object hf hc]
  | some f =>
    cases hc : Directive.classify? .field text with
    | none =>
      rw [hpassed (scope_eq_field hs hf ▸ hc)]
      simp only [OpenObject.direct, hf, hc]
    | some directive =>
      obtain ⟨k, argument⟩ := directive
      obtain ⟨k, rfl⟩ := Keyword.eq_field_of_scope (k := k)
        (Directive.scope_eq_of_not_file hfile hc)
      rw [onDirective_of_field (scope_eq_field hs hf ▸ hc) hs hf, OpenObject.direct_of_field hf hc]

/-- A token that does not end the open object is added to it. -/
theorem step_of_taken (hs : s.current = some o) (hfile : t.isFileDirective = false)
    (hname : t.name? = none ∨ o.takesNames = true) :
    s.step t = ({ s with current := some (o.take t).1 }, (o.take t).2) := by
  cases hbody : t.body with
  | content text ending =>
    rw [step_of_content hbody, onContent]
    cases hid : FieldId.parse? text with
    | some id =>
      rw [OpenObject.take_of_marker hbody hid]
      dsimp only
      rw [onMarker, hs]
    | none =>
      rw [OpenObject.take_of_content hbody hid]
      dsimp only
      by_cases htext : text = ""
      · rw [if_pos htext, if_pos htext, closeIf_of_some hs]
      · rw [Token.name?_of_content hbody htext hid] at hname
        have htakes : (o.field.isNone && !o.closed) = true := hname.resolve_left (by simp)
        rw [if_neg htext, if_neg htext, onText, hs]
        dsimp only
        rw [if_pos htakes, closeIf_of_some hs]
  | directive text ending =>
    rw [Token.isFileDirective_of_directive hbody, Option.isSome_eq_false_iff,
      Option.isNone_iff_eq_none] at hfile
    rw [step_of_directive hbody, OpenObject.take_of_directive hbody, onDirective_of_open hs hfile]
    rfl
  | comment text =>
    rw [step_of_comment hbody, OpenObject.take, hbody]
    cases s
    simp_all

/-- Where nothing is open, a token that is neither a name nor a directive of the file has no effect
and finds a remark at most. -/
theorem step_of_idle (hs : s.current = none) (hfile : t.isFileDirective = false)
    (hname : t.name? = none) :
    (s.step t).1 = s ∧ ∀ f ∈ (s.step t).2, ∃ p, p.IsRemark ∧ f = ⟨t.line, p⟩ := by
  cases hbody : t.body with
  | content text ending =>
    rw [step_of_content hbody, onContent]
    cases hid : FieldId.parse? text with
    | some id =>
      dsimp only
      rw [onMarker, hs]
      exact ⟨rfl, fun f hf => ⟨_, .fieldOutsideObject id, List.mem_singleton.mp hf⟩⟩
    | none =>
      by_cases htext : text = ""
      · dsimp only
        rw [if_pos htext, closeIf_of_none hs]
        exact ⟨rfl, fun f hf => absurd hf List.not_mem_nil⟩
      · rw [Token.name?_of_content hbody htext hid] at hname
        cases hname
  | directive text ending =>
    rw [Token.isFileDirective_of_directive hbody, Option.isSome_eq_false_iff,
      Option.isNone_iff_eq_none] at hfile
    have hscope : s.scope = .file := by rw [scope, hs]
    rw [step_of_directive hbody, onDirective_of_none (hscope ▸ hfile), closeIf_of_none hs]
    exact ⟨rfl, fun f hf => ⟨_, isRemark_strange s text, List.mem_singleton.mp hf⟩⟩
  | comment text =>
    rw [step_of_comment hbody]
    exact ⟨rfl, fun f hf => absurd hf List.not_mem_nil⟩

/-- A name that is not commentary ends the open object and begins the next one. -/
theorem step_of_name {name : String} (hname : t.name? = some name)
    (hs : s.current.all (!·.takesNames) = true) :
    s.step t =
      ({ s.endObject.1 with
         current := some (.start name s.endObject.1.group t.closes t.line)
         includeOpen := false }, s.endObject.2) := by
  unfold Token.name? at hname
  split at hname
  · next text ending hbody =>
    rw [Option.ite_none_left_eq_some, not_or, Option.some.injEq] at hname
    obtain ⟨⟨htext, hid⟩, rfl⟩ := hname
    rw [step_of_content hbody, onContent, Option.not_isSome_iff_eq_none.mp hid]
    dsimp only
    rw [if_neg htext, onText, Token.closes_of_content hbody]
    cases hcur : s.current with
    | none =>
      rw [endObject_of_none hcur]
      rfl
    | some o =>
      rw [hcur, Option.all_some, Bool.not_eq_true'] at hs
      have htakes : ¬ (o.field.isNone && !o.closed) = true := Bool.eq_false_iff.mp hs
      dsimp only
      rw [if_neg htakes]
      rfl
  · cases hname

/-- A directive of the file ends the open object, and what it says is not about objects. -/
theorem step_of_file (hfile : t.isFileDirective = true) (s : State) :
    (s.step t).1.current = none ∧ (s.step t).1.keys = s.endObject.1.keys ∧
      (s.step t).1.items.filterMap Item.placed? = s.endObject.1.items.filterMap Item.placed? ∧
      ∃ more, (s.step t).2 = s.endObject.2 ++ more ∧ ∀ f ∈ more, f.isOfContent = false := by
  unfold Token.isFileDirective at hfile
  split at hfile
  · next text ending hbody =>
    obtain ⟨⟨k, name⟩, hc⟩ := Option.isSome_iff_exists.mp hfile
    obtain ⟨k, rfl⟩ := Keyword.eq_file_of_scope (k := k)
      ((Directive.scope_of_classify? hc).elim id id)
    have hnone : (s.onFileDirective k name t.line).1.current = none := by
      unfold onFileDirective
      cases k with
      | group | includeFile => exact endObject_current s
      | removeObject =>
        dsimp only
        split <;> exact endObject_current s
    rw [step_of_directive hbody, onDirective_of_file (Directive.classify?_of_file hc s.scope),
      closeIf_of_none hnone]
    refine ⟨hnone, ?_⟩
    unfold onFileDirective
    cases k with
    | group | includeFile =>
      refine ⟨rfl, ?_, [], (List.append_nil _).symm, fun f hf => absurd hf List.not_mem_nil⟩
      simp [Item.placed?]
    | removeObject =>
      dsimp only
      split
      · next items hitems =>
        obtain ⟨-, hitems⟩ := Option.ite_none_right_eq_some.mp hitems
        exact ⟨rfl, filterMap_removeFromLast (fun _ => rfl) hitems, [], (List.append_nil _).symm,
          fun f hf => absurd hf List.not_mem_nil⟩
      · refine ⟨rfl, rfl, _, rfl, fun f hf => ?_⟩
        rw [List.mem_singleton.mp hf]
        rfl
  · cases hfile

/-! ### Step by step -/

/-- The reader has kept the objects of the survivors, and what it has open is the reading of the
declaration that is open. -/
structure Reads (s : State) (survivors : List Declaration) (current : Option Declaration) :
    Prop where
  keys : s.keys = survivors.map Declaration.key
  current : Option.Rel (fun o d => ∃ group, o = d.reading.1.inGroup group) s.current current
  kept : s.items.filterMap Item.placed? = survivors.map fun d => (d.object, d.opening.line)

theorem Reads.open_cases (h : s.Reads survivors current) :
    (s.current = none ∧ current = none) ∨
      ∃ d group, s.current = some (d.reading.1.inGroup group) ∧ current = some d := by
  have hcur := h.current
  cases hs : s.current with
  | none =>
    rw [hs] at hcur
    cases hcur
    exact .inl ⟨rfl, rfl⟩
  | some o =>
    rw [hs] at hcur
    cases hcur with
    | @some _ d ho =>
      obtain ⟨group, rfl⟩ := ho
      exact .inr ⟨d, group, rfl, rfl⟩

theorem Reads.tracks (h : s.Reads survivors current) : s.Tracks survivors current := by
  refine ⟨h.keys, ?_⟩
  rcases h.open_cases with ⟨hs, rfl⟩ | ⟨d, group, hs, rfl⟩
  · rw [hs]
    exact .none
  · rw [hs]
    exact .some (d.tracks_reading.inGroup group)

theorem keptOf_judge_singleton (survivors : List Declaration) (d : Declaration) :
    keptOf (judge survivors [d]) = [] ∨ keptOf (judge survivors [d]) = [d] := by
  by_cases hv : verdict survivors d = .kept
  · exact .inr (by simp [judge, keptOf, hv])
  · exact .inl (by simp [judge, keptOf, hv])

/-- What has been found in the declaration that is open. -/
def foundIn (current : Option Declaration) : List Finding := current.elim [] (·.reading.2)

/-- What is found in the declaration that is open when it ends. -/
def foundLast (current : Option Declaration) : List Finding :=
  current.elim [] (·.reading.1.finishField.2)

theorem foundIn_append_foundLast (current : Option Declaration) :
    foundIn current ++ foundLast current = current.toList.flatMap Declaration.findings := by
  cases current <;> simp [foundIn, foundLast, Declaration.findings]

/-- An object that ends is kept with its reading, or not at all. -/
theorem Reads.endObject (h : s.Reads survivors current) :
    s.endObject.1.Reads (survivors ++ keptOf (judge survivors current.toList)) none ∧
      Finding.ofContent s.endObject.2 = Finding.ofContent (foundLast current) := by
  have hadvances := advances_endObject h.tracks
  rcases h.open_cases with ⟨hs, rfl⟩ | ⟨d, group, hs, rfl⟩
  · rw [endObject_of_none hs]
    refine ⟨⟨?_, hs ▸ .none, ?_⟩, rfl⟩
    · simpa [judge, keptOf] using h.keys
    · simpa [judge, keptOf] using h.kept
  · refine ⟨⟨hadvances.tracks.keys, endObject_current s ▸ .none, ?_⟩, ?_⟩
    · have hitems := hadvances.items
      rcases endObject_fst_of_some hs with heq | ⟨-, heq⟩
      · -- nothing is added to the items, so the declaration does not survive
        rw [heq] at hitems ⊢
        have hnone : keptOf (judge survivors (some d).toList) = [] := by
          simpa using hitems
        rw [hnone, List.append_nil]
        exact h.kept
      · -- and if it did not survive, nothing would be added
        rw [heq] at hitems ⊢
        have hkept : keptOf (judge survivors (some d).toList) = [d] := by
          refine (keptOf_judge_singleton survivors d).resolve_left fun hnone => ?_
          rw [Option.toList_some, hnone] at hitems
          simp [Item.summary?] at hitems
        have hline : (d.reading.1.inGroup group).line = d.opening.line := d.tracks_reading.line
        rw [hkept, List.filterMap_append, h.kept, List.map_append, OpenObject.finishField_inGroup,
          hline]
        rfl
    · rw [endObject_of_some hs, Finding.ofContent_append, OpenObject.finishField_inGroup]
      -- what is found at the end of a declaration itself is the verdict on it
      rcases keep_cases { s with current := none } (d.reading.1.finishField.1.inGroup group) with
        ⟨-, hk⟩ | ⟨-, -, hk⟩ | ⟨-, -, -, hk⟩ | ⟨-, -, -, hk⟩
      all_goals
        rw [hk]
        exact List.append_nil _

/-- A token that ends nothing and begins nothing is added to the declaration that is open. -/
theorem Reads.step_add (h : s.Reads survivors current) (hfile : t.isFileDirective = false)
    (hname : t.name? = none ∨ ∃ d, current = some d ∧ d.mayEnd = false) :
    (s.step t).1.Reads survivors (current.map (·.add t)) ∧
      Finding.ofContent (foundIn current ++ (s.step t).2) =
        Finding.ofContent (foundIn (current.map (·.add t))) := by
  rcases h.open_cases with ⟨hs, rfl⟩ | ⟨d, group, hs, rfl⟩
  · have hnone := hname.resolve_right fun ⟨d, hd, _⟩ => (by cases hd)
    obtain ⟨hsame, hremarks⟩ := step_of_idle hs hfile hnone
    refine ⟨by rw [hsame]; exact h, Finding.ofContent_eq_nil fun f hf => ?_⟩
    obtain ⟨p, hremark, rfl⟩ := hremarks f hf
    exact hremark.isOfContent t.line
  · have htakes : t.name? = none ∨ (d.reading.1.inGroup group).takesNames = true := by
      refine hname.imp id fun ⟨e, he, hmay⟩ => ?_
      cases he
      rw [(d.tracks_reading.inGroup group).mayEnd] at hmay
      simpa [OpenObject.takesNames] using hmay
    rw [step_of_taken hs hfile htakes, OpenObject.take_inGroup]
    refine ⟨⟨h.keys, .some ⟨group, ?_⟩, h.kept⟩, ?_⟩
    · rw [reading_add]
    · simp only [foundIn, Option.elim_some, Option.map_some, reading_add]

/-- **A token is added to the reading of the declaration that is open, or ends it.** -/
theorem Reads.step (h : s.Reads survivors current) (t : Token) :
    (s.step t).1.Reads (survivors ++ keptOf (judge survivors (next current t).1))
        (next current t).2 ∧
      Finding.ofContent (foundIn current ++ (s.step t).2) =
        Finding.ofContent
          ((next current t).1.flatMap Declaration.findings ++ foundIn (next current t).2) := by
  obtain ⟨hend, hlast⟩ := h.endObject
  have hended : Finding.ofContent (foundIn current ++ s.endObject.2) =
      Finding.ofContent (current.toList.flatMap Declaration.findings) := by
    rw [Finding.ofContent_append, hlast, ← Finding.ofContent_append, foundIn_append_foundLast]
  have hadd : next current t = ([], current.map (·.add t)) → t.isFileDirective = false →
      (t.name? = none ∨ ∃ d, current = some d ∧ d.mayEnd = false) →
      (s.step t).1.Reads (survivors ++ keptOf (judge survivors (next current t).1))
          (next current t).2 ∧
        Finding.ofContent (foundIn current ++ (s.step t).2) =
          Finding.ofContent
            ((next current t).1.flatMap Declaration.findings ++ foundIn (next current t).2) := by
    intro hnext hfile hname
    obtain ⟨hreads, hfound⟩ := h.step_add hfile hname
    rw [hnext]
    exact ⟨by simpa [judge, keptOf] using hreads, hfound⟩
  cases hfile : t.isFileDirective with
  | true =>
    obtain ⟨hnone, hkeys, hitems, more, hfound, hmore⟩ := step_of_file hfile s
    rw [next_of_fileDirective hfile]
    refine ⟨⟨hkeys.trans hend.keys, hnone ▸ .none, hitems.trans hend.kept⟩, ?_⟩
    rw [hfound, ← List.append_assoc, Finding.ofContent_append, Finding.ofContent_eq_nil hmore,
      hended, Finding.ofContent_append]
    rfl
  | false =>
    cases hname : t.name? with
    | none => exact hadd (next_of_name?_eq_none hfile hname current) hfile (.inl hname)
    | some name =>
      have hnext := next_of_name? hfile hname current
      cases hends : current.all (·.mayEnd) with
      | true =>
        have hopen : s.current.all (!·.takesNames) = true := by
          rcases h.open_cases with ⟨hs, -⟩ | ⟨d, group, hs, rfl⟩
          · rw [hs, Option.all_none]
          · rw [Option.all_some, (d.tracks_reading.inGroup group).mayEnd] at hends
            rw [hs, Option.all_some]
            exact hends
        rw [hends, if_pos rfl] at hnext
        rw [hnext, step_of_name hname hopen]
        refine ⟨⟨hend.keys, .some ⟨s.endObject.1.group, rfl⟩, hend.kept⟩, ?_⟩
        rw [hended, Finding.ofContent_append]
        exact (List.append_nil _).symm
      | false =>
        rw [hends, if_neg Bool.false_ne_true] at hnext
        cases current with
        | none => cases hends
        | some d => exact hadd hnext hfile (.inr ⟨d, rfl, hends⟩)

/-- **Reading to the end is reading declarations.** -/
theorem Reads.run (h : s.Reads survivors current) (ts : List Token) :
    (s.run ts).1.endObject.1.Reads
        (survivors ++ keptOf (judge survivors (cut current ts))) none ∧
      Finding.ofContent (foundIn current ++ ((s.run ts).2 ++ (s.run ts).1.endObject.2)) =
        Finding.ofContent ((cut current ts).flatMap Declaration.findings) := by
  induction ts generalizing s survivors current with
  | nil =>
    obtain ⟨hend, hlast⟩ := h.endObject
    refine ⟨hend, ?_⟩
    rw [cut, ← foundIn_append_foundLast, Finding.ofContent_append, Finding.ofContent_append,
      Finding.ofContent_append, ← hlast]
    rfl
  | cons t ts ih =>
    obtain ⟨hstep, hfound⟩ := h.step t
    obtain ⟨hrun, hmore⟩ := ih hstep
    rw [run_cons, cut]
    refine ⟨?_, ?_⟩
    · rwa [judge_append, keptOf_append, ← List.append_assoc]
    · rw [List.append_assoc, ← List.append_assoc, Finding.ofContent_append, hfound,
        ← Finding.ofContent_append, List.append_assoc, Finding.ofContent_append, hmore,
        ← Finding.ofContent_append, List.flatMap_append]

end State

/-- **The objects of a source are the readings of the declarations that survive, and what the source
finds in their contents is what the readings of all declarations find.** -/
theorem Source.readings (text : String) :
    (Source.ofText text).items.filterMap Item.placed? =
        (Declaration.keptOf (Declaration.ofText text)).map (fun d => (d.object, d.opening.line)) ∧
      Finding.ofContent (Source.ofText text).findings =
        Finding.ofContent ((Declaration.ofText text).flatMap (·.1.findings)) := by
  have hinit : ({} : State).Reads [] none := ⟨rfl, .none, rfl⟩
  obtain ⟨hreads, hfound⟩ := hinit.run ((Token.ofText text).filter (!·.isComment))
  rw [State.run_filter_comments] at hreads hfound
  have hdeclarations : Declaration.cut none ((Token.ofText text).filter (!·.isComment)) =
      (Declaration.ofText text).map (·.1) := by
    rw [Declaration.ofText, Declaration.map_fst_judge]
  refine ⟨hreads.kept, ?_⟩
  rw [hdeclarations, List.flatMap_map] at hfound
  exact hfound

end DataDictionary
