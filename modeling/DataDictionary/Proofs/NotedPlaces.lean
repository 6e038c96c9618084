import DataDictionary.Proofs.Names

/-!
# A reader that notes its place

The reader tells the place in which a directive stands from what is open. It might keep a note of
the place instead and go by the note: `Noted` is a reader that does. Three things then say what is
open, the note, the open object, and the field that is open in it, and whatever begins or ends one
of them has to keep them in step. Where they are not, there is still something to do: a directive
that was read as one for a field goes to the object if no field is open, and the two keywords that
exist for both would take effect there.

They always are in step. A token leaves a right note right (`Noted.step_noted`), so both readers
read all tokens alike, and the note says of every state that can be reached what is open in it. A
directive for a field then never gets beyond the open field, nor one for an object beyond its header
(`Noted.coherent_and_confined`).
-/

namespace DataDictionary

open Text

/-! ## Going by the note -/

namespace Keyword

/-- The keyword of a header that a directive is taken for there. -/
def inHeader? : Keyword → Option ObjectKeyword
  | .object k => some k
  | .field .note => some .note
  | .field .beginExtensible => some .beginExtensible
  | _ => none

/-- The keyword of a field that a directive is taken for behind a field marker. -/
def inField? : Keyword → Option FieldKeyword
  | .field k => some k
  | .object .note => some .note
  | .object .beginExtensible => some .beginExtensible
  | _ => none

end Keyword

/-- Applies a directive that was read in the given place: to the open field if that is the place and
there is one, and otherwise to the object. -/
def OpenObject.applyIn (o : OpenObject) (place : Scope) (d : Directive) :
    OpenObject × List Problem :=
  match place, o.field with
  | .field, some f =>
    match d.keyword.inField? with
    | some k => o.applyToField f k d.argument
    | none => (o, [])
  | _, _ =>
    match d.keyword.inHeader? with
    | some k => o.apply k d.argument
    | none => (o, [])

/-- A state of reading with a note of the place in which the next directive stands. -/
structure Noted where
  state : State := {}
  place : Scope := .file

namespace Noted

def startObject (n : Noted) (name : String) (ending : Option Separator) (line : Nat) : Noted :=
  { state := n.state.startObject name ending line, place := .object }

def endObject (n : Noted) : Noted × List Finding :=
  ({ state := n.state.endObject.1, place := .file }, n.state.endObject.2)

def nextObject (n : Noted) (name : String) (ending : Option Separator) (line : Nat) :
    Noted × List Finding :=
  (n.endObject.1.startObject name ending line, n.endObject.2)

def closeIf (n : Noted) (ending : Option Separator) : Noted :=
  { n with state := n.state.closeIf ending }

def onMarker (n : Noted) (id : FieldId) (ending : Option Separator) (line : Nat) :
    Noted × List Finding :=
  match n.state.current with
  | none => (n, [⟨line, .fieldOutsideObject id⟩])
  | some o =>
    let (o, findings) := o.openField id ending line
    ({ state := { n.state with current := some o }, place := .field }, findings)

def onText (n : Noted) (text : String) (ending : Option Separator) (line : Nat) :
    Noted × List Finding :=
  match n.place with
  | .file => (n.startObject text ending line, [])
  | .object =>
    match n.state.current with
    | none => n.nextObject text ending line
    | some o =>
      if o.closed then n.nextObject text ending line
      else (n.closeIf ending, [⟨line, .strayText text o.object.name⟩])
  | .field => n.nextObject text ending line

def onContent (n : Noted) (text : String) (ending : Option Separator) (line : Nat) :
    Noted × List Finding :=
  match FieldId.parse? text with
  | some id => n.onMarker id ending line
  | none => if text = "" then (n.closeIf ending, []) else n.onText text ending line

/-- A directive of the file ends the open object, and nothing is open behind it. -/
def onFileDirective (n : Noted) (k : FileKeyword) (name : String) (line : Nat) :
    Noted × List Finding :=
  ({ state := (n.state.onFileDirective k name line).1, place := .file },
   (n.state.onFileDirective k name line).2)

def applyDirective (n : Noted) (d : Directive) (line : Nat) : Noted × List Finding :=
  match n.state.current with
  | none => (n, [])
  | some o =>
    let (o, problems) := o.applyIn n.place d
    ({ n with state := { n.state with current := some o } }, problems.map (Finding.mk line))

def onDirective (n : Noted) (text : String) (line : Nat) : Noted × List Finding :=
  match Directive.classify? n.place text with
  | none => (n, [⟨line, n.state.strange text⟩])
  | some ⟨.file k, argument⟩ => n.onFileDirective k argument line
  | some d => n.applyDirective d line

/-- Reads a token. -/
def step (n : Noted) (t : Token) : Noted × List Finding :=
  match t.body with
  | .content text ending => n.onContent text ending t.line
  | .directive text ending =>
    let (n, findings) := n.onDirective text t.line
    (n.closeIf ending, findings)
  | .comment _ => (n, [])

/-- Reads tokens. -/
def run (n : Noted) : List Token → Noted × List Finding
  | [] => (n, [])
  | t :: ts =>
    let (n, found) := n.step t
    let (n, findings) := n.run ts
    (n, found ++ findings)

end Noted

/-! ## The note stays right -/

/-- The state with the right note. -/
def State.noted (s : State) : Noted := { state := s, place := s.scope }

theorem OpenObject.applyIn_object (o : OpenObject) (k : ObjectKeyword) (argument : String) :
    o.applyIn .object ⟨.object k, argument⟩ = o.apply k argument := rfl

theorem OpenObject.applyIn_field {o : OpenObject} {f : OpenField} (h : o.field = some f)
    (k : FieldKeyword) (argument : String) :
    o.applyIn .field ⟨.field k, argument⟩ = o.applyToField f k argument := by
  simp only [applyIn, h, Keyword.inField?]

/-- A directive for the open field changes the field, or else the object fails. -/
theorem OpenObject.applyToField_fst {o : OpenObject} {f : OpenField} (h : o.field = some f)
    (k : FieldKeyword) (argument : String) :
    ∃ f' failed, (o.applyToField f k argument).1 = { o with field := some f', failed } := by
  unfold applyToField
  split
  · next f' _ _ => exact ⟨f', o.failed, rfl⟩
  · exact ⟨f, true, by rw [← h]⟩

namespace State

variable {s : State}

theorem noted_of_scope {place : Scope} (h : s.scope = place) : s.noted = ⟨s, place⟩ := by
  rw [← h]
  rfl

theorem scope_of_none (h : s.current = none) : s.scope = .file := by rw [scope, h]

/-- **What is open in each place.** -/
theorem scope_cases (s : State) :
    (s.current = none ∧ s.scope = .file) ∨
    (∃ o, s.current = some o ∧ o.field = none ∧ s.scope = .object) ∨
    ∃ o f, s.current = some o ∧ o.field = some f ∧ s.scope = .field := by
  cases hcur : s.current with
  | none => exact .inl ⟨rfl, scope_of_none hcur⟩
  | some o =>
    cases hfield : o.field with
    | none => exact .inr (.inl ⟨o, rfl, hfield, scope_eq_object hcur hfield⟩)
    | some f => exact .inr (.inr ⟨o, f, rfl, hfield, scope_eq_field hcur hfield⟩)

theorem exists_of_scope_object (h : s.scope = .object) :
    ∃ o, s.current = some o ∧ o.field = none := by
  rcases s.scope_cases with ⟨-, hs⟩ | ⟨o, hcur, hfield, -⟩ | ⟨_, _, -, -, hs⟩
  · cases hs.symm.trans h
  · exact ⟨o, hcur, hfield⟩
  · cases hs.symm.trans h

theorem exists_of_scope_field (h : s.scope = .field) :
    ∃ o f, s.current = some o ∧ o.field = some f := by
  rcases s.scope_cases with ⟨-, hs⟩ | ⟨_, -, -, hs⟩ | ⟨o, f, hcur, hfield, -⟩
  · cases hs.symm.trans h
  · cases hs.symm.trans h
  · exact ⟨o, f, hcur, hfield⟩

@[simp] theorem scope_closeIf (s : State) (ending : Option Separator) :
    (s.closeIf ending).scope = s.scope := by
  cases h : s.current with
  | none => rw [closeIf_of_none h]
  | some o =>
    rw [closeIf_of_some h, scope, scope, h]
    rfl

theorem current_onFileDirective (s : State) (k : FileKeyword) (name : String) (line : Nat) :
    (s.onFileDirective k name line).1.current = none := by
  have hend := endObject_current s
  unfold onFileDirective
  cases k with
  | group | includeFile => exact hend
  | removeObject =>
    dsimp only
    split <;> exact hend

end State

namespace Noted

open State

theorem endObject_noted (s : State) : s.noted.endObject = (s.endObject.1.noted, s.endObject.2) := by
  rw [noted_of_scope (scope_of_none (endObject_current s))]
  rfl

theorem nextObject_noted (s : State) (name : String) (ending : Option Separator) (line : Nat) :
    s.noted.nextObject name ending line =
      ((s.nextObject name ending line).1.noted, (s.nextObject name ending line).2) := by
  rw [nextObject, endObject_noted]
  rfl

theorem closeIf_noted (s : State) (ending : Option Separator) :
    s.noted.closeIf ending = (s.closeIf ending).noted := by
  rw [closeIf, State.noted, State.noted, scope_closeIf]

theorem onMarker_noted (s : State) (id : FieldId) (ending : Option Separator) (line : Nat) :
    s.noted.onMarker id ending line =
      ((s.onMarker id ending line).1.noted, (s.onMarker id ending line).2) := by
  unfold onMarker State.onMarker State.noted
  cases h : s.current with
  | none => rfl
  | some o => rfl

/-- Text is a name or commentary, whether the reader goes by the note or by what is open. -/
theorem onText_noted (s : State) (text : String) (ending : Option Separator) (line : Nat) :
    s.noted.onText text ending line =
      ((s.onText text ending line).1.noted, (s.onText text ending line).2) := by
  rcases s.scope_cases with
    ⟨hcur, hplace⟩ | ⟨o, hcur, hfield, hplace⟩ | ⟨o, f, hcur, hfield, hplace⟩
  · rw [noted_of_scope hplace, onText, State.onText, hcur]
    rfl
  · have hnext := nextObject_noted s text ending line
    have hclose := closeIf_noted s ending
    rw [noted_of_scope hplace] at hnext hclose ⊢
    rw [onText, State.onText, hcur]
    dsimp only
    rw [hnext, hclose, hfield]
    cases o.closed <;> rfl
  · have hnext := nextObject_noted s text ending line
    rw [noted_of_scope hplace] at hnext ⊢
    rw [onText, State.onText, hcur]
    dsimp only
    rw [hnext, hfield]
    rfl

theorem onContent_noted (s : State) (text : String) (ending : Option Separator) (line : Nat) :
    s.noted.onContent text ending line =
      ((s.onContent text ending line).1.noted, (s.onContent text ending line).2) := by
  unfold onContent State.onContent
  cases FieldId.parse? text with
  | some id => exact onMarker_noted s id ending line
  | none =>
    dsimp only
    split
    · rw [closeIf_noted]
    · exact onText_noted s text ending line

theorem onFileDirective_noted (s : State) (k : FileKeyword) (name : String) (line : Nat) :
    s.noted.onFileDirective k name line =
      ((s.onFileDirective k name line).1.noted, (s.onFileDirective k name line).2) := by
  rw [noted_of_scope (scope_of_none (current_onFileDirective s k name line))]
  rfl

/-- With a right note, a directive read in the header of an object goes to the header. -/
theorem applyDirective_of_object {s : State} {o : OpenObject} (hcur : s.current = some o)
    (hfield : o.field = none) (k : ObjectKeyword) (argument : String) (line : Nat) :
    s.noted.applyDirective ⟨.object k, argument⟩ line =
      ({ s with current := some (o.apply k argument).1 }.noted,
       (o.apply k argument).2.map (Finding.mk line)) := by
  have hafter : (o.apply k argument).1.field = none := by
    rw [(o.apply_frame k argument).2.2.2.1, hfield]
  rw [noted_of_scope (scope_eq_object hcur hfield), applyDirective, hcur,
    noted_of_scope (s := { s with current := some (o.apply k argument).1 })
      (scope_eq_object rfl hafter)]
  dsimp only
  rw [OpenObject.applyIn_object]

/-- With a right note, a directive read behind a field marker goes to the open field. -/
theorem applyDirective_of_field {s : State} {o : OpenObject} {f : OpenField}
    (hcur : s.current = some o) (hfield : o.field = some f) (k : FieldKeyword) (argument : String)
    (line : Nat) :
    s.noted.applyDirective ⟨.field k, argument⟩ line =
      ({ s with current := some (o.applyToField f k argument).1 }.noted,
       (o.applyToField f k argument).2.map (Finding.mk line)) := by
  obtain ⟨f', failed, hafter⟩ := o.applyToField_fst hfield k argument
  have hfield' : (o.applyToField f k argument).1.field = some f' := by rw [hafter]
  rw [noted_of_scope (scope_eq_field hcur hfield), applyDirective, hcur,
    noted_of_scope (s := { s with current := some (o.applyToField f k argument).1 })
      (scope_eq_field rfl hfield')]
  dsimp only
  rw [OpenObject.applyIn_field hfield]

theorem onDirective_noted (s : State) (text : String) (line : Nat) :
    s.noted.onDirective text line =
      ((s.onDirective text line).1.noted, (s.onDirective text line).2) := by
  have hplace : s.noted.place = s.scope := rfl
  cases hc : Directive.classify? s.scope text with
  | none =>
    rw [onDirective_of_none hc, onDirective, hplace, hc]
    rfl
  | some d =>
    obtain ⟨k, argument⟩ := d
    rw [onDirective, hplace, hc]
    cases k with
    | file k =>
      rw [onDirective_of_file hc]
      exact onFileDirective_noted s k argument line
    | object k =>
      -- only the header of an object reads keywords of objects
      have hscope : s.scope = .object :=
        (Directive.scope_of_classify? hc).elim (fun h => by cases h) Eq.symm
      obtain ⟨o, hcur, hfield⟩ := exists_of_scope_object hscope
      rw [onDirective_of_object hc hcur]
      exact applyDirective_of_object hcur hfield k argument line
    | field k =>
      have hscope : s.scope = .field :=
        (Directive.scope_of_classify? hc).elim (fun h => by cases h) Eq.symm
      obtain ⟨o, f, hcur, hfield⟩ := exists_of_scope_field hscope
      rw [onDirective_of_field hc hcur hfield]
      exact applyDirective_of_field hcur hfield k argument line

/-- **A token leaves a right note right, and both readers read it alike.** -/
theorem step_noted (s : State) (t : Token) :
    s.noted.step t = ((s.step t).1.noted, (s.step t).2) := by
  unfold step State.step
  cases t.body with
  | content text ending => exact onContent_noted s text ending t.line
  | directive text ending =>
    dsimp only
    rw [onDirective_noted, closeIf_noted]
  | comment text => rfl

/-- **Both readers read all tokens alike.** -/
theorem run_noted (s : State) (ts : List Token) :
    s.noted.run ts = ((s.run ts).1.noted, (s.run ts).2) := by
  induction ts generalizing s with
  | nil => rfl
  | cons t ts ih =>
    rw [run, step_noted]
    dsimp only
    rw [ih, run_cons]

end Noted

/-! ## What is open -/

/-- An object without an open field has no fields yet, and while an object is open, no inclusion
takes removals; the one that does is the last item. -/
structure State.InStep (s : State) : Prop where
  fields : ∀ o, s.current = some o → o.field = none → o.object.fields = []
  closed : ∀ o, s.current = some o → s.includeOpen = false
  last : s.includeOpen = true → ∃ d, s.items.getLast? = some (.inclusion d)

namespace State

theorem inStep_init : ({} : State).InStep where
  fields := by intro o h; cases h
  closed := by intro o h; cases h
  last := by intro h; cases h

theorem InStep.endObject {s : State} (h : s.InStep) : s.endObject.1.InStep := by
  cases hcur : s.current with
  | none => rwa [endObject_of_none hcur]
  | some o =>
    have hclosed := h.closed o hcur
    rcases endObject_fst_of_some hcur with heq | ⟨-, heq⟩ <;> rw [heq]
    all_goals
      refine ⟨fun o' ho' => ?_, fun o' ho' => ?_, fun hopen => ?_⟩
      · cases ho'
      · cases ho'
      · exact absurd hopen (Bool.eq_false_iff.mp hclosed)

end State

/-- No edit leaves an object with finished fields and none open. -/
theorem OpenObject.Edit.fields_eq_nil {t : Token} {o o' : OpenObject} {found : List Finding}
    (hedit : o.Edit t o' found) (h : o.field = none → o.object.fields = [])
    (hfield : o'.field = none) : o'.object.fields = [] := by
  cases hedit with
  | close _ _ => exact h hfield
  | openField _ _ _ => cases hfield
  | header _ _ hnone _ =>
    rw [(o.apply_frame _ _).2.1]
    exact h hnone
  | @field _ argument _ k f _ _ hsome _ =>
    obtain ⟨f', failed, heq⟩ := o.applyToField_fst hsome k argument
    rw [heq] at hfield
    cases hfield

namespace State

/-- Whatever a token does keeps the parts of the state in step. -/
theorem InStep.move {t : Token} {s s' : State} {found : List Finding} (hm : Move t s s' found)
    (h : s.InStep) : s'.InStep := by
  cases hm with
  | remark _ _ => exact h
  | start _ _ _ _ _ =>
    refine ⟨fun o ho _ => ?_, fun _ _ => rfl, fun hopen => by cases hopen⟩
    cases ho
    rfl
  | finish _ => exact h.endObject
  | edit _ hcur hedit =>
    refine ⟨fun o ho hfield => ?_, fun _ _ => h.closed _ hcur, h.last⟩
    cases ho
    exact hedit.fields_eq_nil (h.fields _ hcur) hfield
  | group _ name hcur =>
    exact ⟨h.fields, fun _ _ => rfl, fun hopen => by cases hopen⟩
  | inclusion _ name hcur =>
    refine ⟨h.fields, fun o ho => ?_, fun _ => ⟨_, List.getLast?_concat⟩⟩
    cases hcur.symm.trans ho
  | removal _ name hcur hopen hitems =>
    obtain ⟨before, d, -, rfl⟩ := removeFromLast_eq_some hitems
    refine ⟨h.fields, fun o ho => ?_, fun _ => ⟨_, List.getLast?_concat⟩⟩
    cases hcur.symm.trans ho

theorem inStep_run (ts : List Token) : (run {} ts).1.InStep :=
  run_preserves InStep (fun _ => True) (fun _ => True) (fun _ hm _ h => h.move hm)
    (fun _ _ => trivial) (fun _ _ => trivial) inStep_init

/-- An object that cannot be kept leaves nothing behind. -/
theorem endObject_of_discarded {s : State} {o : OpenObject} (hcur : s.current = some o)
    (h : o.closed = false ∨ o.failed = true ∨ lookupKey o.object.name ∈ s.keys) :
    s.endObject.1 = { s with current := none } := by
  rw [endObject_of_some hcur]
  obtain ⟨hname, -, hclosed, hfailed⟩ := o.finishField_frame
  rw [← hname, ← hclosed, ← hfailed] at h
  rcases keep_cases { s with current := none } o.finishField.1 with
    ⟨-, hk⟩ | ⟨-, -, hk⟩ | ⟨-, -, -, hk⟩ | ⟨hclosed', hfailed', hkey', hk⟩
  · rw [hk]
  · rw [hk]
  · rw [hk]
  · -- this one would be kept
    rcases h with h | h | h
    · cases h.symm.trans hclosed'
    · cases h.symm.trans hfailed'
    · exact absurd h hkey'

end State

/-! ## Coherence -/

namespace Noted

/-- The note, the open object and its open field agree, an inclusion that takes removals is the last
item, and the keys are those of the objects among the items. -/
structure IsCoherent (n : Noted) : Prop where
  file_iff : n.place = .file ↔ n.state.current = none
  object_iff : n.place = .object ↔
    ∃ o, n.state.current = some o ∧ o.field = none ∧ o.object.fields = []
  field_iff : n.place = .field ↔ ∃ o f, n.state.current = some o ∧ o.field = some f
  last : n.state.includeOpen = true → ∃ d, n.state.items.getLast? = some (.inclusion d)
  keys_eq : n.state.keys = (n.state.items.filterMap Item.object?).map fun o => lookupKey o.name

theorem isCoherent_noted {s : State} (h : s.InStep) (hkeys : s.Registered) :
    s.noted.IsCoherent where
  file_iff := by
    refine ⟨fun hplace => ?_, State.scope_of_none⟩
    rcases s.scope_cases with ⟨hcur, -⟩ | ⟨_, -, -, hs⟩ | ⟨_, _, -, -, hs⟩
    · exact hcur
    · cases hs.symm.trans hplace
    · cases hs.symm.trans hplace
  object_iff := by
    refine ⟨fun hplace => ?_, fun ⟨o, hcur, hfield, _⟩ => State.scope_eq_object hcur hfield⟩
    obtain ⟨o, hcur, hfield⟩ := State.exists_of_scope_object hplace
    exact ⟨o, hcur, hfield, h.fields o hcur hfield⟩
  field_iff :=
    ⟨State.exists_of_scope_field, fun ⟨_, _, hcur, hfield⟩ => State.scope_eq_field hcur hfield⟩
  last := h.last
  keys_eq := hkeys.keys_eq

/-! ## Directives stay where they belong -/

/-- The reader takes a token for the open field: it applies a directive of fields to it, and never
goes to the header; of the state nothing changes but that field, whether the object is closed, and
whether it fails. -/
def TakesInField (n : Noted) (t : Token) (d : Directive) : Prop :=
  ∃ o f k, n.state.current = some o ∧ o.field = some f ∧ d.keyword = .field k ∧
    o.applyIn n.place d = o.applyToField f k d.argument ∧
    (n.step t).2 = (o.applyToField f k d.argument).2.map (Finding.mk t.line) ∧
    ∃ f' closed failed, (n.step t).1 =
      { n with
        state := { n.state with current := some { o with field := some f', closed, failed } } }

/-- The reader takes a token for the header of the open object: it applies a directive of objects to
it, and of the state nothing changes but the object; its name and its line stay, and so do its
fields. -/
def TakesInHeader (n : Noted) (t : Token) (d : Directive) : Prop :=
  ∃ o k o', n.state.current = some o ∧ d.keyword = .object k ∧
    o.applyIn n.place d = o.apply k d.argument ∧
    (n.step t).2 = (o.apply k d.argument).2.map (Finding.mk t.line) ∧
    (n.step t).1 = { n with state := { n.state with current := some o' } } ∧
    o'.field = o.field ∧ o'.object.fields = o.object.fields ∧
    o'.object.name = o.object.name ∧ o'.line = o.line ∧ o'.failed = o.failed

variable {s : State} {t : Token} {text : String} {ending : Option Separator} {d : Directive}

theorem takesInField_noted (hbody : t.body = .directive text ending)
    (hc : Directive.classify? s.scope text = some d) (hscope : s.scope = .field)
    (hfile : d.keyword.scope ≠ .file) : s.noted.TakesInField t d := by
  obtain ⟨o, f, hcur, hfield⟩ := State.exists_of_scope_field hscope
  obtain ⟨k, hk⟩ := Keyword.eq_field_of_scope
    (((Directive.scope_of_classify? hc).resolve_left hfile).trans hscope)
  obtain ⟨keyword, argument⟩ := d
  obtain rfl : keyword = .field k := hk
  obtain ⟨f', failed, happlied⟩ := o.applyToField_fst hfield k argument
  have hstep : s.step t =
      ({ s with current := some ((o.applyToField f k argument).1.closeIf ending) },
       (o.applyToField f k argument).2.map (Finding.mk t.line)) := by
    rw [State.step_of_directive hbody, State.onDirective_of_field hc hcur hfield,
      State.closeIf_of_some rfl]
  refine ⟨o, f, k, hcur, hfield, rfl, ?_, ?_, f', o.closed || ending == some .semicolon, failed, ?_⟩
  · rw [show s.noted.place = .field from hscope, OpenObject.applyIn_field hfield]
  · rw [step_noted, hstep]
  · rw [step_noted, hstep, happlied, State.noted_of_scope hscope]
    exact State.noted_of_scope (State.scope_eq_field rfl rfl)

theorem takesInHeader_noted (hbody : t.body = .directive text ending)
    (hc : Directive.classify? s.scope text = some d) (hscope : s.scope = .object)
    (hfile : d.keyword.scope ≠ .file) : s.noted.TakesInHeader t d := by
  obtain ⟨o, hcur, hfield⟩ := State.exists_of_scope_object hscope
  obtain ⟨k, hk⟩ := Keyword.eq_object_of_scope
    (((Directive.scope_of_classify? hc).resolve_left hfile).trans hscope)
  obtain ⟨keyword, argument⟩ := d
  obtain rfl : keyword = .object k := hk
  obtain ⟨hname, hfields, hline, hopen, -, hfailed⟩ := o.apply_frame k argument
  have hstep : s.step t =
      ({ s with current := some ((o.apply k argument).1.closeIf ending) },
       (o.apply k argument).2.map (Finding.mk t.line)) := by
    rw [State.step_of_directive hbody, State.onDirective_of_object hc hcur,
      State.closeIf_of_some rfl]
  refine ⟨o, k, (o.apply k argument).1.closeIf ending, hcur, rfl, ?_, ?_, ?_, hopen, hfields, hname,
    hline, hfailed⟩
  · rw [show s.noted.place = .object from hscope, OpenObject.applyIn_object]
  · rw [step_noted, hstep]
  · rw [step_noted, hstep, State.noted_of_scope hscope]
    exact State.noted_of_scope (State.scope_eq_object rfl (hopen.trans hfield))

/-- **The place and what is open never disagree, and directives stay where they belong.** Whatever
tokens have been read, the reader that goes by a note has read them as the reader does, its state is
coherent, and it stays so when the open object ends. A directive that is not one of the file then
changes nothing but the open field, or nothing but the header of the open object, whichever the
place is. And an object that cannot be kept leaves the items, the keys and the group as they are. -/
theorem coherent_and_confined (ts : List Token) :
    let n := (run {} ts).1
    (n.state = (State.run {} ts).1 ∧ (run {} ts).2 = (State.run {} ts).2) ∧
    n.IsCoherent ∧ n.endObject.1.IsCoherent ∧
    (∀ t text ending d, t.body = .directive text ending →
      Directive.classify? n.place text = some d → d.keyword.scope ≠ .file →
      (n.place = .field → n.TakesInField t d) ∧ (n.place = .object → n.TakesInHeader t d)) ∧
    ∀ o, n.state.current = some o →
      o.closed = false ∨ o.failed = true ∨ lookupKey o.object.name ∈ n.state.keys →
      n.endObject.1 = { state := { n.state with current := none }, place := .file } := by
  intro n
  have hrun : run {} ts = ((State.run {} ts).1.noted, (State.run {} ts).2) := run_noted {} ts
  have hn : n = (State.run {} ts).1.noted := congrArg Prod.fst hrun
  have hinStep := State.inStep_run ts
  have hkeys := State.registered_run ts
  refine ⟨⟨?_, ?_⟩, ?_, ?_, ?_, ?_⟩
  · rw [hn]
    rfl
  · rw [hrun]
  · rw [hn]
    exact isCoherent_noted hinStep hkeys
  · rw [hn, endObject_noted]
    exact isCoherent_noted hinStep.endObject hkeys.endObject
  · intro t text ending d hbody hc hfile
    rw [hn] at hc ⊢
    exact ⟨fun hplace => takesInField_noted hbody hc hplace hfile,
      fun hplace => takesInHeader_noted hbody hc hplace hfile⟩
  · intro o hcur hdiscarded
    rw [hn] at hcur hdiscarded ⊢
    exact congrArg (Noted.mk · .file) (State.endObject_of_discarded hcur hdiscarded)

/-- A note behind a field marker is one on the field. -/
theorem note_taken_in_field :
    let ts : List Token :=
      [{ body := .content "Zone" (some .comma), line := 1 },
       { body := .content "A1" (some .semicolon), line := 2 }]
    let n := (run {} ts).1
    let t : Token := { body := .directive "note in metres" none, line := 2 }
    n.place = .field ∧
      Directive.classify? n.place "note in metres" = some ⟨.field .note, "in metres"⟩ ∧
      n.TakesInField t ⟨.field .note, "in metres"⟩ := by
  intro ts n t
  have hplace : n.place = .field := by decide +kernel
  have hread : Directive.classify? n.place "note in metres" =
      some ⟨.field .note, "in metres"⟩ := by
    rw [hplace]
    decide +kernel
  have hconfined := (coherent_and_confined ts).2.2.2.1 t "note in metres" none _ rfl hread
  exact ⟨hplace, hread, (hconfined (by decide)).1 hplace⟩

-- with a wrong note, a note on a field would become part of what the object says of itself
example : ((OpenObject.start "Zone" none false 1).applyIn .field ⟨.field .note, "in metres"⟩).1 =
    { OpenObject.start "Zone" none false 1 with
      object := { name := "Zone", group := none, memo := "in metres" } } := by decide

end Noted

end DataDictionary
