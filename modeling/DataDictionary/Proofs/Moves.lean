import DataDictionary.Source.Reader
import DataDictionary.Proofs.Scopes

/-!
# What reading a token can do

The reader looks at a token, at what is open, and at the tables, and then does one of a few things:
it says something without changing anything, it begins or ends an object, it edits the object that
is open, or it declares an item of the file. `Move` lists them once. A token takes at most three
moves, and `moves_step` says that it never does anything else.

An invariant of the reader is then proved move by move, without following how the reader chose the
move, and `Moves.preserves` and `moves_run` carry it over a whole source.
-/

namespace DataDictionary

/-- How a token changes the object that is open, and what is found on the way. -/
inductive OpenObject.Edit (t : Token) : OpenObject → OpenObject → List Finding → Prop where
  | close (o : OpenObject) (ending : Option Separator) : Edit t o (o.closeIf ending) []
  | openField {text : String} {ending : Option Separator} {id : FieldId} (o : OpenObject) :
      t.body = .content text ending → FieldId.parse? text = some id →
      Edit t o (o.openField id ending t.line).1 (o.openField id ending t.line).2
  | header {text argument : String} {ending : Option Separator} {k : ObjectKeyword}
      (o : OpenObject) :
      t.body = .directive text ending → o.field = none →
      Directive.classify? .object text = some ⟨.object k, argument⟩ →
      Edit t o (o.apply k argument).1 ((o.apply k argument).2.map (⟨t.line, ·⟩))
  | field {text argument : String} {ending : Option Separator} {k : FieldKeyword} {f : OpenField}
      (o : OpenObject) :
      t.body = .directive text ending → o.field = some f →
      Directive.classify? .field text = some ⟨.field k, argument⟩ →
      Edit t o (o.applyToField f k argument).1 ((o.applyToField f k argument).2.map (⟨t.line, ·⟩))

/-- The problems that are reported on their own, without any effect on what is read. -/
inductive Problem.IsRemark : Problem → Prop where
  | strayText (text object : String) : IsRemark (.strayText text object)
  | outsideObject (directive : String) : IsRemark (.outsideObject directive)
  | unrecognized (directive : String) : IsRemark (.unrecognized directive)
  | looseRemoval (name : String) : IsRemark (.looseRemoval name)
  | fieldOutsideObject (id : FieldId) : IsRemark (.fieldOutsideObject id)

namespace State

/-- A single thing that the reader does on account of a token. -/
inductive Move (t : Token) : State → State → List Finding → Prop where
  | remark {p : Problem} (s : State) : p.IsRemark → Move t s s [⟨t.line, p⟩]
  | start {text : String} {ending : Option Separator} (s : State) :
      s.current = none → t.body = .content text ending → text ≠ "" →
      FieldId.parse? text = none → Move t s (s.startObject text ending t.line) []
  | finish (s : State) : Move t s s.endObject.1 s.endObject.2
  | edit {o o' : OpenObject} {found : List Finding} (s : State) :
      s.current = some o → o.Edit t o' found → Move t s { s with current := some o' } found
  | group (s : State) (name : String) : s.current = none →
      Move t s
        { s with group := some name, items := s.items ++ [.group name], includeOpen := false } []
  | inclusion (s : State) (name : String) : s.current = none →
      Move t s
        { s with
          items := s.items ++ [.inclusion { source := name, line := t.line }]
          includeOpen := true } []
  | removal {items : List Item} (s : State) (name : String) :
      s.current = none → s.includeOpen = true → removeFromLast name s.items = some items →
      Move t s { s with items } []

/-- Any number of moves, with everything they find in its order. -/
inductive Moves (t : Token) : State → State → List Finding → Prop where
  | rest (s : State) : Moves t s s []
  | cons {s s' s'' : State} {found more : List Finding} :
      Move t s s' found → Moves t s' s'' more → Moves t s s'' (found ++ more)

variable {t : Token} {s s' s'' : State} {found more : List Finding}

theorem Move.moves (h : Move t s s' found) : Moves t s s' found := by
  have hm := Moves.cons h (.rest s')
  rwa [List.append_nil] at hm

theorem Moves.append (h : Moves t s s' found) (h' : Moves t s' s'' more) :
    Moves t s s'' (found ++ more) := by
  induction h with
  | rest s => exact h'
  | cons hm _ ih =>
    rw [List.append_assoc]
    exact .cons hm (ih h')

/-- What every move keeps as long as it finds nothing bad, all moves together keep. -/
theorem Moves.preserves {P : State → Prop} {Good : Finding → Prop}
    (hmove : ∀ {s s' found}, Move t s s' found → (∀ f ∈ found, Good f) → P s → P s')
    (h : Moves t s s' found) (hgood : ∀ f ∈ found, Good f) (hs : P s) : P s' := by
  induction h with
  | rest s => exact hs
  | cons hm _ ih =>
    refine ih (fun f hf => hgood f (List.mem_append_right _ hf)) ?_
    exact hmove hm (fun f hf => hgood f (List.mem_append_left _ hf)) hs

/-! ## The reader makes moves -/

@[simp] theorem endObject_current (s : State) : s.endObject.1.current = none := by
  unfold endObject
  split
  · assumption
  · next o _ =>
    show (State.keep _ _).1.current = none
    unfold keep
    dsimp only
    split
    · rfl
    · split
      · rfl
      · split <;> rfl

/-- Without an open object a separator closes nothing. -/
theorem closeIf_of_none (h : s.current = none) (ending : Option Separator) :
    s.closeIf ending = s := by
  cases s
  simp only at h
  subst h
  rfl

theorem closeIf_of_some {o : OpenObject} (h : s.current = some o) (ending : Option Separator) :
    s.closeIf ending = { s with current := some (o.closeIf ending) } := by
  rw [closeIf, h]
  rfl

theorem moves_closeIf (t : Token) (s : State) (ending : Option Separator) :
    Moves t s (s.closeIf ending) [] := by
  cases h : s.current with
  | none =>
    rw [closeIf_of_none h]
    exact .rest s
  | some o =>
    rw [closeIf_of_some h]
    exact (Move.edit s h (.close o ending)).moves

theorem moves_onMarker {text : String} {ending : Option Separator} {id : FieldId}
    (hbody : t.body = .content text ending) (hid : FieldId.parse? text = some id) (s : State) :
    Moves t s (s.onMarker id ending t.line).1 (s.onMarker id ending t.line).2 := by
  unfold onMarker
  split
  · exact (Move.remark s (.fieldOutsideObject id)).moves
  · next o h => exact (Move.edit s h (.openField o hbody hid)).moves

theorem moves_onText {text : String} {ending : Option Separator}
    (hbody : t.body = .content text ending) (htext : text ≠ "") (hid : FieldId.parse? text = none)
    (s : State) : Moves t s (s.onText text ending t.line).1 (s.onText text ending t.line).2 := by
  unfold onText
  split
  · next h => exact (Move.start s h hbody htext hid).moves
  · next o h =>
    split
    · exact (Move.remark s (.strayText text o.object.name)).moves.append (moves_closeIf t s ending)
    · -- the open object ends, and the name begins the next one
      have hstart := (Move.start _ (endObject_current s) hbody htext hid).moves
      have hm := (Move.finish (t := t) s).moves.append hstart
      rwa [List.append_nil] at hm

theorem moves_onContent {text : String} {ending : Option Separator}
    (hbody : t.body = .content text ending) (s : State) :
    Moves t s (s.onContent text ending t.line).1 (s.onContent text ending t.line).2 := by
  unfold onContent
  split
  · next id hid => exact moves_onMarker hbody hid s
  · next hid =>
    split
    · exact moves_closeIf t s ending
    · next htext => exact moves_onText hbody htext hid s

theorem moves_onFileDirective (t : Token) (k : FileKeyword) (name : String) (s : State) :
    Moves t s (s.onFileDirective k name t.line).1 (s.onFileDirective k name t.line).2 := by
  have hend := (Move.finish (t := t) s).moves
  have hnone := endObject_current s
  unfold onFileDirective
  cases k with
  | group =>
    have hm := hend.append (Move.group _ name hnone).moves
    rwa [List.append_nil] at hm
  | includeFile =>
    have hm := hend.append (Move.inclusion (t := t) _ name hnone).moves
    rwa [List.append_nil] at hm
  | removeObject =>
    dsimp only
    split
    · -- the last item is an inclusion that still takes removals
      next items hitems =>
      obtain ⟨hopen, hitems⟩ := Option.ite_none_right_eq_some.mp hitems
      have hm := hend.append (Move.removal _ name hnone hopen hitems).moves
      rwa [List.append_nil] at hm
    · exact hend.append (Move.remark _ (.looseRemoval name)).moves

theorem scope_eq_object {o : OpenObject} (h : s.current = some o) (hf : o.field = none) :
    s.scope = .object := by
  simp [scope, h, hf]

theorem scope_eq_field {o : OpenObject} {f : OpenField} (h : s.current = some o)
    (hf : o.field = some f) : s.scope = .field := by
  simp [scope, h, hf]

theorem onDirective_of_none {text : String} (h : Directive.classify? s.scope text = none)
    (line : Nat) : s.onDirective text line = (s, [⟨line, s.strange text⟩]) := by
  rw [onDirective, h]

theorem onDirective_of_file {text argument : String} {k : FileKeyword}
    (h : Directive.classify? s.scope text = some ⟨.file k, argument⟩) (line : Nat) :
    s.onDirective text line = s.onFileDirective k argument line := by
  rw [onDirective, h]

theorem onDirective_of_object {text argument : String} {k : ObjectKeyword} {o : OpenObject}
    (h : Directive.classify? s.scope text = some ⟨.object k, argument⟩) (hs : s.current = some o)
    (line : Nat) :
    s.onDirective text line =
      ({ s with current := some (o.apply k argument).1 },
       (o.apply k argument).2.map (Finding.mk line)) := by
  rw [onDirective, h]
  dsimp only
  rw [onObjectDirective, hs]

theorem onDirective_of_field {text argument : String} {k : FieldKeyword} {o : OpenObject}
    {f : OpenField} (h : Directive.classify? s.scope text = some ⟨.field k, argument⟩)
    (hs : s.current = some o) (hf : o.field = some f) (line : Nat) :
    s.onDirective text line =
      ({ s with current := some (o.applyToField f k argument).1 },
       (o.applyToField f k argument).2.map (Finding.mk line)) := by
  rw [onDirective, h]
  dsimp only
  rw [onFieldDirective, hs]
  dsimp only
  rw [hf]

/-- A directive that is not understood is reported and has no effect. -/
theorem isRemark_strange (s : State) (text : String) : (s.strange text).IsRemark := by
  unfold strange
  split
  · exact .outsideObject text
  · exact .unrecognized text

theorem moves_onDirective {text : String} {ending : Option Separator}
    (hbody : t.body = .directive text ending) (s : State) :
    Moves t s (s.onDirective text t.line).1 (s.onDirective text t.line).2 := by
  unfold onDirective
  split
  · exact (Move.remark s (isRemark_strange s text)).moves
  · exact moves_onFileDirective t _ _ s
  · next k argument hc =>
    unfold onObjectDirective
    split
    · exact .rest s
    · next o h =>
      cases hf : o.field with
      | none =>
        rw [scope_eq_object h hf] at hc
        exact (Move.edit s h (.header o hbody hf hc)).moves
      | some f =>
        -- a keyword of the header is never read behind a field marker
        rw [scope_eq_field h hf] at hc
        rcases Directive.scope_of_classify? hc with hs | hs <;> cases hs
  · next k argument hc =>
    unfold onFieldDirective
    split
    · exact .rest s
    · next o h =>
      split
      · exact .rest s
      · next f hf =>
        rw [scope_eq_field h hf] at hc
        exact (Move.edit s h (.field o hbody hf hc)).moves

/-- **Every token makes moves and nothing else.** -/
theorem moves_step (t : Token) (s : State) : Moves t s (s.step t).1 (s.step t).2 := by
  unfold step
  split
  · next hbody => exact moves_onContent hbody s
  · next text ending hbody =>
    have hm := (moves_onDirective hbody s).append (moves_closeIf t _ ending)
    rwa [List.append_nil] at hm
  · exact .rest s

end State

end DataDictionary
