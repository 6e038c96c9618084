import DataDictionary.Proofs.DirectiveEffects
import DataDictionary.Proofs.Moves

/-!
# Invariants of a reader

What every token keeps, a whole source keeps. Two kinds of invariants are set up here. One is about
the state itself. The other is about objects: what is true of an object at its name, survives every
edit, and is enough when the last field is finished, is true of every object that the source keeps
(`objects_hold`). Either may rely on what was found being harmless, which is how the rules that are
only reported, and not enforced, are recovered from a source without complaints.
-/

namespace DataDictionary

/-- What can only be found once an object ends. -/
inductive Problem.IsOfEnd : Problem → Prop where
  | unterminated (object : String) : IsOfEnd (.unterminated object)
  | repeatedObject (object : String) : IsOfEnd (.repeatedObject object)

namespace State

/-! ## Ending an object -/

/-- **The four ways in which an object can end.** -/
theorem keep_cases (s : State) (o : OpenObject) :
    (o.closed = false ∧ s.keep o = (s, [⟨o.line, .unterminated o.object.name⟩])) ∨
    (o.closed = true ∧ o.failed = true ∧ s.keep o = (s, [])) ∨
    (o.closed = true ∧ o.failed = false ∧ Text.lookupKey o.object.name ∈ s.keys ∧
      s.keep o = (s, [⟨o.line, .repeatedObject o.object.name⟩])) ∨
    (o.closed = true ∧ o.failed = false ∧ Text.lookupKey o.object.name ∉ s.keys ∧
      s.keep o =
        ({ s with
           items := s.items ++ [.object o.object o.line]
           keys := s.keys ++ [Text.lookupKey o.object.name] }, [])) := by
  unfold keep
  cases hclosed : o.closed with
  | false => exact .inl ⟨rfl, rfl⟩
  | true =>
    cases hfailed : o.failed with
    | true => exact .inr (.inl ⟨rfl, rfl, rfl⟩)
    | false =>
      by_cases hkey : Text.lookupKey o.object.name ∈ s.keys
      · exact .inr (.inr (.inl ⟨rfl, rfl, hkey, by simp [hkey]⟩))
      · exact .inr (.inr (.inr ⟨rfl, rfl, hkey, by simp [hkey]⟩))

theorem endObject_of_none {s : State} (h : s.current = none) : s.endObject = (s, []) := by
  rw [endObject, h]

theorem endObject_of_some {s : State} {o : OpenObject} (h : s.current = some o) :
    s.endObject =
      (({ s with current := none }.keep o.finishField.1).1,
       o.finishField.2 ++ ({ s with current := none }.keep o.finishField.1).2) := by
  rw [endObject, h]

/-- An open object leaves either nothing but findings or itself as the last item. -/
theorem endObject_fst_of_some {s : State} {o : OpenObject} (h : s.current = some o) :
    s.endObject.1 = { s with current := none } ∨
    (Text.lookupKey o.finishField.1.object.name ∉ s.keys ∧
      s.endObject.1 =
        { s with
          current := none
          items := s.items ++ [.object o.finishField.1.object o.line]
          keys := s.keys ++ [Text.lookupKey o.finishField.1.object.name] }) := by
  obtain ⟨-, hline, -⟩ := o.finishField_frame
  rw [endObject_of_some h, ← hline]
  rcases keep_cases { s with current := none } o.finishField.1 with
    ⟨-, hk⟩ | ⟨-, -, hk⟩ | ⟨-, -, -, hk⟩ | ⟨-, -, hkey, hk⟩
  · exact .inl (by rw [hk])
  · exact .inl (by rw [hk])
  · exact .inl (by rw [hk])
  · exact .inr ⟨hkey, by rw [hk]⟩

/-- A removal goes to the last item, which is an inclusion, and changes nothing else. -/
theorem removeFromLast_eq_some {name : String} {items items' : List Item}
    (h : removeFromLast name items = some items') :
    ∃ before d, items = before ++ [.inclusion d] ∧
      items' = before ++ [.inclusion { d with removed := d.removed ++ [name] }] := by
  induction items generalizing items' with
  | nil => cases h
  | cons item rest ih =>
    cases rest with
    | nil =>
      cases item with
      | inclusion d =>
        cases h
        exact ⟨[], d, rfl, rfl⟩
      | object o line => cases h
      | group g => cases h
    | cons next rest =>
      simp only [removeFromLast, Option.map_eq_some_iff] at h
      obtain ⟨items'', hrest, rfl⟩ := h
      obtain ⟨before, d, hitems, rfl⟩ := ih hrest
      exact ⟨item :: before, d, by rw [hitems]; rfl, rfl⟩

/-- A removal changes nothing but the inclusion, so what is read off other items stays. -/
theorem filterMap_removeFromLast {α : Type} {g : Item → Option α}
    (hg : ∀ d, g (.inclusion d) = none) {name : String} {items items' : List Item}
    (h : removeFromLast name items = some items') : items'.filterMap g = items.filterMap g := by
  obtain ⟨before, d, rfl, rfl⟩ := removeFromLast_eq_some h
  rw [List.filterMap_append, List.filterMap_append, List.filterMap_cons_none (hg _),
    List.filterMap_cons_none (hg _)]

/-! ## Steps and runs -/

theorem step_of_content {t : Token} {text : String} {ending : Option Separator}
    (h : t.body = .content text ending) (s : State) :
    s.step t = s.onContent text ending t.line := by
  rw [step, h]

theorem step_of_directive {t : Token} {text : String} {ending : Option Separator}
    (h : t.body = .directive text ending) (s : State) :
    s.step t =
      ((s.onDirective text t.line).1.closeIf ending, (s.onDirective text t.line).2) := by
  rw [step, h]

theorem step_of_comment {t : Token} {text : String} (h : t.body = .comment text) (s : State) :
    s.step t = (s, []) := by
  rw [step, h]

theorem run_cons (s : State) (t : Token) (ts : List Token) :
    s.run (t :: ts) = (((s.step t).1.run ts).1, (s.step t).2 ++ ((s.step t).1.run ts).2) := rfl

theorem run_append (s : State) (ts us : List Token) :
    s.run (ts ++ us) =
      (((s.run ts).1.run us).1, (s.run ts).2 ++ ((s.run ts).1.run us).2) := by
  induction ts generalizing s with
  | nil => rfl
  | cons t ts ih => rw [List.cons_append, run_cons, ih, run_cons, List.append_assoc]

/-! ## Invariants of the state -/

/-- **What every move keeps, a run keeps.** -/
theorem run_preserves (P : State → Prop) (Good : Finding → Prop) (Ok : Token → Prop)
    (hmove : ∀ {t s s' found}, Ok t → Move t s s' found → (∀ f ∈ found, Good f) → P s → P s') :
    ∀ {ts : List Token} {s : State}, (∀ t ∈ ts, Ok t) → (∀ f ∈ (run s ts).2, Good f) → P s →
      P (run s ts).1
  | [], _, _, _, hs => hs
  | t :: ts, s, hok, hgood, hs => by
    rw [run_cons] at hgood ⊢
    have hstep : P (s.step t).1 :=
      (moves_step t s).preserves (hmove (hok t (by simp)))
        (fun f hf => hgood f (List.mem_append_left _ hf)) hs
    exact run_preserves P Good Ok hmove (fun u hu => hok u (List.mem_cons_of_mem _ hu))
      (fun f hf => hgood f (List.mem_append_right _ hf)) hstep

/-! ## What is found -/

/-- What is true of everything that a move finds is true of everything that moves find. -/
theorem Moves.found {Good : Finding → Prop} {t : Token} {s s' : State} {found : List Finding}
    (hmove : ∀ {s s' found}, Move t s s' found → ∀ f ∈ found, Good f)
    (h : Moves t s s' found) : ∀ f ∈ found, Good f := by
  induction h with
  | rest _ => exact fun f hf => absurd hf List.not_mem_nil
  | cons hfirst _ ih => exact fun f hf => (List.mem_append.mp hf).elim (hmove hfirst f) (ih f)

/-- And of everything that a run finds. -/
theorem found_of_move {Good : Finding → Prop}
    (hmove : ∀ {t s s' found}, Move t s s' found → ∀ f ∈ found, Good f) :
    ∀ (ts : List Token) (s : State), ∀ f ∈ (s.run ts).2, Good f
  | [], _, f, hf => absurd hf List.not_mem_nil
  | t :: ts, s, f, hf => by
    rw [run_cons] at hf
    exact (List.mem_append.mp hf).elim ((moves_step t s).found hmove f) (found_of_move hmove ts _ f)

theorem ofEnd_of_mem_keep {s : State} {o : OpenObject} {f : Finding} (h : f ∈ (s.keep o).2) :
    f.problem.IsOfEnd := by
  rcases keep_cases s o with ⟨-, hk⟩ | ⟨-, -, hk⟩ | ⟨-, -, -, hk⟩ | ⟨-, -, -, hk⟩
  all_goals rw [hk] at h
  · rw [List.mem_singleton.mp h]
    exact .unterminated _
  · cases h
  · rw [List.mem_singleton.mp h]
    exact .repeatedObject _
  · cases h

/-- **What a move can find.** -/
theorem Move.found_cases {t : Token} {s s' : State} {found : List Finding}
    (hm : Move t s s' found) {f : Finding} (hf : f ∈ found) :
    f.problem.IsRemark ∨ f.problem.IsOfField ∨ f.problem.IsOfEnd ∨
      (f.problem.IsOfDirective ∧ ∃ text ending, t.body = .directive text ending) := by
  cases hm with
  | remark _ hremark =>
    rw [List.mem_singleton.mp hf]
    exact .inl hremark
  | start _ _ _ _ _ | group _ _ _ | inclusion _ _ _ | removal _ _ _ _ _ => cases hf
  | finish _ =>
    cases hcur : s.current with
    | none =>
      rw [endObject_of_none hcur] at hf
      cases hf
    | some o =>
      rw [endObject_of_some hcur] at hf
      rcases List.mem_append.mp hf with hf | hf
      · exact .inr (.inl (OpenObject.ofField_of_mem_finishField hf))
      · exact .inr (.inr (.inl (ofEnd_of_mem_keep hf)))
  | edit _ _ hedit =>
    cases hedit with
    | close _ _ => cases hf
    | openField _ _ _ => exact .inr (.inl (OpenObject.ofField_of_mem_finishField hf))
    | header _ hbody _ _ =>
      obtain ⟨p, hp, rfl⟩ := List.mem_map.mp hf
      obtain ⟨what, rfl⟩ := OpenObject.badCount_of_mem_apply hp
      exact .inr (.inr (.inr ⟨.badCount _ _, _, _, hbody⟩))
    | field _ hbody _ _ =>
      obtain ⟨p, hp, rfl⟩ := List.mem_map.mp hf
      exact .inr (.inr (.inr ⟨OpenObject.ofDirective_of_mem_applyToField hp, _, _, hbody⟩))

/-! ## Invariants of objects -/

/-- The open object satisfies `I`, and every object that has been kept satisfies `Q`. -/
structure Holds (I : OpenObject → Prop) (Q : Object → Prop) (s : State) : Prop where
  current : ∀ o, s.current = some o → I o
  kept : ∀ o ∈ s.items.filterMap Item.object?, Q o

variable {I : OpenObject → Prop} {Q : Object → Prop} {Good : Finding → Prop}

theorem holds_init : ({} : State).Holds I Q where
  current := by intro o h; simp at h
  kept := by intro o h; simp at h

theorem Holds.endObject {s : State}
    (hfinish : ∀ {o}, I o → (∀ f ∈ o.finishField.2, Good f) → Q o.finishField.1.object)
    (hgood : ∀ f ∈ s.endObject.2, Good f) (h : s.Holds I Q) : s.endObject.1.Holds I Q := by
  cases hcur : s.current with
  | none =>
    rw [endObject_of_none hcur]
    exact h
  | some o =>
    have hq : Q o.finishField.1.object := by
      refine hfinish (h.current o hcur) fun f hf => hgood f ?_
      rw [endObject_of_some hcur]
      exact List.mem_append_left _ hf
    refine ⟨fun o' ho' => ?_, ?_⟩
    · rw [endObject_current] at ho'
      cases ho'
    · rcases endObject_fst_of_some hcur with heq | ⟨-, heq⟩
      · rw [heq]
        exact h.kept
      · -- the object that has just ended is the last one that is kept
        rw [heq, List.filterMap_append]
        intro o' ho'
        rcases List.mem_append.mp ho' with ho' | ho'
        · exact h.kept o' ho'
        · simp only [List.filterMap_cons, Item.object?, List.filterMap_nil,
            List.mem_singleton] at ho'
          exact ho' ▸ hq

/-- An invariant of objects is kept by every move, provided names establish it and edits keep it. -/
theorem Holds.move {t : Token} {s s' : State} {found : List Finding}
    (hstart : ∀ {text ending} (group : Option String) (closed : Bool),
      t.body = .content text ending → text ≠ "" → FieldId.parse? text = none →
      I (.start text group closed t.line))
    (hedit : ∀ {o o' found}, OpenObject.Edit t o o' found → (∀ f ∈ found, Good f) → I o → I o')
    (hfinish : ∀ {o}, I o → (∀ f ∈ o.finishField.2, Good f) → Q o.finishField.1.object)
    (hm : Move t s s' found) (hgood : ∀ f ∈ found, Good f) (h : s.Holds I Q) : s'.Holds I Q := by
  cases hm with
  | remark _ _ => exact h
  | start _ _ hbody htext hid =>
    refine ⟨fun o ho => ?_, h.kept⟩
    simp only [startObject, Option.some.injEq] at ho
    exact ho ▸ hstart _ _ hbody htext hid
  | finish _ => exact h.endObject hfinish hgood
  | edit _ hcur hed =>
    refine ⟨fun o ho => ?_, h.kept⟩
    simp only [Option.some.injEq] at ho
    exact ho ▸ hedit hed hgood (h.current _ hcur)
  | group _ name hcur =>
    refine ⟨h.current, fun o ho => h.kept o ?_⟩
    simpa [Item.object?] using ho
  | inclusion _ name hcur =>
    refine ⟨h.current, fun o ho => h.kept o ?_⟩
    simpa [Item.object?] using ho
  | removal _ name hcur _ hitems =>
    -- removals are noted in an inclusion, which is no object
    refine ⟨h.current, fun o ho => h.kept o ?_⟩
    rwa [filterMap_removeFromLast (fun _ => rfl) hitems] at ho

end State

theorem snd_readTokens (ts : List Token) :
    (readTokens ts).2 = (State.run {} ts).2 ++ (State.run {} ts).1.endObject.2 := rfl

/-- What is true of everything that a move finds is true of all findings of a source. -/
theorem Source.found_of_move {Good : Finding → Prop}
    (hmove : ∀ {t s s' found}, State.Move t s s' found → ∀ f ∈ found, Good f) {text : String} :
    ∀ f ∈ (Source.ofText text).findings, Good f := by
  intro f hf
  rcases List.mem_append.mp hf with hf | hf
  · exact State.found_of_move hmove _ _ f hf
  · -- the last object ends at the end of the source, on account of no token
    exact hmove (t := { body := .comment "", line := 0 }) (.finish _) f hf

/-- **What names establish and edits keep is true of every object of a source.** -/
theorem objects_hold {I : OpenObject → Prop} {Q : Object → Prop} {Good : Finding → Prop}
    {ts : List Token}
    (hstart : ∀ t ∈ ts, ∀ {text ending} (group : Option String) (closed : Bool),
      t.body = .content text ending → text ≠ "" → FieldId.parse? text = none →
      I (.start text group closed t.line))
    (hedit : ∀ t ∈ ts, ∀ {o o' found}, OpenObject.Edit t o o' found → (∀ f ∈ found, Good f) →
      I o → I o')
    (hfinish : ∀ {o}, I o → (∀ f ∈ o.finishField.2, Good f) → Q o.finishField.1.object)
    (hgood : ∀ f ∈ (readTokens ts).2, Good f) :
    ∀ o ∈ (readTokens ts).1.filterMap Item.object?, Q o := by
  rw [snd_readTokens] at hgood
  have hrun : (State.run {} ts).1.Holds I Q :=
    State.run_preserves (State.Holds I Q) Good (· ∈ ts)
      (fun ht hm hg h => h.move (hstart _ ht) (hedit _ ht) hfinish hm hg)
      (fun t ht => ht) (fun f hf => hgood f (List.mem_append_left _ hf))
      State.holds_init
  exact (hrun.endObject hfinish fun f hf => hgood f (List.mem_append_right _ hf)).kept

end DataDictionary
