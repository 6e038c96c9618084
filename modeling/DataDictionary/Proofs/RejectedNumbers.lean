import DataDictionary.Proofs.Invariants

/-!
# Numbers that are not understood

A directive for a count or a bound whose argument is no number of its kind is reported, and nothing
else is found at its token. A bound stays as it was then. A count does not: the directive leaves the
object without one, also where an earlier directive had set it (`count_forgotten`). Apart from that
one count no number of the object or of its open field changes (`State.step_of_invalidNumber`).
-/

namespace DataDictionary

/-- The count that could not be read. -/
def Problem.count? : Problem → Option CountOf
  | .badCount what _ => some what
  | _ => none

namespace OpenObject

/-- A bound of the open field. -/
def bound (o : OpenObject) (side : Side) : Option Bound := o.field.bind (·.field.bound side)

/-- The numbers of an object and of its open field are still the same. -/
structure KeepsNumbers (o o' : OpenObject) : Prop where
  bound : ∀ side, o'.bound side = o.bound side
  count : ∀ what, o'.object.count what = o.object.count what

/-- What becomes of the numbers when a problem with one of them is found. -/
structure Rejects (p : Problem) (o o' : OpenObject) : Prop where
  bound : ∀ side, o'.bound side = o.bound side
  /-- A count that could not be read is not there any more. -/
  count : ∀ what, o'.object.count what = if p.count? = some what then none else o.object.count what

variable {o o' : OpenObject} {p : Problem} {argument : String}

/-- The numbers are the same after all if the count was not there before. -/
theorem Rejects.keepsNumbers_iff (h : o.Rejects p o') :
    o.KeepsNumbers o' ↔ ∀ what, p.count? = some what → o.object.count what = none := by
  constructor
  · intro hkeeps what hwhat
    rw [← hkeeps.count, h.count, if_pos hwhat]
  · intro hnone
    refine ⟨h.bound, fun what => ?_⟩
    rw [h.count]
    split
    · next hwhat => exact (hnone what hwhat).symm
    · rfl

/-- A semicolon changes no number. -/
theorem Rejects.closeIf (h : o.Rejects p o') (ending : Option Separator) :
    o.Rejects p (o'.closeIf ending) := ⟨h.bound, h.count⟩

/-! ## Directives -/

theorem rejects_apply {k : ObjectKeyword} (hp : p ∈ (o.apply k argument).2) :
    (o.apply k argument).2 = [p] ∧ o.Rejects p (o.apply k argument).1 := by
  have hproblems := o.problems_apply k argument
  rw [hproblems] at hp
  split at hp
  · next hnone =>
    obtain ⟨what, hk, rfl⟩ := Option.map_eq_some_iff.mp (Option.mem_toList.mp hp)
    refine ⟨?_, fun side => ?_, fun other => ?_⟩
    · rw [hproblems, if_pos hnone, hk, Option.map_some, Option.toList_some]
    · rw [bound, (o.apply_frame k argument).2.2.2.1, bound]
    · rw [count_apply, hk, Option.isNone_iff_eq_none.mp hnone, Problem.count?]
  · cases hp

theorem rejects_applyToField {k : FieldKeyword} {f : OpenField} (hfield : o.field = some f)
    (hp : p ∈ (o.applyToField f k argument).2) (hkind : p.kind = .invalidNumber) :
    (o.applyToField f k argument).2 = [p] ∧ o.Rejects p (o.applyToField f k argument).1 := by
  unfold applyToField at hp ⊢
  cases hk : k.bound? with
  | none =>
    obtain ⟨f', problems, happly, -, -, -, hkeys⟩ := f.apply_of_bound?_eq_none hk argument
    rw [happly] at hp
    rw [hkeys p hp] at hkind
    cases hkind
  | some b =>
    obtain ⟨side, form⟩ := b
    rw [OpenField.apply_of_bound? hk] at hp ⊢
    rcases f.setBound_cases side form argument with ⟨-, hset⟩ | ⟨-, f', hset, -, -, hbound⟩
    · rw [hset] at hp
      rw [List.mem_singleton.mp hp] at hkind
      cases hkind
    · rw [hset] at hp ⊢
      dsimp only at hp ⊢
      split at hp
      · -- only the form is taken over, for the directives to come
        next hnone =>
        rw [if_pos hnone, List.mem_singleton.mp hp]
        refine ⟨rfl, fun other => ?_, fun what => ?_⟩
        · rw [bound, bound, hfield, Option.bind_some, Option.bind_some, hbound,
            Option.isNone_iff_eq_none.mp hnone, Option.map_none, ite_self, Option.none_or]
        · exact (if_neg (Option.some_ne_none what).symm).symm
      · cases hp

end OpenObject

namespace State

variable {s : State} {t : Token} {f : Finding}

/-- Numbers are only rejected at directives. -/
theorem Moves.directive_of_invalidNumber {s' : State} {found : List Finding}
    (h : Moves t s s' found) (hf : f ∈ found) (hkind : f.problem.kind = .invalidNumber) :
    ∃ text ending, t.body = .directive text ending := by
  have hall : ∀ f ∈ found, f.problem.kind = .invalidNumber →
      ∃ text ending, t.body = .directive text ending := by
    refine h.found fun hm f hf hkind => ?_
    rcases hm.found_cases hf with hremark | hfield | hend | ⟨-, hbody⟩
    · generalize f.problem = p at hremark hkind
      cases hremark <;> cases hkind
    · generalize f.problem = p at hfield hkind
      cases hfield <;> cases hkind
    · generalize f.problem = p at hend hkind
      cases hend <;> cases hkind
    · exact hbody
  exact hall f hf hkind

/-- A directive at which a number is rejected is one for what is open. -/
theorem onDirective_of_invalidNumber {text : String} {line : Nat}
    (hf : f ∈ (s.onDirective text line).2) (hkind : f.problem.kind = .invalidNumber) :
    ∃ o o', s.current = some o ∧ s.onDirective text line = ({ s with current := some o' }, [f]) ∧
      o.Rejects f.problem o' := by
  cases hclassify : Directive.classify? s.scope text with
  | none =>
    rw [onDirective_of_none hclassify, List.mem_singleton] at hf
    have hremark := isRemark_strange s text
    rw [hf] at hkind
    generalize s.strange text = p at hremark hkind
    cases hremark <;> cases hkind
  | some c =>
    obtain ⟨keyword, argument⟩ := c
    cases keyword with
    | file k =>
      rw [onDirective_of_file hclassify] at hf
      -- what such a directive does would be the same on account of a comment
      have hmoves := moves_onFileDirective { body := .comment "", line } k argument s
      obtain ⟨_, _, hbody⟩ := hmoves.directive_of_invalidNumber hf hkind
      cases hbody
    | object k =>
      cases hcur : s.current with
      | none =>
        simp [onDirective, hclassify, onObjectDirective, hcur] at hf
      | some o =>
        rw [onDirective_of_object hclassify hcur] at hf ⊢
        obtain ⟨p, hp, rfl⟩ := List.mem_map.mp hf
        obtain ⟨hproblems, hrejects⟩ := OpenObject.rejects_apply hp
        exact ⟨o, _, rfl, by rw [hproblems, List.map_singleton], hrejects⟩
    | field k =>
      cases hcur : s.current with
      | none =>
        simp [onDirective, hclassify, onFieldDirective, hcur] at hf
      | some o =>
        cases hfield : o.field with
        | none =>
          simp [onDirective, hclassify, onFieldDirective, hcur, hfield] at hf
        | some field =>
          rw [onDirective_of_field hclassify hcur hfield] at hf ⊢
          obtain ⟨p, hp, rfl⟩ := List.mem_map.mp hf
          obtain ⟨hproblems, hrejects⟩ := OpenObject.rejects_applyToField hfield hp hkind
          exact ⟨o, _, rfl, by rw [hproblems, List.map_singleton], hrejects⟩

/-- **What a rejected number changes.** No bound, and no count but the one that could not be read,
which is not there any more. So the numbers are the same exactly if that one was not there before.
-/
theorem step_of_invalidNumber (hf : f ∈ (s.step t).2) (hkind : f.problem.kind = .invalidNumber) :
    ∃ o o', s.current = some o ∧ s.step t = ({ s with current := some o' }, [f]) ∧
      o.Rejects f.problem o' ∧
      (o.KeepsNumbers o' ↔ ∀ what, f.problem.count? = some what → o.object.count what = none) := by
  obtain ⟨text, ending, hbody⟩ := (moves_step t s).directive_of_invalidNumber hf hkind
  rw [step_of_directive hbody] at hf ⊢
  obtain ⟨o, o', hcur, hstep, hrejects⟩ := onDirective_of_invalidNumber hf hkind
  have hclosed := hrejects.closeIf ending
  refine ⟨o, o'.closeIf ending, hcur, ?_, hclosed, hclosed.keepsNumbers_iff⟩
  rw [hstep, closeIf_of_some rfl]

/-- A minimum that is no number leaves the one before it in force. -/
theorem minimum_kept :
    let s := (run {} (Token.ofText "Zone,\nN1;\n\\minimum 2\n")).1
    let t : Token := { body := .directive "minimum two" none, line := 4 }
    let f : Finding := ⟨4, .badBound "two" ⟨.numeric, 1⟩⟩
    f ∈ (s.step t).2 ∧ f.problem.kind = .invalidNumber ∧
      ∃ o o', s.current = some o ∧ (s.step t).1.current = some o' ∧ o.KeepsNumbers o' ∧
        (o.bound .minimum).isSome := by
  intro s t f
  have hfound : f ∈ (s.step t).2 := by decide +kernel
  obtain ⟨o, o', hcur, hstep, -, hkeeps⟩ := step_of_invalidNumber hfound rfl
  refine ⟨hfound, rfl, o, o', hcur, by rw [hstep], hkeeps.mpr fun _ hwhat => (by cases hwhat), ?_⟩
  have hset : s.current.any (fun o => (o.bound .minimum).isSome) = true := by decide +kernel
  rwa [hcur] at hset

/-- A count that is too large to be one takes the one before it along. -/
theorem count_forgotten :
    let ts := Token.ofText "Zone,\n\\min-fields 1\n"
    let t : Token := { body := .directive "min-fields 18446744073709551616" none, line := 3 }
    let f : Finding := ⟨3, .badCount .minFields "18446744073709551616"⟩
    let s := (run {} ts).1
    s.current.map (·.object.minFields) = some (some 1) ∧ (s.step t).2 = [f] ∧
      (s.step t).1.current.map (·.object.minFields) = some none ∧
      ¬∀ (ts : List Token) (t : Token) (f : Finding) (o o' : OpenObject),
        f ∈ ((run {} ts).1.step t).2 → f.problem.kind = .invalidNumber →
        (run {} ts).1.current = some o → ((run {} ts).1.step t).1.current = some o' →
        o.KeepsNumbers o' := by
  intro ts t f s
  have hbefore : s.current.map (·.object.minFields) = some (some 1) := by decide +kernel
  have hfound : (s.step t).2 = [f] := by decide +kernel
  have hafter : (s.step t).1.current.map (·.object.minFields) = some none := by decide +kernel
  refine ⟨hbefore, hfound, hafter, fun hall => ?_⟩
  obtain ⟨o, hcur, hcount⟩ := Option.map_eq_some_iff.mp hbefore
  obtain ⟨o', hcur', hcount'⟩ := Option.map_eq_some_iff.mp hafter
  have hkeeps := hall ts t f o o' (hfound ▸ List.mem_singleton_self f) rfl hcur hcur'
  have hsame : o'.object.minFields = o.object.minFields := hkeeps.count .minFields
  rw [hcount, hcount'] at hsame
  cases hsame

end State

end DataDictionary
