import DataDictionary.Proofs.Joining
import DataDictionary.Proofs.Names

/-!
# Reading below what was read before

To the reader it makes little difference what it has read before. Lines only ever end up in items
and findings; items are only ever added to, except that a removal changes the last one; and of the
objects that were kept only the lookup keys are asked for. So with earlier items in front and with
all lines further down (`below`) the reader does what it would do without, unless a name comes up
whose key is one of the earlier ones.

The proof goes through the reader function by function. Each of them does below the earlier items
what it does without them, provided the keys that it leaves behind are not among the earlier ones;
as keys are never forgotten (`keys_run`), it is enough to know that of the keys at the end.
-/

namespace DataDictionary

/-- The item on a line further down. -/
def Item.shift (k : Nat) : Item → Item
  | .object o line => .object o (line + k)
  | .inclusion d => .inclusion { d with line := d.line + k }
  | .group name => .group name

/-- The finding on a line further down. -/
def Finding.shift (k : Nat) (f : Finding) : Finding := { f with line := f.line + k }

theorem Finding.map_shift_mk (k line : Nat) (problems : List Problem) :
    problems.map (Finding.mk (line + k)) = (problems.map (Finding.mk line)).map (shift k) := by
  rw [List.map_map]
  rfl

/-! ## What is open -/

namespace OpenField

/-- The field with its marker on a line further down. -/
def shift (k : Nat) (f : OpenField) : OpenField := { f with line := f.line + k }

theorem form_shift (n : Nat) (f : OpenField) (side : Side) :
    (f.shift n).form side = f.form side := by
  cases side <;> rfl

theorem withForm_shift (n : Nat) (f : OpenField) (side : Side) (form : BoundForm) :
    (f.shift n).withForm side form = (f.withForm side form).shift n := by
  cases side <;> rfl

theorem withBound_shift (n : Nat) (f : OpenField) (side : Side) (b : Bound) :
    (f.shift n).withBound side b = (f.withBound side b).shift n := by
  cases side <;> rfl

theorem setBound_shift (n : Nat) (f : OpenField) (side : Side) (form : BoundForm) (text : String) :
    (f.shift n).setBound side form text =
      (f.setBound side form text).map fun r => (r.1.shift n, r.2) := by
  unfold setBound
  rw [form_shift, withForm_shift]
  split
  · rfl
  · cases Number.ofText? text with
    | none => rfl
    | some value =>
      dsimp only
      rw [withBound_shift]
      rfl

theorem addKey_shift (n : Nat) (f : OpenField) (key : String) :
    (f.shift n).addKey key = ((f.addKey key).1.shift n, (f.addKey key).2) := by
  unfold addKey
  show (if f.field.hasKey key then _ else _) = _
  split <;> rfl

/-- Where a field stands makes no difference to its directives. -/
theorem apply_shift (n : Nat) (f : OpenField) (k : FieldKeyword) (argument : String) :
    (f.shift n).apply k argument = (f.apply k argument).map fun r => (r.1.shift n, r.2) := by
  cases k with
  | minimumExclusive => exact setBound_shift n f .minimum .exclusive argument
  | minimumInclusive => exact setBound_shift n f .minimum .inclusive argument
  | maximumExclusive => exact setBound_shift n f .maximum .exclusive argument
  | maximumInclusive => exact setBound_shift n f .maximum .inclusive argument
  | key => exact congrArg Except.ok (addKey_shift n f argument)
  | _ => rfl

end OpenField

namespace OpenObject

/-- The object on a line further down. -/
def shift (n : Nat) (o : OpenObject) : OpenObject :=
  { o with line := o.line + n, field := o.field.map (·.shift n) }

theorem apply_shift (n : Nat) (o : OpenObject) (k : ObjectKeyword) (argument : String) :
    (o.shift n).apply k argument = ((o.apply k argument).1.shift n, (o.apply k argument).2) := by
  cases k <;> rfl

theorem applyToField_shift (n : Nat) (o : OpenObject) (f : OpenField) (k : FieldKeyword)
    (argument : String) :
    (o.shift n).applyToField (f.shift n) k argument =
      ((o.applyToField f k argument).1.shift n, (o.applyToField f k argument).2) := by
  unfold applyToField
  rw [OpenField.apply_shift]
  cases f.apply k argument <;> rfl

theorem finishField_shift (n : Nat) (o : OpenObject) :
    (o.shift n).finishField = (o.finishField.1.shift n, o.finishField.2.map (Finding.shift n)) := by
  unfold finishField
  cases hf : o.field with
  | none => simp [shift, hf]
  | some f =>
    simp only [shift, hf, Option.map_some, Option.map_none, List.map_map]
    rfl

theorem openField_shift (n : Nat) (o : OpenObject) (id : FieldId) (ending : Option Separator)
    (line : Nat) :
    (o.shift n).openField id ending (line + n) =
      ((o.openField id ending line).1.shift n,
       (o.openField id ending line).2.map (Finding.shift n)) := by
  unfold openField
  rw [finishField_shift]
  rfl

end OpenObject

namespace State

/-! ## Below what was read before -/

/-- The state of a reader that has read a text of `n` lines before, which left `past` behind. -/
def below (past : State) (n : Nat) (s : State) : State :=
  { s with
    items := past.items ++ s.items.map (Item.shift n)
    keys := past.keys ++ s.keys
    current := s.current.map (OpenObject.shift n) }

/-- What reading leads to, in the same way. -/
def carry (past : State) (n : Nat) (r : State × List Finding) : State × List Finding :=
  (below past n r.1, r.2.map (Finding.shift n))

/-- None of the keys is known from before. -/
def FreshTo (past s : State) : Prop := ∀ key ∈ s.keys, key ∉ past.keys

variable {past s s' : State} {n : Nat} {t : Token}

theorem current_below_of_none (h : s.current = none) (past : State) (n : Nat) :
    (below past n s).current = none := by
  rw [below, h]
  rfl

theorem current_below_of_some {o : OpenObject} (h : s.current = some o) (past : State) (n : Nat) :
    (below past n s).current = some (o.shift n) := by
  rw [below, h]
  rfl

theorem scope_below (past : State) (n : Nat) (s : State) :
    (below past n s).scope = s.scope := by
  unfold scope
  cases hs : s.current with
  | none => rw [current_below_of_none hs]
  | some o =>
    rw [current_below_of_some hs]
    cases hf : o.field <;> simp [OpenObject.shift, hf]

theorem strange_below (past : State) (n : Nat) (s : State) (text : String) :
    (below past n s).strange text = s.strange text := by
  unfold strange
  cases hs : s.current with
  | none => rw [current_below_of_none hs]
  | some o => rw [current_below_of_some hs]; rfl

theorem closeIf_below (past : State) (n : Nat) (s : State) (ending : Option Separator) :
    (below past n s).closeIf ending = below past n (s.closeIf ending) := by
  unfold closeIf below
  cases s.current <;> rfl

theorem keep_of_known {o : OpenObject} (hc : o.closed = true) (hf : o.failed = false)
    (hin : Text.lookupKey o.object.name ∈ s.keys) :
    s.keep o = (s, [⟨o.line, .repeatedObject o.object.name⟩]) := by
  simp [keep, hc, hf, hin]

theorem keep_of_new {o : OpenObject} (hc : o.closed = true) (hf : o.failed = false)
    (hnew : Text.lookupKey o.object.name ∉ s.keys) :
    s.keep o =
      ({ s with
         items := s.items ++ [.object o.object o.line]
         keys := s.keys ++ [Text.lookupKey o.object.name] }, []) := by
  simp [keep, hc, hf, hnew]

/-- Below the earlier items an object ends as it would without them, unless its key is one of the
earlier ones. -/
theorem keep_below {o : OpenObject} (h : FreshTo past (s.keep o).1) :
    (below past n s).keep (o.shift n) = carry past n (s.keep o) := by
  rcases keep_cases s o with ⟨hc, hk⟩ | ⟨hc, hf, hk⟩ | ⟨hc, hf, hin, hk⟩ | ⟨hc, hf, hin, hk⟩
  · -- an object that is not closed or that failed leaves no key, whatever its line
    have hc' : (o.shift n).closed = false := hc
    rw [hk, keep, hc']
    rfl
  · have hc' : (o.shift n).closed = true := hc
    have hf' : (o.shift n).failed = true := hf
    rw [hk, keep, hc', hf']
    rfl
  · rw [hk]
    exact keep_of_known hc hf (List.mem_append_right past.keys hin)
  · -- the key is kept, so it is none of the earlier ones
    rw [hk] at h ⊢
    have hpast : Text.lookupKey o.object.name ∉ past.keys := h _ (by simp)
    have hnew : Text.lookupKey o.object.name ∉ (below past n s).keys :=
      fun hmem => (List.mem_append.mp hmem).elim hpast hin
    refine (keep_of_new (o := o.shift n) hc hf hnew).trans ?_
    simp [carry, below, OpenObject.shift, Item.shift]

theorem endObject_below (h : FreshTo past s.endObject.1) :
    (below past n s).endObject = carry past n s.endObject := by
  cases hs : s.current with
  | none =>
    rw [endObject_of_none hs, endObject_of_none (current_below_of_none hs past n)]
    rfl
  | some o =>
    rw [endObject_of_some hs] at h ⊢
    rw [endObject_of_some (current_below_of_some hs past n), OpenObject.finishField_shift]
    have hkeep : ({ below past n s with current := none }.keep (o.finishField.1.shift n)) = _ :=
      keep_below h
    rw [hkeep, carry, carry, List.map_append]

theorem onMarker_below (past : State) (n : Nat) (s : State) (id : FieldId)
    (ending : Option Separator) (line : Nat) :
    (below past n s).onMarker id ending (line + n) = carry past n (s.onMarker id ending line) := by
  unfold onMarker
  cases hs : s.current with
  | none =>
    rw [current_below_of_none hs]
    rfl
  | some o =>
    rw [current_below_of_some hs]
    dsimp only
    rw [OpenObject.openField_shift]
    rfl

theorem nextObject_below {name : String} {ending : Option Separator} {line : Nat}
    (h : FreshTo past (s.nextObject name ending line).1) :
    (below past n s).nextObject name ending (line + n) =
      carry past n (s.nextObject name ending line) := by
  unfold nextObject
  rw [endObject_below h]
  rfl

theorem onText_below {text : String} {ending : Option Separator} {line : Nat}
    (h : FreshTo past (s.onText text ending line).1) :
    (below past n s).onText text ending (line + n) = carry past n (s.onText text ending line) := by
  unfold onText at h ⊢
  cases hs : s.current with
  | none =>
    rw [current_below_of_none hs]
    rfl
  | some o =>
    have hhead : ((o.shift n).field.isNone && !(o.shift n).closed) =
        (o.field.isNone && !o.closed) := by
      rw [OpenObject.shift, Option.isNone_map]
    rw [hs] at h
    rw [current_below_of_some hs]
    dsimp only at h ⊢
    rw [hhead]
    -- commentary leaves the object open; otherwise the object ends and may leave its key behind
    split
    · rw [closeIf_below]
      rfl
    · next hstray =>
      rw [if_neg hstray] at h
      exact nextObject_below h

theorem onContent_below {text : String} {ending : Option Separator} {line : Nat}
    (h : FreshTo past (s.onContent text ending line).1) :
    (below past n s).onContent text ending (line + n) =
      carry past n (s.onContent text ending line) := by
  unfold onContent at h ⊢
  cases hid : FieldId.parse? text with
  | some id => exact onMarker_below past n s id ending line
  | none =>
    rw [hid] at h
    dsimp only at h ⊢
    split
    · rw [closeIf_below]
      rfl
    · next htext =>
      rw [if_neg htext] at h
      exact onText_below h

theorem removeFromLast_cons {rest : List Item} (h : rest ≠ []) (name : String) (item : Item) :
    removeFromLast name (item :: rest) = (removeFromLast name rest).map (item :: ·) := by
  cases rest with
  | nil => exact absurd rfl h
  | cons next rest => cases item <;> rfl

/-- A removal concerns the last item, so it does not get at earlier ones. -/
theorem removeFromLast_append {items : List Item} (h : items ≠ []) (name : String)
    (earlier : List Item) :
    removeFromLast name (earlier ++ items) = (removeFromLast name items).map (earlier ++ ·) := by
  induction earlier with
  | nil => simp
  | cons item earlier ih =>
    rw [List.cons_append, removeFromLast_cons (by simp [h]), ih, Option.map_map]
    rfl

theorem removeFromLast_shift (n : Nat) (name : String) (items : List Item) :
    removeFromLast name (items.map (Item.shift n)) =
      (removeFromLast name items).map (·.map (Item.shift n)) := by
  induction items with
  | nil => rfl
  | cons item rest ih =>
    cases rest with
    | nil => cases item <;> rfl
    | cons next rest =>
      have hne : next :: rest ≠ [] := List.cons_ne_nil next rest
      rw [List.map_cons, removeFromLast_cons (by simp), ih, removeFromLast_cons hne,
        Option.map_map, Option.map_map]
      rfl

theorem onFileDirective_below {k : FileKeyword} {name : String} {line : Nat}
    (hitems : s.endObject.1.items ≠ []) (h : FreshTo past s.endObject.1) :
    (below past n s).onFileDirective k name (line + n) =
      carry past n (s.onFileDirective k name line) := by
  unfold onFileDirective
  rw [endObject_below h]
  cases k with
  | group => simp [carry, below, Item.shift]
  | includeFile => simp [carry, below, Item.shift]
  | removeObject =>
    have hlast : removeFromLast name (past.items ++ s.endObject.1.items.map (Item.shift n)) =
        (removeFromLast name s.endObject.1.items).map (past.items ++ ·.map (Item.shift n)) := by
      rw [removeFromLast_append (by simpa using hitems), removeFromLast_shift, Option.map_map]
      rfl
    have hopen : (carry past n s.endObject).1.includeOpen = s.endObject.1.includeOpen := rfl
    have hall : (carry past n s.endObject).1.items =
        past.items ++ s.endObject.1.items.map (Item.shift n) := rfl
    dsimp only
    rw [hopen, hall, hlast]
    cases s.endObject.1.includeOpen with
    | false => simp [carry, Finding.shift]
    | true =>
      cases removeFromLast name s.endObject.1.items with
      | none => simp [carry, Finding.shift]
      | some items => rfl

theorem onObjectDirective_below (past : State) (n : Nat) (s : State) (k : ObjectKeyword)
    (argument : String) (line : Nat) :
    (below past n s).onObjectDirective k argument (line + n) =
      carry past n (s.onObjectDirective k argument line) := by
  unfold onObjectDirective
  cases hs : s.current with
  | none =>
    rw [current_below_of_none hs]
    rfl
  | some o =>
    rw [current_below_of_some hs]
    dsimp only
    rw [OpenObject.apply_shift, carry, Finding.map_shift_mk]
    rfl

theorem onFieldDirective_below (past : State) (n : Nat) (s : State) (k : FieldKeyword)
    (argument : String) (line : Nat) :
    (below past n s).onFieldDirective k argument (line + n) =
      carry past n (s.onFieldDirective k argument line) := by
  unfold onFieldDirective
  cases hs : s.current with
  | none =>
    rw [current_below_of_none hs]
    rfl
  | some o =>
    rw [current_below_of_some hs]
    dsimp only
    cases hf : o.field with
    | none =>
      rw [show (o.shift n).field = none by rw [OpenObject.shift, hf]; rfl]
      rfl
    | some f =>
      rw [show (o.shift n).field = some (f.shift n) by rw [OpenObject.shift, hf]; rfl]
      dsimp only
      rw [OpenObject.applyToField_shift, carry, Finding.map_shift_mk]
      rfl

theorem keys_onFileDirective (s : State) (k : FileKeyword) (name : String) (line : Nat) :
    (s.onFileDirective k name line).1.keys = s.endObject.1.keys := by
  unfold onFileDirective
  cases k with
  | group => rfl
  | includeFile => rfl
  | removeObject =>
    dsimp only
    split <;> rfl

theorem onDirective_below {text : String} {line : Nat} (hitems : s.endObject.1.items ≠ [])
    (h : FreshTo past (s.onDirective text line).1) :
    (below past n s).onDirective text (line + n) = carry past n (s.onDirective text line) := by
  unfold onDirective at h ⊢
  rw [scope_below, strange_below]
  split
  · rfl
  · next k argument hc =>
    rw [hc] at h
    refine onFileDirective_below hitems fun key hkey => h key ?_
    rwa [keys_onFileDirective]
  · exact onObjectDirective_below past n s _ _ line
  · exact onFieldDirective_below past n s _ _ line

/-! ## Keys and items are never forgotten -/

variable {found : List Finding}

theorem Move.keys_subset (h : Move t s s' found) : s.keys ⊆ s'.keys := by
  cases h with
  | finish _ =>
    cases hs : s.current with
    | none =>
      rw [endObject_of_none hs]
      exact List.Subset.refl _
    | some o =>
      rcases endObject_fst_of_some hs with heq | ⟨-, heq⟩
      · rw [heq]
        exact List.Subset.refl _
      · rw [heq]
        exact List.subset_append_left _ _
  | remark _ _ | start _ _ _ _ _ | edit _ _ _ | group _ _ _ | inclusion _ _ _
    | removal _ _ _ _ _ => exact List.Subset.refl _

theorem Move.items_ne_nil (h : Move t s s' found) (hs : s.items ≠ []) : s'.items ≠ [] := by
  cases h with
  | finish _ =>
    cases hcur : s.current with
    | none => rwa [endObject_of_none hcur]
    | some o =>
      rcases endObject_fst_of_some hcur with heq | ⟨-, heq⟩
      · rwa [heq]
      · rw [heq]
        exact List.append_ne_nil_of_right_ne_nil _ (List.cons_ne_nil _ _)
  | remark _ _ | start _ _ _ _ _ | edit _ _ _ => exact hs
  | group _ _ _ | inclusion _ _ _ =>
    exact List.append_ne_nil_of_right_ne_nil _ (List.cons_ne_nil _ _)
  | removal _ name _ _ hremove =>
    obtain ⟨before, d, -, rfl⟩ := removeFromLast_eq_some hremove
    exact List.append_ne_nil_of_right_ne_nil _ (List.cons_ne_nil _ _)

theorem items_run (ts : List Token) (hs : s.items ≠ []) : (s.run ts).1.items ≠ [] :=
  run_preserves (fun s => s.items ≠ []) (fun _ => True) (fun _ => True)
    (fun _ hm _ h => hm.items_ne_nil h) (fun _ _ => trivial) (fun _ _ => trivial) hs

theorem keys_run (s : State) (ts : List Token) : s.keys ⊆ (s.run ts).1.keys :=
  run_preserves (fun s' => s.keys ⊆ s'.keys) (fun _ => True) (fun _ => True)
    (fun _ hm _ h => List.Subset.trans h hm.keys_subset) (fun _ _ => trivial)
    (fun _ _ => trivial) (List.Subset.refl _)

theorem FreshTo.of_subset (h : FreshTo past s') (hsub : s.keys ⊆ s'.keys) : FreshTo past s :=
  fun key hkey => h key (hsub hkey)

/-! ## A whole run -/

/-- **A token does below the earlier items what it does without them.** -/
theorem step_below (hitems : s.items ≠ []) (h : FreshTo past (s.step t).1) :
    (below past n s).step (t.shift n) = carry past n (s.step t) := by
  cases hbody : t.body with
  | content text ending =>
    rw [step_of_content hbody] at h ⊢
    rw [step_of_content (t := t.shift n) hbody]
    exact onContent_below h
  | directive text ending =>
    have hend : s.endObject.1.items ≠ [] := (Move.finish (t := t) s).items_ne_nil hitems
    have hdirective : (below past n s).onDirective text (t.shift n).line = _ :=
      onDirective_below hend (by rwa [step_of_directive hbody] at h)
    rw [step_of_directive hbody, step_of_directive (t := t.shift n) hbody, hdirective, carry,
      closeIf_below, carry]
  | comment text => rw [step_of_comment hbody, step_of_comment (t := t.shift n) hbody]; rfl

/-- **Tokens do below the earlier items what they do without them**, as long as no name comes up
again. -/
theorem run_below {ts : List Token} (hitems : s.items ≠ []) (h : FreshTo past (s.run ts).1) :
    (below past n s).run (ts.map (Token.shift n)) = carry past n (s.run ts) := by
  induction ts generalizing s with
  | nil => rfl
  | cons t ts ih =>
    have hstep : FreshTo past (s.step t).1 := h.of_subset (keys_run _ ts)
    have hrest : (s.step t).1.items ≠ [] := items_run [t] hitems
    rw [List.map_cons, run_cons, step_below hitems hstep, carry, ih hrest h, run_cons, carry, carry,
      List.map_append]

end State

end DataDictionary
