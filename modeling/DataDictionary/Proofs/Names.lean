import DataDictionary.Proofs.DirectiveEffects
import DataDictionary.Proofs.Invariants
import DataDictionary.Proofs.Pieces
import Mathlib.Data.List.Nodup

/-!
# The names of the objects of a source

The reader keeps the lookup keys of the objects it has kept, and refuses a name whose key is among
them. So the keys are those of the objects, and no two of them are equal (`Registered`). A name is
the text of a token; nothing that happens to an object later changes it.
-/

namespace DataDictionary

open Text

namespace OpenObject

theorem finishField_name (o : OpenObject) : o.finishField.1.object.name = o.object.name :=
  o.finishField_frame.1

/-- No edit changes the name of an object. -/
theorem Edit.name_eq {t : Token} {o o' : OpenObject} {found : List Finding}
    (h : o.Edit t o' found) : o'.object.name = o.object.name := by
  cases h with
  | close _ _ => rfl
  | openField _ _ _ => exact o.finishField_name
  | header _ _ _ _ => exact (o.apply_frame _ _).1
  | field _ _ _ _ =>
    unfold applyToField
    split <;> rfl

end OpenObject

/-- Names come from tokens, which are trimmed. -/
theorem Source.isTrimmed_name {text : String} {o : Object} (h : o ∈ (Source.ofText text).objects) :
    IsTrimmed o.name := by
  refine objects_hold (I := fun o => IsTrimmed o.object.name) (Q := fun o => IsTrimmed o.name)
    (fun t ht _ _ _ _ hbody _ _ => Token.hasTrimmedText_of_mem_ofText ht _ _ hbody)
    (fun t ht _ _ _ hedit _ hname => ?_) (fun {o} hname _ => ?_)
    (fun f _ => trivial) o h
  · rwa [hedit.name_eq]
  · rwa [o.finishField_name]

namespace State

/-- The keys of a reader are those of the objects it has kept, each there once. -/
structure Registered (s : State) : Prop where
  keys_eq : s.keys = (s.items.filterMap Item.object?).map fun o => lookupKey o.name
  nodup : s.keys.Nodup

theorem registered_init : ({} : State).Registered := ⟨rfl, List.nodup_nil⟩

theorem Registered.endObject {s : State} (h : s.Registered) : s.endObject.1.Registered := by
  cases hcur : s.current with
  | none => rwa [endObject_of_none hcur]
  | some o =>
    rcases endObject_fst_of_some hcur with heq | ⟨hfresh, heq⟩
    · rw [heq]
      exact ⟨h.keys_eq, h.nodup⟩
    · -- the object was kept because its key is new
      rw [heq]
      refine ⟨?_, ?_⟩
      · simp [h.keys_eq, Item.object?]
      · exact h.nodup.append (List.nodup_singleton _) (by simpa using hfresh)

/-- The keys stay registered whatever a token does. -/
theorem Registered.move {t : Token} {s s' : State} {found : List Finding}
    (hm : Move t s s' found) (h : s.Registered) : s'.Registered := by
  cases hm with
  | remark _ _ => exact h
  | start _ _ _ _ _ => exact ⟨h.keys_eq, h.nodup⟩
  | finish _ => exact h.endObject
  | edit _ _ _ => exact ⟨h.keys_eq, h.nodup⟩
  | group _ name _ => exact ⟨by simp [h.keys_eq, Item.object?], h.nodup⟩
  | inclusion _ name _ => exact ⟨by simp [h.keys_eq, Item.object?], h.nodup⟩
  | removal _ name _ _ hitems =>
    refine ⟨?_, h.nodup⟩
    rw [filterMap_removeFromLast (fun _ => rfl) hitems]
    exact h.keys_eq

theorem registered_run (ts : List Token) : (run {} ts).1.Registered :=
  run_preserves Registered (fun _ => True) (fun _ => True) (fun _ hm _ h => h.move hm)
    (fun _ _ => trivial) (fun _ _ => trivial) registered_init

end State

/-- **A source keeps no two objects of one key.** -/
theorem Source.nodup_keys (text : String) :
    ((Source.ofText text).objects.map fun o => lookupKey o.name).Nodup := by
  have hend := (State.registered_run (Token.ofText text)).endObject
  have hkeys := hend.nodup
  rwa [hend.keys_eq] at hkeys

end DataDictionary
