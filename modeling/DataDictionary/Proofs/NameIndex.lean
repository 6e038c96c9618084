import DataDictionary.Dictionary

/-!
# Looking up objects

The index of a dictionary is a quicker way to search its objects from the front: it holds, for every
key, the position of the first object that has it.
-/

namespace DataDictionary

open Text

/-- What an index holds once some objects have been added to it. -/
theorem NameIndex.getElem?_addObjects (index : NameIndex) (position : Nat) (objects : List Object)
    (key : String) :
    (NameIndex.addObjects index position objects)[key]? =
      index[key]?.or ((objects.findIdx? (lookupKey ·.name == key)).map (position + ·)) := by
  induction objects generalizing index position with
  | nil => simp [addObjects]
  | cons o rest ih =>
    rw [addObjects, ih, Std.HashMap.getElem?_insertIfNew, List.findIdx?_cons]
    by_cases hkey : lookupKey o.name = key
    · -- an entry that was there before wins over this object, and this one over all that follow
      subst hkey
      by_cases hmem : lookupKey o.name ∈ index <;> simp [hmem]
    · have hshift : (fun i => position + 1 + i) = (fun i => position + (i + 1)) := by
        funext i
        omega
      simp [hkey, Function.comp_def, hshift]

namespace Dictionary

/-- **The index finds what a search from the front would find.** -/
theorem object?_eq_find? (d : Dictionary) (name : String) :
    d.object? name = d.objects.find? (lookupKey ·.name == lookupKey name) := by
  rw [object?, d.index_eq, NameIndex.ofObjects, NameIndex.getElem?_addObjects,
    List.find?_eq_bind_findIdx?_getElem?]
  simp

/-- Where no two objects share a key, every object is found by its own name. -/
theorem object?_of_mem {d : Dictionary} (h : (d.objects.map (lookupKey ·.name)).Nodup)
    {o : Object} (ho : o ∈ d.objects) : d.object? o.name = some o := by
  rw [object?_eq_find?]
  generalize d.objects = objects at h ho
  induction objects with
  | nil => cases ho
  | cons p rest ih =>
    obtain ⟨hfresh, hrest⟩ := List.nodup_cons.mp h
    rcases List.mem_cons.mp ho with rfl | ho
    · simp
    · -- the search passes over `p`, whose key is another one
      have hne : lookupKey p.name ≠ lookupKey o.name := by
        intro heq
        exact hfresh (List.mem_map.mpr ⟨o, ho, heq.symm⟩)
      rw [List.find?_cons_of_neg (by simpa using hne)]
      exact ih hrest ho

end Dictionary

end DataDictionary
