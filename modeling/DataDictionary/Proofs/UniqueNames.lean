import DataDictionary.Proofs.Contributions
import DataDictionary.Proofs.LatinKeys
import DataDictionary.Proofs.NameIndex
import DataDictionary.Proofs.Outcomes

/-!
# Names are unique in a dictionary

Four mechanisms keep the names of a dictionary apart: the keys that the reader of a source collects,
the keys of a source's own objects, the keys of what has been merged in, and a comparison of words
before the object for free comments is added. Together they keep the lookup keys of all objects
distinct, and then every object is found by its own name.
-/

namespace DataDictionary

open Text

/-- The object for free comments only comes where no definition has its key. -/
theorem nodup_complete (settings : Settings) {definitions : List Definition}
    (htrim : ∀ d ∈ definitions, IsTrimmed d.object.name)
    (h : (definitions.map Definition.key).Nodup) :
    ((settings.complete definitions).map Definition.key).Nodup := by
  unfold Settings.complete withCommentOnly
  split
  · split
    · exact h
    · next hnone =>
      refine List.nodup_cons.mpr ⟨fun hmem => hnone ?_, h⟩
      obtain ⟨d, hd, hkey⟩ := List.mem_map.mp hmem
      rw [List.any_eq_true]
      exact ⟨d, hd, sameWord_commentOnly_of_key (htrim d hd) hkey⟩
  · exact h

namespace Outcome

/-- **The names of a dictionary are unique, and every object is found by its own.** -/
theorem nodup_names (settings : Settings) (loader : Option Loader) (text : String) :
    ((ofText settings loader text).dictionary.objects.map (lookupKey ·.name)).Nodup ∧
      ∀ o ∈ (ofText settings loader text).dictionary.objects,
        (ofText settings loader text).dictionary.object? o.name = some o := by
  have hkeys : ((ofText settings loader text).dictionary.objects.map (lookupKey ·.name)).Nodup := by
    have hexpand := (Resolver.mk loader settings).nodup_expand settings.sourceName
      [settings.sourceName.getD anonymous] text
    have htrim : ∀ d ∈ (merged settings loader text).1.definitions, IsTrimmed d.object.name := by
      intro d hd
      obtain ⟨origin, hobject, -⟩ := Resolver.origin_of_mem_expand hd
      exact Source.isTrimmed_name hobject
    have hcomplete := nodup_complete settings htrim hexpand
    rw [objects_ofText, List.map_map]
    exact hcomplete
  exact ⟨hkeys, fun o ho => Dictionary.object?_of_mem hkeys ho⟩

end Outcome

end DataDictionary
