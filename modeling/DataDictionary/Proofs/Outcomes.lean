import DataDictionary.Outcome
import DataDictionary.Proofs.Contributions

/-!
# What an outcome is made of

Reading a dictionary merges the outermost source with all that it includes and then numbers and
checks the objects, in front of which the object for free comments may be added. Each part of an
outcome is given here in these terms, so that nothing else has to look into how an outcome is put
together.
-/

namespace DataDictionary

/-- The definitions that a dictionary is made of. -/
def Settings.complete (settings : Settings) (definitions : List Definition) : List Definition :=
  if settings.insertCommentOnlyObject then withCommentOnly definitions else definitions

/-- Completing definitions adds nothing but the object for free comments. -/
theorem Settings.mem_complete (settings : Settings) {definitions : List Definition} {x : Definition}
    (h : x ∈ settings.complete definitions) : x = commentOnly ∨ x ∈ definitions := by
  unfold complete withCommentOnly at h
  split at h
  · split at h
    · exact .inr h
    · exact List.mem_cons.mp h
  · exact .inr h

theorem assemble_objects (settings : Settings) (header : Header) (merged : Merged) :
    (assemble settings header merged).1.objects =
      (settings.complete merged.definitions).map (·.object.numbered) := by
  show ((settings.complete merged.definitions).map Definition.numbered).map (·.object) = _
  rw [List.map_map]
  rfl

namespace Outcome

/-- What the outermost source and its inclusions say. -/
def merged (settings : Settings) (loader : Option Loader) (text : String) : Merged × Diagnostics :=
  (Resolver.mk loader settings).expand settings.sourceName
    [settings.sourceName.getD anonymous] (.ofText text)

theorem objects_ofText (settings : Settings) (loader : Option Loader) (text : String) :
    (ofText settings loader text).dictionary.objects =
      (settings.complete (merged settings loader text).1.definitions).map (·.object.numbered) := by
  rw [merged, ← Resolver.resolve_eq_expand]
  exact assemble_objects settings _ _

theorem groups_ofText (settings : Settings) (loader : Option Loader) (text : String) :
    (ofText settings loader text).dictionary.groups = (merged settings loader text).1.groups := by
  rw [merged, ← Resolver.resolve_eq_expand]
  rfl

theorem diagnostics_ofText (settings : Settings) (loader : Option Loader) (text : String) :
    (ofText settings loader text).diagnostics =
      (merged settings loader text).2 ++
        ((settings.complete (merged settings loader text).1.definitions).map
          Definition.numbered).flatMap Definition.check := by
  rw [merged, ← Resolver.resolve_eq_expand]
  rfl

/-- The definitions of a dictionary, with their fields numbered. -/
def definitions (settings : Settings) (loader : Option Loader) (text : String) : List Definition :=
  (settings.complete (merged settings loader text).1.definitions).map Definition.numbered

theorem objects_eq (settings : Settings) (loader : Option Loader) (text : String) :
    (ofText settings loader text).dictionary.objects =
      (definitions settings loader text).map (·.object) := by
  rw [objects_ofText, definitions, List.map_map]
  rfl

theorem diagnostics_eq (settings : Settings) (loader : Option Loader) (text : String) :
    (ofText settings loader text).diagnostics =
      (merged settings loader text).2 ++
        (definitions settings loader text).flatMap Definition.check :=
  diagnostics_ofText settings loader text

/-- **What is true of the objects of every source, and of the object for free comments, is true of
all objects that a dictionary is made of.** -/
theorem forall_definitions {P : Object → Prop} (hadded : P commentOnly.object)
    (hsource : ∀ origin, ∀ o ∈ (Source.ofText origin).objects, P o) (settings : Settings)
    (loader : Option Loader) (text : String) :
    ∀ x ∈ settings.complete (merged settings loader text).1.definitions, P x.object := by
  intro x hx
  rcases settings.mem_complete hx with rfl | hx
  · exact hadded
  · obtain ⟨origin, hobject, -⟩ := Resolver.origin_of_mem_expand hx
    exact hsource origin _ hobject

end Outcome

end DataDictionary
