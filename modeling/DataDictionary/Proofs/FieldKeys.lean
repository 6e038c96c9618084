import DataDictionary.Proofs.FieldReadings
import DataDictionary.Proofs.Trimming
import DataDictionary.Field.Validation
import Mathlib.Data.List.Infix

/-!
# The keys of a field

A field may list the values that it takes as a choice, one key after the other. A key that differs
from an earlier one in nothing but the case of Latin letters is reported and left out, and whether
there is an earlier one is looked up among those that were not left out.

That makes no difference, since spellings that agree up to case agree with the same others
(`FieldDirective.any_firsts`). So the keys are the first spellings of all that are written, what is
found is one warning for each of the others (`OpenField.keys_obeyAll`), and a choice takes what is
written in any of the directives, whether its key was left out or not.
-/

namespace DataDictionary

open Text

namespace FieldDirective

/-- Directives, each with those in front of it. -/
def withEarlier (ds : List FieldDirective) : List (List FieldDirective × FieldDirective) :=
  ds.inits.zip ds

/-- Whether the argument is that of an earlier directive, ignoring case. -/
def isRepeated (p : List FieldDirective × FieldDirective) : Bool :=
  p.1.any fun d => sameWord d.argument p.2.argument

/-- The directives whose argument is not that of an earlier one. -/
def firsts (ds : List FieldDirective) : List FieldDirective :=
  ((withEarlier ds).filter (!isRepeated ·)).map (·.2)

/-- The directives whose argument is that of an earlier one. -/
def repeats (ds : List FieldDirective) : List FieldDirective :=
  ((withEarlier ds).filter isRepeated).map (·.2)

/-- The directives for keys. -/
def forKeys (ds : List FieldDirective) : List FieldDirective := ds.filter (·.keyword = .key)

theorem withEarlier_cons (d : FieldDirective) (ds : List FieldDirective) :
    withEarlier (d :: ds) = ([], d) :: (withEarlier ds).map (Prod.map (d :: ·) id) := by
  rw [withEarlier, List.inits_cons, List.zip_cons_cons, List.zip_map_left, withEarlier]

theorem withEarlier_concat (ds : List FieldDirective) (d : FieldDirective) :
    withEarlier (ds ++ [d]) = withEarlier ds ++ [(ds, d)] := by
  induction ds with
  | nil => rfl
  | cons e ds ih =>
    rw [List.cons_append, withEarlier_cons, ih, List.map_append, withEarlier_cons]
    rfl

theorem firsts_concat (ds : List FieldDirective) (d : FieldDirective) :
    firsts (ds ++ [d]) = firsts ds ++ if isRepeated (ds, d) then [] else [d] := by
  rw [firsts, withEarlier_concat, List.filter_append, List.map_append, firsts]
  cases h : isRepeated (ds, d) <;> simp [h]

theorem repeats_concat (ds : List FieldDirective) (d : FieldDirective) :
    repeats (ds ++ [d]) = repeats ds ++ if isRepeated (ds, d) then [d] else [] := by
  rw [repeats, withEarlier_concat, List.filter_append, List.map_append, repeats]
  cases h : isRepeated (ds, d) <;> simp [h]

theorem forKeys_concat (ds : List FieldDirective) (d : FieldDirective) :
    forKeys (ds ++ [d]) = forKeys ds ++ if d.keyword = .key then [d] else [] := by
  rw [forKeys, List.filter_append, forKeys]
  by_cases hkey : d.keyword = .key <;> simp [hkey]

/-- **Leaving out repeated arguments leaves none out up to case.** -/
theorem any_firsts (ds : List FieldDirective) (word : String) :
    (firsts ds).any (fun d => sameWord d.argument word) =
      ds.any fun d => sameWord d.argument word := by
  induction ds using List.reverseRecOn with
  | nil => rfl
  | append_singleton ds d ih =>
    rw [firsts_concat, List.any_append, List.any_append, ih]
    cases hrepeated : isRepeated (ds, d) with
    | false => rfl
    | true =>
      -- an earlier spelling agrees with the same words
      cases hword : sameWord d.argument word with
      | false => simp [hword]
      | true =>
        obtain ⟨e, he, hsame⟩ := List.any_eq_true.mp hrepeated
        have hany : ds.any (fun d => sameWord d.argument word) = true :=
          List.any_eq_true.mpr ⟨e, he, sameWord_trans hsame hword⟩
        rw [hany, Bool.true_or, Bool.true_or]

end FieldDirective

/-- Whether a finding is about a key. -/
def Finding.isOfKey (f : Finding) : Bool := f.problem.kind = .duplicateKey

/-- The findings about keys. -/
def Finding.ofKeys (found : List Finding) : List Finding := found.filter (·.isOfKey)

theorem Finding.ofKeys_append (found more : List Finding) :
    ofKeys (found ++ more) = ofKeys found ++ ofKeys more := List.filter_append _ _

theorem Finding.isOfFieldDirective_of_key (f : Finding) (h : f.isOfKey = true) :
    f.isOfFieldDirective = true := by
  obtain ⟨line, p⟩ := f
  cases p with
  | repeatedKey => rfl
  | _ => cases h

/-- Keys are a matter of what declarations say. -/
theorem Finding.ofKeys_ofContent (found : List Finding) : ofKeys (ofContent found) = ofKeys found :=
  filter_filter_of_imp
    (fun f hf => isOfContent_of_fieldDirective (f.isOfFieldDirective_of_key hf)) found

/-- What is said of a key that is left out. -/
def FieldDirective.repeatedKey (id : FieldId) (d : FieldDirective) : Finding :=
  ⟨d.line, .repeatedKey d.argument id⟩

/-! ## Directives one after the other -/

namespace OpenField

variable {f : OpenField} {d : FieldDirective} {ds : List FieldDirective}

/-- A directive that is not for a key says nothing about keys. -/
theorem keys_obey_of_ne (h : d.keyword ≠ .key) (f : OpenField) :
    (f.obey d).1.field.keys = f.field.keys ∧ Finding.ofKeys (f.obey d).2 = [] := by
  cases hbound : d.keyword.bound? with
  | none =>
    obtain ⟨g, happly, -, hkeys, -⟩ := apply_eq_change hbound h f d.argument
    rw [obey, happly]
    exact ⟨hkeys, rfl⟩
  | some b =>
    rw [obey, apply_of_bound? hbound]
    rcases f.setBound_cases b.1 b.2 d.argument with ⟨-, hset⟩ | ⟨-, f', hset, -⟩
    · rw [hset]
      exact ⟨rfl, rfl⟩
    · rw [hset]
      refine ⟨keys_of_setBound hset, ?_⟩
      dsimp only
      split <;> rfl

/-- A directive for a key adds its argument, unless the field has that key already. -/
theorem obey_key (h : d.keyword = .key) (f : OpenField) :
    f.obey d =
      if f.field.hasKey d.argument then (f, [d.repeatedKey f.field.id])
      else ({ f with field := { f.field with keys := f.field.keys ++ [d.argument] } }, []) := by
  rw [obey, h, apply_key]
  dsimp only
  split <;> rfl

open FieldDirective

/-- **The keys of a field without any are the first spellings in its directives**, and the others
are reported. -/
theorem keys_obeyAll (hkeys : f.field.keys = []) (htrim : ∀ d ∈ ds, IsTrimmed d.argument) :
    (f.obeyAll ds).1.field.keys = (firsts (forKeys ds)).map (·.argument) ∧
      Finding.ofKeys (f.obeyAll ds).2 =
        (repeats (forKeys ds)).map (FieldDirective.repeatedKey f.field.id) := by
  induction ds using List.reverseRecOn with
  | nil => exact ⟨hkeys, rfl⟩
  | append_singleton ds d ih =>
    obtain ⟨hfirsts, hrepeats⟩ := ih fun e he => htrim e (List.mem_append_left _ he)
    rw [obeyAll_append, obeyAll_singleton, Finding.ofKeys_append, forKeys_concat, hrepeats]
    by_cases hkey : d.keyword = .key
    · -- the argument is looked up among the first spellings, and that is enough
      have hhas : (f.obeyAll ds).1.field.hasKey d.argument = isRepeated (forKeys ds, d) := by
        rw [Field.hasKey, (htrim d (by simp)).strip_eq, hfirsts, List.any_map]
        exact any_firsts _ _
      rw [if_pos hkey, firsts_concat, repeats_concat, List.map_append, List.map_append,
        obey_key hkey, hhas, id_obeyAll]
      cases isRepeated (forKeys ds, d) with
      | true => exact ⟨hfirsts.trans (List.append_nil _).symm, rfl⟩
      | false => exact ⟨congrArg (· ++ [d.argument]) hfirsts, rfl⟩
    · obtain ⟨hsame, hnone⟩ := keys_obey_of_ne hkey (f.obeyAll ds).1
      rw [if_neg hkey, List.append_nil, hsame, hnone, List.append_nil]
      exact ⟨hfirsts, rfl⟩

end OpenField

/-! ## Fields -/

namespace FieldDeclaration

/-- The directives for keys, in their order. -/
def keyDirectives (s : FieldDeclaration) : List FieldDirective :=
  FieldDirective.forKeys s.allDirectives

/-- The first spellings of the keys. -/
def keys (s : FieldDeclaration) : List String :=
  (FieldDirective.firsts s.keyDirectives).map (·.argument)

/-- What there is to say about the other spellings. -/
def keyReports (s : FieldDeclaration) : List Finding :=
  (FieldDirective.repeats s.keyDirectives).map (FieldDirective.repeatedKey s.id)

variable {s : FieldDeclaration} {d : FieldDirective}

/-- The arguments of directives are trimmed. -/
theorem isTrimmed_argument (h : d ∈ s.allDirectives) : IsTrimmed d.argument := by
  obtain ⟨t, -, ht⟩ := List.mem_filterMap.mp h
  unfold Token.fieldDirective? at ht
  split at ht
  · split at ht
    · next k argument hc =>
      cases ht
      have htrim := Directive.isTrimmed_argument hc
      exact htrim
    · cases ht
  · cases ht

/-- The reading of a field has the first spellings as its keys and reports the others. -/
theorem Reads.keys {r : OpenField × List Finding} (h : s.Reads r) :
    r.1.field.id = s.id ∧ r.1.field.keys = s.keys ∧ Finding.ofKeys r.2 = s.keyReports := by
  obtain ⟨line, ahead, rfl⟩ := h
  exact ⟨OpenField.id_obeyAll _ _, OpenField.keys_obeyAll rfl fun d hd => isTrimmed_argument hd⟩

/-- A key that is left out is no more than a warning. -/
theorem severity_of_mem_keyReports {f : Finding} (s : FieldDeclaration) (h : f ∈ s.keyReports) :
    f.problem.severity = .warning := by
  obtain ⟨d, -, rfl⟩ := List.mem_map.mp h
  rfl

/-- A field has the keys that are written first in its declaration, and as a choice it takes what is
written in any directive for a key. -/
structure HasKeysIn (s : FieldDeclaration) (f : Field) : Prop where
  id : f.id = s.id
  keys : f.keys = s.keys
  accepts : f.kind = .choice → ∀ value, strip value ≠ "" →
    (f.validate value = .ok () ↔
      ∃ d ∈ s.keyDirectives, sameWord d.argument (strip value) = true)

end FieldDeclaration

/-- A choice takes exactly its keys. -/
theorem Field.validate_choice {f : Field} {value : String} (hkind : f.kind = .choice)
    (hvalue : strip value ≠ "") :
    f.validate value = .ok () ↔ f.keys.any (sameWord · (strip value)) = true := by
  have hstrip : strip (strip value) = strip value := (isTrimmed_ofList_trim value.toList).strip_eq
  have hchoice : f.kind.isNumeric = false := by rw [hkind]; rfl
  unfold validate
  dsimp only
  rw [if_neg hvalue, hchoice, if_neg Bool.false_ne_true, if_pos hkind, hasKey, hstrip]
  cases f.keys.any (sameWord · (strip value)) with
  | true => exact iff_of_true rfl rfl
  | false => exact iff_of_false (fun h => by cases h) Bool.false_ne_true

theorem FieldDeclaration.HasKeysIn.of_keys {s : FieldDeclaration} {f : Field} (hid : f.id = s.id)
    (hkeys : f.keys = s.keys) : s.HasKeysIn f where
  id := hid
  keys := hkeys
  accepts := fun hkind value hvalue => by
    rw [Field.validate_choice hkind hvalue, hkeys, FieldDeclaration.keys, List.any_map]
    change (FieldDirective.firsts s.keyDirectives).any (fun d => sameWord d.argument _) = true ↔ _
    rw [FieldDirective.any_firsts, List.any_eq_true]

/-! ## Sources -/

/-- **What a declaration makes of the directives for keys.** -/
theorem Declaration.keys (d : Declaration) :
    List.Forall₂ FieldDeclaration.HasKeysIn d.fieldDeclarations d.object.fields ∧
      Finding.ofKeys d.findings = d.fieldDeclarations.flatMap FieldDeclaration.keyReports := by
  refine ⟨d.forall₂_fields fun s r hr index => ?_,
    d.filter_findings (fun f => f.isOfFieldDirective_of_key) fun s r hr => hr.keys.2.2⟩
  obtain ⟨hid, hkeys, -⟩ := hr.keys
  exact .of_keys hid hkeys

/-- **The keys of a source.** An object that is kept has the fields that its declaration declares.
The keys of a field are the first spellings in its directives for keys, and what is found about keys
is one warning for each of the other spellings, field by field. As a choice, a field takes a value
that is not empty exactly if one of these directives has it, up to outer blanks and the case of
Latin letters, whether its argument became a key or not. -/
theorem Source.keys_exact (text : String) :
    let source := Source.ofText text
    let ds := Declaration.ofText text
    source.items.filterMap Item.placed? =
        (Declaration.keptOf ds).map (fun d => (d.object, d.opening.line)) ∧
      Finding.ofKeys source.findings =
        ds.flatMap (·.1.fieldDeclarations.flatMap FieldDeclaration.keyReports) ∧
      (∀ p ∈ ds,
        List.Forall₂ FieldDeclaration.HasKeysIn p.1.fieldDeclarations p.1.object.fields) ∧
      ∀ (s : FieldDeclaration), ∀ f ∈ s.keyReports, f.problem.severity = .warning := by
  intro source ds
  obtain ⟨hkept, hfound⟩ := Source.readings text
  refine ⟨hkept, ?_, fun p _ => p.1.keys.1, fun s f => s.severity_of_mem_keyReports⟩
  have hkeys := congrArg Finding.ofKeys hfound
  rw [Finding.ofKeys_ofContent, Finding.ofKeys_ofContent] at hkeys
  rw [hkeys, Finding.ofKeys, List.filter_flatMap]
  exact congrArg (List.flatMap · _) (funext fun p => p.1.keys.2)

example :
    let source := Source.ofText
      "Zone,\nA1; \\type choice\n \\key Yes\n \\key No\n \\key yes \n \\key NO\n"
    source.findings = [⟨5, .repeatedKey "yes" ⟨.alpha, 1⟩⟩, ⟨6, .repeatedKey "NO" ⟨.alpha, 1⟩⟩] ∧
      source.objects.map (·.fields.map (·.keys)) = [[["Yes", "No"]]] ∧
      source.objects.all (·.fields.all fun f =>
        (f.validate " YES ").isOk && !(f.validate "maybe").isOk) := by
  decide +kernel

end DataDictionary
