import DataDictionary.Proofs.Scopes
import DataDictionary.Proofs.Spellings
import Mathlib.Data.List.Pairwise

/-!
# Which rule decides

The tables of directives are ordered, but the order hardly matters. Two rules can only fit the same
text if the letters of one keyword are the beginning of those of the other, and a look at the tables
shows four pairs of which that is true (`Rule.pairwise_outranks`). So if a rule fits a text and no
rule that outranks it does, then it is the one that decides, in any table that keeps each of these
pairs in order (`Directive.readBy_of_isDecisive`).
-/

namespace DataDictionary

open Text

/-- The keywords that are the beginning of another one, each behind that other one. The two ways to
write a bound share their keyword and are told apart by the mark that may follow it. -/
def FieldKeyword.nested : List (FieldKeyword × FieldKeyword) :=
  [(.unitsBasedOnField, .units), (.referenceClassName, .reference),
   (.minimumExclusive, .minimumInclusive), (.maximumExclusive, .maximumInclusive)]

namespace Rule

/-- Whether a rule fits the text of a directive. -/
def Fits (r : Rule) (text : String) : Prop := (r.argument? (trimStart text.toList)).isSome

/-- Whether a rule has to be tried before another one, since both may fit. -/
def Outranks (r r' : Rule) : Prop :=
  ∃ p ∈ FieldKeyword.nested, r.keyword = .field p.1 ∧ r'.keyword = .field p.2

instance (r r' : Rule) : Decidable (r.Outranks r') :=
  inferInstanceAs (Decidable (∃ p ∈ FieldKeyword.nested, _))

/-- The letters of the keyword, folded. -/
def letters (r : Rule) : List Char := r.pattern.spelling.letters

variable {r r' r'' : Rule} {scope : Scope} {text : String}

/-- A rule that outranks another one is outranked by none. -/
theorem Outranks.not_outranks (h : r.Outranks r') : ¬r''.Outranks r := by
  rintro ⟨q, hq, -, hsecond⟩
  obtain ⟨p, hp, hfirst, -⟩ := h
  have hdisjoint : ∀ p ∈ FieldKeyword.nested, ∀ q ∈ FieldKeyword.nested, p.1 ≠ q.2 := by decide
  exact hdisjoint p hp q hq (Keyword.field.inj (hfirst.symm.trans hsecond))

/-- **The tables.** Where the letters of two keywords begin with one another, the rule that comes
first outranks the other one. -/
theorem pairwise_outranks (scope : Scope) :
    scope.rules.Pairwise fun r r' =>
      r.letters <+: r'.letters ∨ r'.letters <+: r.letters → r.Outranks r' := by
  cases scope <;> decide +kernel

theorem letters_isPrefix (h : r.Fits text) :
    r.letters <+: (trimStart text.toList).map foldLatin := by
  obtain ⟨argument, hargument⟩ := Option.isSome_iff_exists.mp h
  simp only [argument?, Pattern.match?, Option.bind_eq_bind, Option.bind_eq_some_iff] at hargument
  obtain ⟨rest, hrest, -⟩ := hargument
  exact Spelling.letters_isPrefix hrest

/-- **Of two rules that fit one text, the first outranks the second.** -/
theorem pairwise_fits (scope : Scope) (text : String) :
    scope.rules.Pairwise fun r r' => r.Fits text → r'.Fits text → r.Outranks r' :=
  (pairwise_outranks scope).imp fun houtranks hr hr' =>
    houtranks (List.prefix_or_prefix_of_prefix (letters_isPrefix hr) (letters_isPrefix hr'))

theorem outranks_or_outranks (hmem : r ∈ scope.rules) (hmem' : r' ∈ scope.rules) (hne : r ≠ r')
    (hfits : r.Fits text) (hfits' : r'.Fits text) : r.Outranks r' ∨ r'.Outranks r := by
  let Ranked (r r' : Rule) : Prop :=
    r.Fits text → r'.Fits text → r.Outranks r' ∨ r'.Outranks r
  have hsymm : Std.Symm Ranked := ⟨fun _ _ h hx hy => (h hy hx).symm⟩
  have hpairwise : scope.rules.Pairwise Ranked :=
    (pairwise_fits scope text).imp fun h hr hr' => .inl (h hr hr')
  exact hpairwise.forall hmem hmem' hne hfits hfits'

/-- No rule stands in a table twice. -/
theorem nodup_rules (scope : Scope) : scope.rules.Nodup := by
  cases scope <;> decide +kernel

/-- The tables have the rules of each pair in order. -/
theorem sublist_of_outranks (hmem : r ∈ scope.rules) (hmem' : r' ∈ scope.rules)
    (h : r.Outranks r') : [r, r'].Sublist scope.rules := by
  have htable : ∀ r ∈ scope.rules, ∀ r' ∈ scope.rules, r.Outranks r' →
      [r, r'].Sublist scope.rules := by
    cases scope <;> decide +kernel
  exact htable r hmem r' hmem' h

/-- A rule fits the text, and it outranks all others that do. -/
structure IsDecisive (r : Rule) (scope : Scope) (text : String) : Prop where
  mem : r ∈ scope.rules
  fits : r.Fits text
  outranks : ∀ r' ∈ scope.rules, r'.Fits text → r' ≠ r → r.Outranks r'

/-- A rule that no other outranks is decisive wherever it fits. -/
theorem IsDecisive.of_not_outranked (hmem : r ∈ scope.rules) (hfits : r.Fits text)
    (hno : ∀ r' ∈ scope.rules, r'.Fits text → ¬r'.Outranks r) : r.IsDecisive scope text where
  mem := hmem
  fits := hfits
  outranks := fun r' hmem' hfits' hne =>
    (outranks_or_outranks hmem hmem' hne.symm hfits hfits').resolve_right (hno r' hmem' hfits')

/-- **Where some rule fits, there is one that decides.** -/
theorem exists_isDecisive (hmem : r ∈ scope.rules) (hfits : r.Fits text) :
    ∃ a : Rule, a.IsDecisive scope text := by
  by_cases hbeaten : ∃ r' ∈ scope.rules, r'.Fits text ∧ r'.Outranks r
  · obtain ⟨r', hmem', hfits', houtranks⟩ := hbeaten
    exact ⟨r', .of_not_outranked hmem' hfits' fun _ _ _ => houtranks.not_outranks⟩
  · exact ⟨r, .of_not_outranked hmem hfits fun r' hmem' hfits' houtranks =>
      hbeaten ⟨r', hmem', hfits', houtranks⟩⟩

end Rule

/-- A table has the rules of another one, and those of each nested pair in the same order. -/
structure Rule.IsReordering (rules : List Rule) (scope : Scope) : Prop where
  perm : rules.Perm scope.rules
  inOrder : ∀ r ∈ scope.rules, ∀ r' ∈ scope.rules, r.Outranks r' → [r, r'].Sublist rules

theorem Rule.isReordering_rules (scope : Scope) : IsReordering scope.rules scope where
  perm := .refl _
  inOrder := fun _ hmem _ hmem' => sublist_of_outranks hmem hmem'

namespace Directive

variable {r : Rule} {rules : List Rule} {scope : Scope} {text : String}

/-- **The decisive rule reads the directive, in whatever order the others are tried.** -/
theorem readBy_of_isDecisive (h : r.IsDecisive scope text)
    (horder : Rule.IsReordering rules scope) :
    readBy rules text =
      (r.argument? (trimStart text.toList)).map fun argument => ⟨r.keyword, argument⟩ := by
  obtain ⟨argument, hargument⟩ := Option.isSome_iff_exists.mp h.fits
  rw [readBy, hargument, Option.map_some, List.findSome?_eq_some_iff]
  obtain ⟨before, after, rfl⟩ := List.append_of_mem (horder.perm.mem_iff.mpr h.mem)
  have hnodup : (before ++ r :: after).Nodup :=
    horder.perm.nodup_iff.mpr (Rule.nodup_rules scope)
  rw [List.nodup_append, List.nodup_cons] at hnodup
  obtain ⟨-, ⟨-, -⟩, hdisjoint⟩ := hnodup
  refine ⟨before, r, after, rfl, by rw [hargument, Option.map_some], fun r' hmem' => ?_⟩
  rw [Option.map_eq_none_iff, ← Option.not_isSome_iff_eq_none]
  intro hfits
  -- a rule in front of `r` would stand behind it as well
  have hne : r' ≠ r := hdisjoint r' hmem' r List.mem_cons_self
  have hmem : r' ∈ scope.rules := horder.perm.mem_iff.mp (List.mem_append_left _ hmem')
  have hsub : [r, r'].Sublist (before ++ r :: after) :=
    horder.inOrder r h.mem r' hmem (h.outranks r' hmem hfits hne)
  obtain ⟨front, back, heq, hfront, hback⟩ := List.sublist_append_iff.mp hsub
  cases front with
  | nil =>
    rw [List.nil_append] at heq
    rw [← heq, List.cons_sublist_cons, List.singleton_sublist] at hback
    exact hdisjoint r' hmem' r' (List.mem_cons_of_mem _ hback) rfl
  | cons x front =>
    have hx : x = r := (List.cons.inj heq).1.symm
    exact hdisjoint r (hfront.mem (hx ▸ List.mem_cons_self)) r List.mem_cons_self rfl

/-- A directive is read by the decisive rule. -/
theorem classify?_of_isDecisive (h : r.IsDecisive scope text) :
    classify? scope text =
      (r.argument? (trimStart text.toList)).map fun argument => ⟨r.keyword, argument⟩ :=
  readBy_of_isDecisive h (Rule.isReordering_rules scope)

/-- **The order of a table matters for the nested pairs only.** -/
theorem readBy_of_isReordering (horder : Rule.IsReordering rules scope) (text : String) :
    readBy rules text = classify? scope text := by
  by_cases hfits : ∃ r ∈ scope.rules, r.Fits text
  · obtain ⟨r, hmem, hfits⟩ := hfits
    obtain ⟨r, h⟩ := Rule.exists_isDecisive hmem hfits
    rw [readBy_of_isDecisive h horder, classify?_of_isDecisive h]
  · have hnone : ∀ r ∈ scope.rules, r.argument? (trimStart text.toList) = none := fun r hr =>
      Option.not_isSome_iff_eq_none.mp fun hsome => hfits ⟨r, hr, hsome⟩
    have hread : ∀ {rules : List Rule}, (∀ r ∈ rules, r ∈ scope.rules) →
        readBy rules text = none := fun hsub =>
      List.findSome?_eq_none_iff.mpr fun r hr => by rw [hnone r (hsub r hr), Option.map_none]
    have hclassify : classify? scope text = none := hread fun _ hr => hr
    rw [hclassify, hread fun r hr => horder.perm.mem_iff.mp hr]

/-- **The tables are unambiguous.** If two rules of the table for a scope fit one text, they are a
nested pair, the outranking one first, and it reads the directive. So every reordering of the table
that keeps the nested pairs in order reads every directive in the same way. And where a rule of
objects or of fields fits, none of the file does. -/
theorem tables_unambiguous (scope : Scope) (text : String) :
    (scope.rules.Pairwise fun r r' => r.Fits text → r'.Fits text →
      r.Outranks r' ∧ classify? scope text =
        (r.argument? (trimStart text.toList)).map fun argument => ⟨r.keyword, argument⟩) ∧
    (∀ rules, Rule.IsReordering rules scope → readBy rules text = classify? scope text) ∧
    ∀ own ∈ Rule.objectRules ++ Rule.fieldRules, own.Fits text →
      ∀ r ∈ Rule.fileRules, ¬r.Fits text := by
  refine ⟨?_, fun rules horder => readBy_of_isReordering horder text, ?_⟩
  · refine List.Pairwise.imp_of_mem ?_ (Rule.pairwise_fits scope text)
    intro r r' hmem _ houtranks hfits hfits'
    have hbeats : r.Outranks r' := houtranks hfits hfits'
    exact ⟨hbeats, classify?_of_isDecisive
      (.of_not_outranked hmem hfits fun _ _ _ => hbeats.not_outranks)⟩
  · intro own hown hfits r hr hfits'
    have hfile : r.keyword.scope = .file := Rule.scope_of_mem_fileRules hr
    have hboth : ∃ scope : Scope, scope ≠ .file ∧ own.keyword.scope = scope ∧
        own ∈ scope.rules ∧ r ∈ scope.rules := by
      rcases List.mem_append.mp hown with hown | hown
      · exact ⟨.object, by decide, Rule.scope_of_mem_objectRules hown,
          List.mem_append_right _ hown, List.mem_append_left _ hr⟩
      · exact ⟨.field, by decide, Rule.scope_of_mem_fieldRules hown,
          List.mem_append_right _ hown, List.mem_append_left _ hr⟩
    obtain ⟨scope, hscope, hownScope, hmem, hmem'⟩ := hboth
    have hne : own ≠ r := fun h => hscope (by rw [← hownScope, h, hfile])
    -- both keywords of a nested pair are those of fields
    rcases Rule.outranks_or_outranks hmem hmem' hne hfits hfits' with
      ⟨p, -, -, hkey⟩ | ⟨p, -, hkey, -⟩
    · rw [hkey] at hfile
      cases hfile
    · rw [hkey] at hfile
      cases hfile

/-- The units of another field are units too, but the longer keyword stands in front. In the table
of objects no rule has to stand in front of another one. -/
theorem units_of_field_before_units :
    (let units := Rule.ofField .units "Units" .untilComment
      let unitsOfField := Rule.ofField .unitsBasedOnField "UnitsBasedOnField" .untilComment
      units.Fits "unitsBasedOnField A2" ∧ unitsOfField.Fits "unitsBasedOnField A2" ∧
        unitsOfField.Outranks units ∧
        classify? .field "unitsBasedOnField A2" = some ⟨.field .unitsBasedOnField, "A2"⟩) ∧
      readBy Scope.object.rules.reverse "note a" = classify? .object "note a" := by
  refine ⟨?_, ?_⟩
  · intro units unitsOfField
    have hunits : units.Fits "unitsBasedOnField A2" := by
      unfold Rule.Fits
      decide +kernel
    have hargument : unitsOfField.argument? (trimStart "unitsBasedOnField A2".toList) =
        some "A2" := by decide +kernel
    have hfits : unitsOfField.Fits "unitsBasedOnField A2" := by rw [Rule.Fits, hargument]; rfl
    have hsub : [unitsOfField, units].Sublist Scope.field.rules := by decide +kernel
    have hpair := List.pairwise_pair.mp
      ((tables_unambiguous .field "unitsBasedOnField A2").1.sublist hsub)
    obtain ⟨houtranks, hread⟩ := hpair hfits hunits
    rw [hargument] at hread
    exact ⟨hunits, hfits, houtranks, hread⟩
  · have hno : ∀ r ∈ Scope.object.rules, ∀ r' ∈ Scope.object.rules, ¬r.Outranks r' := by decide
    have horder : Rule.IsReordering Scope.object.rules.reverse .object :=
      ⟨List.reverse_perm _, fun r hr r' hr' h => absurd h (hno r hr r' hr')⟩
    exact (tables_unambiguous .object "note a").2.1 _ horder

end Directive

end DataDictionary
