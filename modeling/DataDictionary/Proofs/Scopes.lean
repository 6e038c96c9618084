import DataDictionary.Directive.Table

/-!
# Directives by scope

The rules of the file stand in front of every table. So whether a directive is one of the file can
be told without knowing where it stands, and what is left over is read by the rules of the object
or of the field alone. A directive therefore never ends up with a keyword of a scope other than its
own or the file's.
-/

namespace DataDictionary

/-- The scope that a keyword belongs to. -/
def Keyword.scope : Keyword → Scope
  | .file _ => .file
  | .object _ => .object
  | .field _ => .field

theorem Keyword.eq_file_of_scope {k : Keyword} (h : k.scope = .file) : ∃ k', k = .file k' := by
  cases k with
  | file k' => exact ⟨k', rfl⟩
  | object _ | field _ => cases h

theorem Keyword.eq_object_of_scope {k : Keyword} (h : k.scope = .object) :
    ∃ k', k = .object k' := by
  cases k with
  | object k' => exact ⟨k', rfl⟩
  | file _ | field _ => cases h

theorem Keyword.eq_field_of_scope {k : Keyword} (h : k.scope = .field) : ∃ k', k = .field k' := by
  cases k with
  | field k' => exact ⟨k', rfl⟩
  | file _ | object _ => cases h

theorem Rule.scope_of_mem_fileRules {r : Rule} (h : r ∈ fileRules) : r.keyword.scope = .file := by
  revert r
  decide

theorem Rule.scope_of_mem_objectRules {r : Rule} (h : r ∈ objectRules) :
    r.keyword.scope = .object := by
  revert r
  decide

theorem Rule.scope_of_mem_fieldRules {r : Rule} (h : r ∈ fieldRules) :
    r.keyword.scope = .field := by
  revert r
  decide

/-- What the rules of the file do not claim is read by the rules of its own scope. -/
theorem Rule.scope_of_mem_rules {scope : Scope} {r : Rule} (h : r ∈ scope.rules) :
    r.keyword.scope = .file ∨ r.keyword.scope = scope := by
  cases scope with
  | file => exact .inl (scope_of_mem_fileRules h)
  | object =>
    rcases List.mem_append.mp h with h | h
    · exact .inl (scope_of_mem_fileRules h)
    · exact .inr (scope_of_mem_objectRules h)
  | field =>
    rcases List.mem_append.mp h with h | h
    · exact .inl (scope_of_mem_fileRules h)
    · exact .inr (scope_of_mem_fieldRules h)

namespace Directive

/-- The first of some rules that fits a text. -/
def readBy (rules : List Rule) (text : String) : Option Directive :=
  rules.findSome? fun rule =>
    (rule.argument? (Text.trimStart text.toList)).map fun argument => ⟨rule.keyword, argument⟩

theorem readBy_append (rules more : List Rule) (text : String) :
    readBy (rules ++ more) text = (readBy rules text).or (readBy more text) := by
  unfold readBy
  exact List.findSome?_append

theorem exists_rule_of_readBy {rules : List Rule} {text : String} {d : Directive}
    (h : readBy rules text = some d) : ∃ r ∈ rules, r.keyword = d.keyword := by
  obtain ⟨rule, hmem, hrule⟩ := List.exists_of_findSome?_eq_some h
  obtain ⟨argument, -, rfl⟩ := Option.map_eq_some_iff.mp hrule
  exact ⟨rule, hmem, rfl⟩

/-- The rule by which a directive was understood has read its argument. -/
theorem exists_rule_of_classify? {scope : Scope} {text : String} {d : Directive}
    (h : classify? scope text = some d) :
    ∃ r ∈ scope.rules, r.keyword = d.keyword ∧
      r.argument? (Text.trimStart text.toList) = some d.argument := by
  obtain ⟨rule, hmem, hrule⟩ := List.exists_of_findSome?_eq_some h
  obtain ⟨argument, hargument, rfl⟩ := Option.map_eq_some_iff.mp hrule
  exact ⟨rule, hmem, rfl, hargument⟩

/-- A directive has a keyword of the file or of the scope it stands in. -/
theorem scope_of_classify? {scope : Scope} {text : String} {d : Directive}
    (h : classify? scope text = some d) : d.keyword.scope = .file ∨ d.keyword.scope = scope := by
  obtain ⟨r, hmem, hkey⟩ := exists_rule_of_readBy h
  exact hkey ▸ Rule.scope_of_mem_rules hmem

/-- A directive of the file is one in every scope. -/
theorem classify?_of_file {text : String} {d : Directive} (h : classify? .file text = some d)
    (scope : Scope) : classify? scope text = some d := by
  have hread : readBy Rule.fileRules text = some d := h
  cases scope with
  | file => exact h
  | object => exact (readBy_append _ _ text).trans (by rw [hread]; rfl)
  | field => exact (readBy_append _ _ text).trans (by rw [hread]; rfl)

/-- Conversely, a directive that is understood as one of the file is so whatever is open. -/
theorem file_of_classify? {scope : Scope} {text : String} {d : Directive}
    (h : classify? scope text = some d) (hfile : d.keyword.scope = .file) :
    classify? .file text = some d := by
  have key : ∀ {own : List Rule}, (∀ r ∈ own, r.keyword.scope ≠ .file) →
      readBy (Rule.fileRules ++ own) text = some d → readBy Rule.fileRules text = some d := by
    intro own hown hread
    rw [readBy_append] at hread
    rcases Option.or_eq_some_iff.mp hread with hread | ⟨-, hread⟩
    · exact hread
    · obtain ⟨r, hmem, hkey⟩ := exists_rule_of_readBy hread
      exact absurd (hkey ▸ hfile) (hown r hmem)
  cases scope with
  | file => exact h
  | object =>
    exact key (fun r hr => by rw [Rule.scope_of_mem_objectRules hr]; decide) h
  | field =>
    exact key (fun r hr => by rw [Rule.scope_of_mem_fieldRules hr]; decide) h

/-- Where the rules of the file do not fit, a directive has the scope it stands in. -/
theorem scope_eq_of_not_file {scope : Scope} {text : String} {d : Directive}
    (hfile : classify? .file text = none) (h : classify? scope text = some d) :
    d.keyword.scope = scope := by
  rcases scope_of_classify? h with hs | hs
  · rw [file_of_classify? h hs] at hfile
    cases hfile
  · exact hs

end Directive

end DataDictionary
