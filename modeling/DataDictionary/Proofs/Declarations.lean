import DataDictionary.Proofs.DirectiveEffects
import Mathlib.Data.List.Basic

/-!
# Declarations

Where the objects of a source begin and end can be told from its tokens alone. A **declaration** is
the run of tokens from the name of an object up to the next name, the next directive of the file, or
the end of the source; `cut` finds the declarations, and says nothing about how they are read.

Whether a declaration becomes an object is a matter of its tokens too, and of the declarations
before it: it must be terminated, its bounds must not conflict, and its name must be new. `judge`
passes that verdict on each declaration in turn.

All notions are set up so that they can be followed token by token from the front: for each of them
there is a lemma about one more token at the end.
-/

namespace DataDictionary

namespace Token

/-- Whether a token is the comment of a line that has nothing else. -/
def isComment (t : Token) : Bool :=
  match t.body with
  | .comment _ => true
  | _ => false

/-- The field that a token marks, if it is a field marker. -/
def marker? (t : Token) : Option FieldId :=
  match t.body with
  | .content text _ => FieldId.parse? text
  | _ => none

/-- The text of a token that could be the name of an object: content that is neither empty nor a
field marker. -/
def name? (t : Token) : Option String :=
  match t.body with
  | .content text _ => if text = "" ∨ (FieldId.parse? text).isSome then none else some text
  | _ => none

/-- Whether the token ends with a semicolon. -/
def closes (t : Token) : Bool :=
  match t.body with
  | .content _ ending | .directive _ ending => ending == some .semicolon
  | .comment _ => false

/-- Whether the token is a directive of the file, which ends every declaration. -/
def isFileDirective (t : Token) : Bool :=
  match t.body with
  | .directive text _ => (Directive.classify? .file text).isSome
  | _ => false

/-- The bound that a token sets if it stands behind a field marker. -/
def bound? (t : Token) : Option (Side × BoundForm) :=
  match t.body with
  | .directive text _ =>
    match Directive.classify? .field text with
    | some ⟨.field k, _⟩ => k.bound?
    | _ => none
  | _ => none

/-- The form in which a token sets the bound of one side. -/
def formOf? (side : Side) (t : Token) : Option BoundForm :=
  t.bound?.bind fun b => if b.1 = side then some b.2 else none

/-- Whether there is a semicolon with no field marker behind it: on the last marker or behind it,
or anywhere if there is no marker. -/
def terminated : List Token → Bool
  | [] => false
  | t :: ts => (t.closes && ts.all (·.marker? == none)) || terminated ts

/-- The last field marker among some tokens, and what stands behind it. -/
def lastField? : List Token → Option (FieldId × List Token)
  | [] => none
  | t :: ts => (lastField? ts).or (t.marker?.map fun id => (id, ts))

/-- The form in which some tokens first set the bound of one side. -/
def firstForm? (side : Side) (ts : List Token) : Option BoundForm := ts.findSome? (formOf? side)

/-- What is wrong with the bound that a token sets, given the tokens before it: since the last
field marker the same bound was first set in the other form. -/
def conflict? (before : List Token) (t : Token) : Option Finding := do
  let (id, behind) ← lastField? before
  let (side, form) ← t.bound?
  let first ← firstForm? side behind
  if first = form then none else some ⟨t.line, .conflictingBounds id side⟩

/-- The conflicts that tokens bring up behind those of `before`. -/
def conflictsAfter : (before : List Token) → List Token → List Finding
  | _, [] => []
  | before, t :: ts => (conflict? before t).toList ++ conflictsAfter (before ++ [t]) ts

/-! ## What the body of a token decides -/

section

variable {t : Token} {text : String} {ending : Option Separator}

theorem marker?_of_content (h : t.body = .content text ending) :
    t.marker? = FieldId.parse? text := by
  rw [marker?, h]

/-- A name is no field marker. -/
theorem marker?_of_name? {name : String} (h : t.name? = some name) : t.marker? = none := by
  unfold name? at h
  unfold marker?
  split at h
  · rw [Option.ite_none_left_eq_some, not_or] at h
    exact Option.not_isSome_iff_eq_none.mp h.1.2
  · cases h

theorem name?_eq_none_of_content (h : t.body = .content text ending)
    (hno : text = "" ∨ (FieldId.parse? text).isSome) : t.name? = none := by
  rw [name?, h]
  exact if_pos hno

theorem name?_of_content (h : t.body = .content text ending) (htext : text ≠ "")
    (hid : FieldId.parse? text = none) : t.name? = some text := by
  rw [name?, h]
  exact if_neg (not_or.mpr ⟨htext, by simp [hid]⟩)

theorem closes_of_content (h : t.body = .content text ending) :
    t.closes = (ending == some .semicolon) := by
  rw [closes, h]

theorem bound?_of_content (h : t.body = .content text ending) : t.bound? = none := by
  rw [bound?, h]

theorem isFileDirective_of_content (h : t.body = .content text ending) :
    t.isFileDirective = false := by
  rw [isFileDirective, h]

theorem marker?_of_directive (h : t.body = .directive text ending) : t.marker? = none := by
  rw [marker?, h]

theorem name?_of_directive (h : t.body = .directive text ending) : t.name? = none := by
  rw [name?, h]

theorem closes_of_directive (h : t.body = .directive text ending) :
    t.closes = (ending == some .semicolon) := by
  rw [closes, h]

theorem bound?_of_directive {k : FieldKeyword} {argument : String}
    (h : t.body = .directive text ending)
    (hc : Directive.classify? .field text = some ⟨.field k, argument⟩) : t.bound? = k.bound? := by
  simp only [bound?, h, hc]

theorem isFileDirective_of_directive (h : t.body = .directive text ending) :
    t.isFileDirective = (Directive.classify? .file text).isSome := by
  rw [isFileDirective, h]

/-- What sets no bound is in no conflict. -/
theorem conflict?_of_bound?_eq_none (h : t.bound? = none) (before : List Token) :
    conflict? before t = none := by
  cases hl : lastField? before <;> simp [conflict?, hl, h]

/-- Without a field there is no bound to be in conflict with. -/
theorem conflict?_of_lastField?_eq_none {before : List Token} (h : lastField? before = none)
    (t : Token) : conflict? before t = none := by
  simp [conflict?, h]

end

/-! ## One more token -/

theorem terminated_append_singleton (ts : List Token) (t : Token) :
    terminated (ts ++ [t]) = (t.closes || (terminated ts && t.marker? == none)) := by
  induction ts with
  | nil => simp [terminated]
  | cons u us ih =>
    simp only [List.cons_append, terminated, ih, List.all_append, List.all_cons, List.all_nil,
      Bool.and_true]
    cases u.closes <;> cases t.closes <;> cases us.all (·.marker? == none) <;>
      cases terminated us <;> cases t.marker? == none <;> rfl

/-- Without a field marker any semicolon will do. -/
theorem terminated_eq_any {ts : List Token} (h : ts.filterMap marker? = []) :
    terminated ts = ts.any closes := by
  induction ts with
  | nil => rfl
  | cons t ts ih =>
    have hnone : ∀ u ∈ t :: ts, u.marker? = none := List.filterMap_eq_nil_iff.mp h
    have hall : ts.all (·.marker? == none) = true := by
      rw [List.all_eq_true]
      intro u hu
      simp [hnone u (List.mem_cons_of_mem _ hu)]
    have htail : ts.filterMap marker? = [] :=
      List.filterMap_eq_nil_iff.mpr fun u hu => hnone u (List.mem_cons_of_mem _ hu)
    rw [terminated, hall, Bool.and_true, ih htail, List.any_cons]

theorem lastField?_append_singleton (ts : List Token) (t : Token) :
    lastField? (ts ++ [t]) =
      match t.marker? with
      | some id => some (id, [])
      | none => (lastField? ts).map fun p => (p.1, p.2 ++ [t]) := by
  induction ts with
  | nil => cases h : t.marker? <;> simp [lastField?, h]
  | cons u us ih =>
    rw [List.cons_append, lastField?, ih]
    cases t.marker? with
    | some id => rfl
    | none =>
      -- the last marker stays the last one, whether it is `u` or behind it
      cases h : lastField? us <;> cases h' : u.marker? <;> simp [lastField?, h, h']

theorem lastField?_eq_none_iff {ts : List Token} :
    lastField? ts = none ↔ ts.filterMap marker? = [] := by
  induction ts with
  | nil => simp [lastField?]
  | cons t ts ih =>
    cases h : t.marker? <;> simp [lastField?, h, ih]

theorem firstForm?_append_singleton (side : Side) (ts : List Token) (t : Token) :
    firstForm? side (ts ++ [t]) = (firstForm? side ts).or (t.formOf? side) := by
  rw [firstForm?, List.findSome?_append]
  cases h : t.formOf? side <;> simp [firstForm?, h]

theorem conflictsAfter_append_singleton (before ts : List Token) (t : Token) :
    conflictsAfter before (ts ++ [t]) =
      conflictsAfter before ts ++ (conflict? (before ++ ts) t).toList := by
  induction ts generalizing before with
  | nil => simp [conflictsAfter]
  | cons u us ih => simp [conflictsAfter, ih]

/-- A conflict is reported where the token that causes it stands. -/
theorem mem_conflictsAfter {before ts : List Token} {f : Finding}
    (h : f ∈ conflictsAfter before ts) :
    ∃ t ∈ ts, ∃ id side, f = ⟨t.line, .conflictingBounds id side⟩ := by
  induction ts generalizing before with
  | nil => simp [conflictsAfter] at h
  | cons t ts ih =>
    rcases List.mem_append.mp h with h | h
    · rw [Option.mem_toList] at h
      simp only [conflict?, Option.bind_eq_bind, Option.bind_eq_some_iff] at h
      obtain ⟨p, -, b, -, first, -, hif⟩ := h
      rw [Option.ite_none_left_eq_some] at hif
      exact ⟨t, by simp, p.1, b.1, (Option.some.inj hif.2).symm⟩
    · obtain ⟨u, hu, hf⟩ := ih h
      exact ⟨u, List.mem_cons_of_mem _ hu, hf⟩

end Token

/-- The tokens of an object, from its name on. -/
structure Declaration where
  name : String
  /-- The token of the name. -/
  opening : Token
  rest : List Token
  deriving DecidableEq

namespace Declaration

def tokens (d : Declaration) : List Token := d.opening :: d.rest

/-- The declaration with one more token. -/
def add (d : Declaration) (t : Token) : Declaration := { d with rest := d.rest ++ [t] }

/-- The fields in their order. -/
def markers (d : Declaration) : List FieldId := d.rest.filterMap Token.marker?

def isTerminated (d : Declaration) : Bool := Token.terminated d.tokens

/-- The conflicts among the bounds of each field. -/
def conflicts (d : Declaration) : List Finding := Token.conflictsAfter [] d.rest

/-- What the object is looked up by. -/
def key (d : Declaration) : String := Text.lookupKey d.name

/-- Whether a name ends the declaration: it has a field or a semicolon. Before that, a name is
commentary. -/
def mayEnd (d : Declaration) : Bool := d.markers ≠ [] || d.tokens.any Token.closes

/-- The declarations that a token ends, and the one that is open behind it. -/
def next (current : Option Declaration) (t : Token) : List Declaration × Option Declaration :=
  if t.isFileDirective then (current.toList, none)
  else
    match t.name? with
    | none => ([], current.map (·.add t))
    | some name =>
      if current.all (·.mayEnd) then (current.toList, some ⟨name, t, []⟩)
      else ([], current.map (·.add t))

/-- The declarations among some tokens, if `current` is open in front of them. -/
def cut (current : Option Declaration) : List Token → List Declaration
  | [] => current.toList
  | t :: ts => (next current t).1 ++ cut (next current t).2 ts

/-- What becomes of a declaration. -/
inductive Verdict where
  | kept
  | unterminated
  | conflicting
  /-- An earlier object has the name. -/
  | repeated
  deriving DecidableEq

/-- The verdict on a declaration behind those that have survived. -/
def verdict (survivors : List Declaration) (d : Declaration) : Verdict :=
  if d.isTerminated = false then .unterminated
  else if d.conflicts ≠ [] then .conflicting
  else if ∃ e ∈ survivors, e.key = d.key then .repeated
  else .kept

/-- The verdicts on declarations, one after the other. -/
def judge (survivors : List Declaration) : List Declaration → List (Declaration × Verdict)
  | [] => []
  | d :: ds =>
    (d, verdict survivors d) ::
      judge (if verdict survivors d = .kept then survivors ++ [d] else survivors) ds

/-- The declarations that are kept. -/
def keptOf (judged : List (Declaration × Verdict)) : List Declaration :=
  (judged.filter (·.2 = .kept)).map (·.1)

/-- What the verdict on a declaration leaves among the findings: the conflicts of its bounds, and
at its end the reason why it is not kept, if there is another one. -/
def denials (d : Declaration) (v : Verdict) : List Finding :=
  d.conflicts ++
    match v with
    | .unterminated => [⟨d.opening.line, .unterminated d.name⟩]
    | .repeated => [⟨d.opening.line, .repeatedObject d.name⟩]
    | .kept | .conflicting => []

section

variable {survivors : List Declaration} {d : Declaration}

theorem verdict_of_unterminated (h : d.isTerminated = false) :
    verdict survivors d = .unterminated := by
  rw [verdict, if_pos h]

theorem verdict_of_conflicts (h : d.isTerminated = true) (hc : d.conflicts ≠ []) :
    verdict survivors d = .conflicting := by
  rw [verdict, if_neg (by rw [h]; decide), if_pos hc]

theorem verdict_of_known (h : d.isTerminated = true) (hc : d.conflicts = [])
    (hkey : ∃ e ∈ survivors, e.key = d.key) : verdict survivors d = .repeated := by
  rw [verdict, if_neg (by rw [h]; decide), if_neg (not_not.mpr hc), if_pos hkey]

theorem verdict_of_new (h : d.isTerminated = true) (hc : d.conflicts = [])
    (hkey : ¬ ∃ e ∈ survivors, e.key = d.key) : verdict survivors d = .kept := by
  rw [verdict, if_neg (by rw [h]; decide), if_neg (not_not.mpr hc), if_neg hkey]

theorem conflicts_ne_nil_of_verdict (h : verdict survivors d = .conflicting) :
    d.conflicts ≠ [] := by
  intro hnil
  by_cases hterminated : d.isTerminated = true
  · by_cases hkey : ∃ e ∈ survivors, e.key = d.key
    · rw [verdict_of_known hterminated hnil hkey] at h
      cases h
    · rw [verdict_of_new hterminated hnil hkey] at h
      cases h
  · rw [verdict_of_unterminated (Bool.eq_false_iff.mpr hterminated)] at h
    cases h

theorem conflicts_eq_nil_of_verdict
    (h : verdict survivors d = .kept ∨ verdict survivors d = .repeated) : d.conflicts = [] := by
  by_contra hconflicts
  by_cases hterminated : d.isTerminated = true
  · rw [verdict_of_conflicts hterminated hconflicts] at h
    rcases h with h | h <;> cases h
  · rw [verdict_of_unterminated (Bool.eq_false_iff.mpr hterminated)] at h
    rcases h with h | h <;> cases h

end

theorem next_of_fileDirective {t : Token} (h : t.isFileDirective = true)
    (current : Option Declaration) : next current t = (current.toList, none) := by
  rw [next, if_pos h]

theorem next_of_name?_eq_none {t : Token} (hfile : t.isFileDirective = false)
    (hname : t.name? = none) (current : Option Declaration) :
    next current t = ([], current.map (·.add t)) := by
  rw [next, hfile, hname]
  rfl

theorem next_of_name? {t : Token} {name : String} (hfile : t.isFileDirective = false)
    (hname : t.name? = some name) (current : Option Declaration) :
    next current t =
      if current.all (·.mayEnd) then (current.toList, some ⟨name, t, []⟩)
      else ([], current.map (·.add t)) := by
  rw [next, hfile, hname]
  rfl

theorem add_isTerminated (d : Declaration) (t : Token) :
    (d.add t).isTerminated = (t.closes || (d.isTerminated && t.marker? == none)) :=
  Token.terminated_append_singleton d.tokens t

theorem add_conflicts (d : Declaration) (t : Token) :
    (d.add t).conflicts = d.conflicts ++ (Token.conflict? d.rest t).toList :=
  Token.conflictsAfter_append_singleton [] d.rest t

theorem add_markers (d : Declaration) (t : Token) :
    (d.add t).markers = d.markers ++ t.marker?.toList := by
  cases h : t.marker? <;> simp [markers, add, h]

theorem keptOf_append (js ks : List (Declaration × Verdict)) :
    keptOf (js ++ ks) = keptOf js ++ keptOf ks := by
  simp [keptOf]

theorem judge_append (survivors ds es : List Declaration) :
    judge survivors (ds ++ es) =
      judge survivors ds ++ judge (survivors ++ keptOf (judge survivors ds)) es := by
  induction ds generalizing survivors with
  | nil => simp [judge, keptOf]
  | cons d ds ih =>
    rw [List.cons_append, judge, judge, ih, List.cons_append]
    by_cases hv : verdict survivors d = .kept <;> simp [keptOf, hv]

/-- Every verdict is passed behind some survivors. -/
theorem exists_verdict_of_mem_judge {survivors ds : List Declaration} {p : Declaration × Verdict}
    (hp : p ∈ judge survivors ds) : ∃ before, p.2 = verdict before p.1 := by
  induction ds generalizing survivors with
  | nil => cases hp
  | cons d ds ih =>
    rcases List.mem_cons.mp hp with rfl | hp
    · exact ⟨survivors, rfl⟩
    · exact ih hp

/-- What is kept has no conflicts. -/
theorem conflicts_of_kept {survivors ds : List Declaration} {p : Declaration × Verdict}
    (hp : p ∈ judge survivors ds) (hv : p.2 = .kept) : p.1.conflicts = [] := by
  obtain ⟨before, hverdict⟩ := exists_verdict_of_mem_judge hp
  exact conflicts_eq_nil_of_verdict (.inl (hverdict.symm.trans hv))

/-- What stands against a declaration is on one of its lines. -/
theorem exists_token_of_mem_denials {d : Declaration} {v : Verdict} {f : Finding}
    (h : f ∈ d.denials v) : ∃ t ∈ d.tokens, f.line = t.line := by
  rcases List.mem_append.mp h with h | h
  · -- a conflict is reported where the bound stands, not at the name
    obtain ⟨t, ht, id, side, rfl⟩ := Token.mem_conflictsAfter h
    exact ⟨t, List.mem_cons_of_mem _ ht, rfl⟩
  · cases v with
    | unterminated | repeated =>
      rw [List.mem_singleton.mp h]
      exact ⟨d.opening, List.mem_cons_self, rfl⟩
    | kept | conflicting => cases h

/-- **What is not kept leaves an error on one of its lines.** -/
theorem exists_error_of_ne_kept {survivors ds : List Declaration} {p : Declaration × Verdict}
    (hp : p ∈ judge survivors ds) (hv : p.2 ≠ .kept) :
    ∃ f ∈ p.1.denials p.2, f.problem.severity = .error ∧ ∃ t ∈ p.1.tokens, f.line = t.line := by
  obtain ⟨before, hverdict⟩ := exists_verdict_of_mem_judge hp
  obtain ⟨d, v⟩ := p
  have herror : ∃ f ∈ d.denials v, f.problem.severity = .error := by
    cases v with
    | kept => exact absurd rfl hv
    | unterminated => exact ⟨⟨d.opening.line, .unterminated d.name⟩, by simp [denials], rfl⟩
    | repeated => exact ⟨⟨d.opening.line, .repeatedObject d.name⟩, by simp [denials], rfl⟩
    | conflicting =>
      have hconflicts := conflicts_ne_nil_of_verdict hverdict.symm
      obtain ⟨f, hf⟩ := List.exists_mem_of_ne_nil _ hconflicts
      obtain ⟨t, -, id, side, rfl⟩ := Token.mem_conflictsAfter hf
      exact ⟨_, List.mem_append_left _ hf, rfl⟩
  obtain ⟨f, hf, hseverity⟩ := herror
  exact ⟨f, hf, hseverity, exists_token_of_mem_denials hf⟩

end Declaration

end DataDictionary
