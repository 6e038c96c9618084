import DataDictionary.Proofs.Landmarks
import DataDictionary.Proofs.Outcomes
import DataDictionary.Proofs.Readings
import DataDictionary.Proofs.SchemaRules

/-!
# The order of errors

Errors are reported in the order in which they are discovered. That is not the order of their lines.
A bound that conflicts with another one is reported at once, where it stands. That an object is not
terminated only shows when it ends, and is then reported where the object begins, behind whatever
conflicts there are in between.

Each error of a source has a **subject**: a declaration, with the verdict on it, or a field marker
that stands outside of all objects. The errors of a source are those of its subjects, one after the
other (`Source.errors_eq`), and the subjects take up separate stretches of the tokens. So two errors
can only be in the wrong order if they have one subject (`Source.pairwise_errors_iff`), and then
they are a conflict and the report of the declaration that is not terminated
(`Outcome.errors_ordered_iff`).
-/

namespace DataDictionary

/-- Whether a problem is a field marker that stands outside of all objects. -/
def Problem.isStray : Problem → Bool
  | .fieldOutsideObject _ => true
  | _ => false

theorem Problem.IsOfField.isStray {p : Problem} (h : p.IsOfField) : p.isStray = false := by
  cases h <;> rfl

theorem Problem.IsOfEnd.isStray {p : Problem} (h : p.IsOfEnd) : p.isStray = false := by
  cases h <;> rfl

theorem Problem.IsOfDirective.isStray {p : Problem} (h : p.IsOfDirective) : p.isStray = false := by
  cases h <;> rfl

/-- The errors among some findings. -/
def Finding.errors (found : List Finding) : List Finding :=
  found.filter (·.problem.severity == .error)

theorem Finding.errors_append (found more : List Finding) :
    errors (found ++ more) = errors found ++ errors more := List.filter_append _ _

/-! ## Field markers outside of all objects -/

theorem Token.marker?_of_isFileDirective {t : Token} (h : t.isFileDirective = true) :
    t.marker? = none := by
  unfold isFileDirective at h
  split at h
  · next hbody => exact marker?_of_directive hbody
  · cases h

namespace State

variable {s s' : State} {t : Token} {found : List Finding} {f : Finding}

theorem isStray_of_mem_endObject (h : f ∈ s.endObject.2) : f.problem.isStray = false := by
  cases hcur : s.current with
  | none =>
    rw [endObject_of_none hcur] at h
    cases h
  | some o =>
    rw [endObject_of_some hcur] at h
    rcases List.mem_append.mp h with h | h
    · exact (OpenObject.ofField_of_mem_finishField h).isStray
    · exact (ofEnd_of_mem_keep h).isStray

theorem isStray_of_mem_onFileDirective {k : FileKeyword} {name : String} {line : Nat}
    (h : f ∈ (s.onFileDirective k name line).2) : f.problem.isStray = false := by
  unfold onFileDirective at h
  cases k with
  | group | includeFile => exact isStray_of_mem_endObject h
  | removeObject =>
    dsimp only at h
    split at h
    · exact isStray_of_mem_endObject h
    · rcases List.mem_append.mp h with h | h
      · exact isStray_of_mem_endObject h
      · rw [List.mem_singleton.mp h]
        rfl

theorem isStray_strange (s : State) (text : String) : (s.strange text).isStray = false := by
  unfold strange
  split <;> rfl

/-- A directive is no field marker, wherever it stands. -/
theorem isStray_of_directive {text : String} {ending : Option Separator}
    (hbody : t.body = .directive text ending) (h : f ∈ (s.step t).2) :
    f.problem.isStray = false := by
  rw [step_of_directive hbody] at h
  unfold onDirective at h
  dsimp only at h
  split at h
  · rw [List.mem_singleton.mp h]
    exact isStray_strange s text
  · exact isStray_of_mem_onFileDirective h
  · unfold onObjectDirective at h
    split at h
    · cases h
    · obtain ⟨p, hp, rfl⟩ := List.mem_map.mp h
      obtain ⟨what, rfl⟩ := OpenObject.badCount_of_mem_apply hp
      rfl
  · unfold onFieldDirective at h
    split at h
    · cases h
    · split at h
      · cases h
      · obtain ⟨p, hp, rfl⟩ := List.mem_map.mp h
        exact (OpenObject.ofDirective_of_mem_applyToField hp).isStray

/-- **A field marker is outside of all objects exactly if nothing is open.** -/
theorem step_of_stray {id : FieldId} (hs : s.current = none) (hmark : t.marker? = some id) :
    s.step t = (s, [⟨t.line, .fieldOutsideObject id⟩]) := by
  unfold Token.marker? at hmark
  split at hmark
  · next text ending hbody =>
    rw [step_of_content hbody, onContent, hmark]
    dsimp only
    rw [onMarker, hs]
  · cases hmark

theorem isStray_of_mem_step (hopen : s.current = none → t.marker? = none)
    (h : f ∈ (s.step t).2) : f.problem.isStray = false := by
  cases hbody : t.body with
  | content text ending =>
    rw [step_of_content hbody] at h
    unfold onContent at h
    split at h
    · next id hid =>
      unfold onMarker at h
      split at h
      · next hs =>
        have hmark := (Token.marker?_of_content hbody).symm.trans (hopen hs)
        cases hid.symm.trans hmark
      · exact (OpenObject.ofField_of_mem_finishField h).isStray
    · split at h
      · cases h
      · unfold onText at h
        split at h
        · cases h
        · split at h
          · rw [List.mem_singleton.mp h]
            rfl
          · exact isStray_of_mem_endObject h
  | directive text ending => exact isStray_of_directive hbody h
  | comment text =>
    rw [step_of_comment hbody] at h
    cases h

/-- Every error that a move finds speaks against a declaration or is about a stray field marker. -/
theorem Move.isError_eq (hm : Move t s s' found) (hf : f ∈ found) :
    (f.problem.severity == .error) = (f.problem.isStray || f.denies) := by
  obtain ⟨line, p⟩ := f
  rcases hm.found_cases hf with h | h | h | ⟨h, -⟩
  all_goals
    cases h <;> rfl

theorem errors_eq_denials (herror : ∀ f ∈ found,
      (f.problem.severity == .error) = (f.problem.isStray || f.denies))
    (hstray : ∀ f ∈ found, f.problem.isStray = false) :
    Finding.errors found = found.filter (·.denies) := by
  refine List.filter_congr fun f hf => ?_
  rw [herror f hf, hstray f hf, Bool.false_or]

theorem errors_endObject (s : State) :
    Finding.errors s.endObject.2 = s.endObject.2.filter (·.denies) := by
  have hfinish : Move { body := .comment "", line := 0 } s s.endObject.1 s.endObject.2 := .finish s
  exact errors_eq_denials (fun _ hf => hfinish.isError_eq hf) fun _ hf =>
    isStray_of_mem_endObject hf

theorem errors_step (hopen : s.current = none → t.marker? = none) :
    Finding.errors (s.step t).2 = (s.step t).2.filter (·.denies) :=
  errors_eq_denials ((moves_step t s).found fun hm _ hf => hm.isError_eq hf) fun _ hf =>
    isStray_of_mem_step hopen hf

end State

/-! ## What errors are about -/

open Declaration in
/-- What an error is about. -/
inductive Subject where
  | declaration (judged : Declaration × Verdict)
  /-- A field marker outside of all objects. -/
  | marker (t : Token) (id : FieldId)

namespace Subject

open Declaration

def tokens : Subject → List Token
  | declaration p => p.1.tokens
  | marker t _ => [t]

def errors : Subject → List Finding
  | declaration p => p.1.denials p.2
  | marker t id => [⟨t.line, .fieldOutsideObject id⟩]

/-- The field marker that a token is, if nothing is open in front of it. -/
def strays (current : Option Declaration) (t : Token) : List Subject :=
  if current = none then (t.marker?.map (marker t)).toList else []

/-- What the errors of some tokens are about, if `current` is open in front of them and `survivors`
have been kept. -/
def along (survivors : List Declaration) (current : Option Declaration) :
    List Token → List Subject
  | [] => (judge survivors current.toList).map declaration
  | t :: ts =>
    strays current t ++ (judge survivors (next current t).1).map declaration ++
      along (survivors ++ keptOf (judge survivors (next current t).1)) (next current t).2 ts

/-- The subjects of the errors of a text. -/
def ofText (text : String) : List Subject :=
  along [] none ((Token.ofText text).filter (!·.isComment))

variable {survivors : List Declaration} {current : Option Declaration} {ts : List Token}
  {p : Declaration × Verdict}

theorem errors_of_judged (judged : List (Declaration × Verdict)) :
    (judged.map declaration).flatMap errors = judged.flatMap fun p => p.1.denials p.2 := by
  rw [List.flatMap_map]
  rfl

/-- The declarations among the subjects are all declarations there are. -/
theorem declaration_mem_along_iff :
    declaration p ∈ along survivors current ts ↔ p ∈ judge survivors (cut current ts) := by
  have hinjective : Function.Injective declaration := fun _ _ h => declaration.inj h
  induction ts generalizing survivors current with
  | nil => exact List.mem_map_of_injective hinjective
  | cons t ts ih =>
    have hstray : declaration p ∉ strays current t := by
      unfold strays
      split
      · intro h
        obtain ⟨id, -, hid⟩ := Option.map_eq_some_iff.mp (Option.mem_toList.mp h)
        cases hid
      · exact List.not_mem_nil
    rw [along, cut, judge_append, List.mem_append, List.mem_append, List.mem_append,
      or_iff_right hstray, List.mem_map_of_injective hinjective]
    exact or_congr_right ih

theorem strays_of_none {t : Token} (h : t.marker? = none) (current : Option Declaration) :
    strays current t = [] := by
  rw [strays, h]
  exact ite_self _

/-- A token stays in the declaration that is open, or it is the subject itself. -/
theorem tokens_next_sublist (current : Option Declaration) (t : Token) :
    ((strays current t).flatMap tokens ++
      ((next current t).1.flatMap Declaration.tokens ++
        (next current t).2.elim [] Declaration.tokens)).Sublist
      (current.elim [] Declaration.tokens ++ [t]) := by
  cases hfile : t.isFileDirective with
  | true =>
    rw [next_of_fileDirective hfile, strays_of_none (Token.marker?_of_isFileDirective hfile)]
    cases current <;> simp
  | false =>
    cases hname : t.name? with
    | none =>
      rw [next_of_name?_eq_none hfile hname]
      cases current with
      | none => cases hmark : t.marker? <;> simp [strays, hmark, tokens]
      | some d => simp [strays, Declaration.tokens, Declaration.add]
    | some name =>
      rw [next_of_name? hfile hname, strays_of_none (Token.marker?_of_name? hname)]
      cases current with
      | none => simp [Declaration.tokens]
      | some d =>
        rw [Option.all_some]
        split <;> simp [Declaration.tokens, Declaration.add]

/-- **The subjects take up separate stretches of the tokens.** -/
theorem tokens_along_sublist (survivors : List Declaration) (current : Option Declaration)
    (ts : List Token) :
    ((along survivors current ts).flatMap tokens).Sublist
      (current.elim [] Declaration.tokens ++ ts) := by
  have hjudged : ∀ (survivors ds : List Declaration),
      ((judge survivors ds).map declaration).flatMap tokens = ds.flatMap Declaration.tokens := by
    intro survivors ds
    rw [List.flatMap_map, ← map_fst_judge survivors ds, List.flatMap_map, map_fst_judge]
    rfl
  induction ts generalizing survivors current with
  | nil =>
    rw [along, hjudged]
    cases current <;> simp
  | cons t ts ih =>
    let judged := judge survivors (next current t).1
    have hhead := (tokens_next_sublist current t).append_right ts
    have htail := (ih (survivors ++ keptOf judged) (next current t).2).append_left
      ((strays current t).flatMap tokens ++ (next current t).1.flatMap Declaration.tokens)
    rw [along, List.flatMap_append, List.flatMap_append, hjudged]
    simp only [List.append_assoc, List.singleton_append] at hhead htail ⊢
    exact htail.trans hhead

end Subject

namespace State

open Declaration

variable {s : State} {survivors : List Declaration} {current : Option Declaration} {t : Token}

/-- The errors of a step are about a stray field marker or speak against declarations. -/
theorem Tracks.errors_step (h : s.Tracks survivors current) (ht : t.isComment = false) :
    pending current ++ Finding.errors (s.step t).2 =
      (Subject.strays current t).flatMap Subject.errors ++
        (((judge survivors (next current t).1).flatMap fun p => p.1.denials p.2) ++
          pending (next current t).2) := by
  have hdenials := (step_advances h ht).findings
  have hquiet : (s.current = none → t.marker? = none) → Subject.strays current t = [] →
      pending current ++ Finding.errors (s.step t).2 =
        (Subject.strays current t).flatMap Subject.errors ++
          (((judge survivors (next current t).1).flatMap fun p => p.1.denials p.2) ++
            pending (next current t).2) := by
    intro hopen hstrays
    rw [State.errors_step hopen, hdenials, hstrays]
    rfl
  rcases h.open_cases with ⟨hs, rfl⟩ | ⟨o, d, hs, rfl, -⟩
  · cases hmark : t.marker? with
    | none => exact hquiet (fun _ => hmark) (Subject.strays_of_none hmark none)
    | some id =>
      -- the marker is reported, and all stays as it is
      have hstep := step_of_stray hs hmark
      rw [hstep] at hdenials ⊢
      rw [← hdenials, Subject.strays, if_pos rfl, hmark]
      rfl
  · have hopen : s.current = none → t.marker? = none := by
      intro hnone
      cases hs.symm.trans hnone
    exact hquiet hopen (if_neg (Option.some_ne_none d))

/-- **The errors of a run are those of its subjects.** -/
theorem Tracks.errors_run (h : s.Tracks survivors current) {ts : List Token}
    (hts : ∀ t ∈ ts, t.isComment = false) :
    pending current ++ Finding.errors ((s.run ts).2 ++ (s.run ts).1.endObject.2) =
      (Subject.along survivors current ts).flatMap Subject.errors := by
  induction ts generalizing s survivors current with
  | nil =>
    have hdenials := (advances_endObject h).findings
    rw [Subject.along, Subject.errors_of_judged, run, List.nil_append, errors_endObject, hdenials]
    exact List.append_nil _
  | cons t ts ih =>
    have hstep := h.errors_step (hts t (by simp))
    have hrest := ih (step_advances h (hts t (by simp))).tracks
      fun u hu => hts u (List.mem_cons_of_mem _ hu)
    rw [run_cons, Subject.along, List.append_assoc, Finding.errors_append, ← List.append_assoc,
      hstep, List.flatMap_append, List.flatMap_append, Subject.errors_of_judged, ← hrest]
    simp only [List.append_assoc]

end State

/-- **The errors of a source are those of its subjects.** -/
theorem Source.errors_eq (text : String) :
    Finding.errors (ofText text).findings = (Subject.ofText text).flatMap Subject.errors := by
  have hinit : ({} : State).Tracks [] none := ⟨rfl, .none⟩
  have hcontent : ∀ t ∈ (Token.ofText text).filter (!·.isComment), t.isComment = false :=
    fun t ht => by simpa using (List.mem_filter.mp ht).2
  have herrors := hinit.errors_run hcontent
  rw [State.run_filter_comments] at herrors
  exact herrors

/-! ## Their order -/

/-- Tokens stand in the order of their lines. -/
theorem Token.pairwise_line (text : String) :
    ((ofText text).filter (!·.isComment)).Pairwise fun t u => t.line ≤ u.line := by
  have hbefore : (ofText text).Pairwise IsBefore := (pairwise_ofLines 1 _).2
  exact (hbefore.imp fun h => h.line_le).sublist List.filter_sublist

/-- Each conflict is found where its token stands, so conflicts come in the order of the tokens. -/
theorem Token.lines_conflictsAfter_sublist (before ts : List Token) :
    ((conflictsAfter before ts).map (·.line)).Sublist (ts.map (·.line)) := by
  induction ts generalizing before with
  | nil => exact .slnil
  | cons t ts ih =>
    rw [conflictsAfter, List.map_append, List.map_cons]
    cases hconflict : conflict? before t with
    | none => exact (ih (before ++ [t])).cons _
    | some f =>
      have hmem : f ∈ conflictsAfter before [t] := by simp [conflictsAfter, hconflict]
      obtain ⟨u, hu, id, side, rfl⟩ := mem_conflictsAfter hmem
      rw [List.mem_singleton.mp hu]
      exact (ih (before ++ [t])).cons_cons _

namespace Declaration

variable {survivors : List Declaration} {d : Declaration}

theorem pairwise_conflicts (hlines : d.rest.Pairwise fun t u => t.line ≤ u.line) :
    d.conflicts.Pairwise fun x y => x.line ≤ y.line := by
  have hmap := (List.pairwise_map.mpr hlines).sublist (Token.lines_conflictsAfter_sublist [] d.rest)
  exact List.pairwise_map.mp hmap

/-- What stands against a declaration is in order, apart from the conflicts in front of the report
that it is not terminated. -/
theorem pairwise_denials_iff {R : Finding → Finding → Prop} (hR : ∀ x y, x.line ≤ y.line → R x y)
    (hlines : d.rest.Pairwise fun t u => t.line ≤ u.line) :
    (d.denials (verdict survivors d)).Pairwise R ↔
      (verdict survivors d = .unterminated →
        ∀ c ∈ d.conflicts, R c ⟨d.opening.line, .unterminated d.name⟩) := by
  have hconflicts : d.conflicts.Pairwise R := (pairwise_conflicts hlines).imp (hR _ _)
  unfold denials
  cases hv : verdict survivors d with
  | kept | conflicting =>
    rw [List.append_nil]
    exact iff_of_true hconflicts fun h => (by cases h)
  | repeated =>
    rw [conflicts_eq_nil_of_verdict (.inr hv)]
    exact iff_of_true (List.pairwise_singleton _ _) fun h => (by cases h)
  | unterminated =>
    rw [List.pairwise_append]
    constructor
    · intro ⟨_, _, hcross⟩ _ c hc
      exact hcross c hc _ (List.mem_singleton_self _)
    · intro hend
      refine ⟨hconflicts, List.pairwise_singleton _ _, fun c hc e he => ?_⟩
      rw [List.mem_singleton.mp he]
      exact hend rfl c hc

end Declaration

/-- The errors of a subject are on lines of its tokens. -/
theorem Subject.exists_token_of_mem_errors {x : Subject} {f : Finding} (h : f ∈ x.errors) :
    ∃ t ∈ x.tokens, f.line = t.line := by
  cases x with
  | marker t id =>
    rw [List.mem_singleton.mp h]
    exact ⟨t, List.mem_singleton_self t, rfl⟩
  | declaration p => exact Declaration.exists_token_of_mem_denials h

/-- **Where errors of a source are in order.** Errors of different subjects always are. -/
theorem Source.pairwise_errors_iff {R : Finding → Finding → Prop}
    (hR : ∀ x y, x.line ≤ y.line → R x y) (text : String) :
    (Finding.errors (ofText text).findings).Pairwise R ↔
      ∀ d, (d, .unterminated) ∈ Declaration.ofText text →
        ∀ c ∈ d.conflicts, R c ⟨d.opening.line, .unterminated d.name⟩ := by
  have htokens : ((Subject.ofText text).flatMap Subject.tokens).Pairwise
      fun t u => t.line ≤ u.line :=
    (Token.pairwise_line text).sublist (Subject.tokens_along_sublist [] none _)
  obtain ⟨hwithin, hacross⟩ := List.pairwise_flatMap.mp htokens
  have hcross : (Subject.ofText text).Pairwise
      fun a b => ∀ x ∈ a.errors, ∀ y ∈ b.errors, R x y := by
    refine hacross.imp fun {a b} hlines x hx y hy => hR x y ?_
    obtain ⟨t, ht, hxline⟩ := Subject.exists_token_of_mem_errors hx
    obtain ⟨u, hu, hyline⟩ := Subject.exists_token_of_mem_errors hy
    rw [hxline, hyline]
    exact hlines t ht u hu
  have hmem : ∀ {p}, .declaration p ∈ Subject.ofText text ↔ p ∈ Declaration.ofText text :=
    Subject.declaration_mem_along_iff
  have hdenials : ∀ {d v}, (d, v) ∈ Declaration.ofText text →
      ((d.denials v).Pairwise R ↔ (v = .unterminated →
        ∀ c ∈ d.conflicts, R c ⟨d.opening.line, .unterminated d.name⟩)) := by
    intro d v hd
    obtain ⟨before, hv⟩ : ∃ before, v = Declaration.verdict before d :=
      Declaration.exists_verdict_of_mem_judge hd
    have hlines := hwithin _ (hmem.mpr hd)
    rw [hv]
    exact Declaration.pairwise_denials_iff hR (List.pairwise_cons.mp hlines).2
  rw [errors_eq, List.pairwise_flatMap, and_iff_left hcross]
  constructor
  · intro h d hd
    exact (hdenials hd).mp (h _ (hmem.mpr hd)) rfl
  · intro h x hx
    cases x with
    | marker t id => exact List.pairwise_singleton _ _
    | declaration p =>
      obtain ⟨d, v⟩ := p
      have hd := hmem.mp hx
      refine (hdenials hd).mpr fun hv => ?_
      subst hv
      exact h d hd

/-! ## Outcomes -/

namespace Outcome

/-- Whether nothing is included: inclusions are not followed, there is nothing to follow them with,
or there are none. -/
def IncludesNothing (settings : Settings) (loader : Option Loader) (text : String) : Prop :=
  settings.resolveIncludes = false ∨ loader = none ∨
    ∀ d, .inclusion d ∉ (Source.ofText text).items

variable {settings : Settings} {loader : Option Loader} {text : String}

/-- An inclusion that is not even attempted is no error. -/
theorem IncludesNothing.no_errors (h : IncludesNothing settings loader text) {label : Option String}
    {chain own taken : List String} {item : Item} {part : Contribution}
    (hitem : item ∈ (Source.ofText text).items)
    (hcontributes : (Resolver.mk loader settings).Contributes label chain own taken item part) :
    part.diagnostics.errors = [] := by
  have hattempted : ∀ d, .inclusion d ∈ (Source.ofText text).items →
      settings.resolveIncludes = true → ∀ load, loader = some load → False := by
    intro d hd henabled load hloader
    rcases h with hdisabled | hnone | hitems
    · cases hdisabled.symm.trans henabled
    · cases hnone.symm.trans hloader
    · exact hitems d hd
  cases hcontributes with
  | object _ _ | group _ => rfl
  | @followed d _ hfollows =>
    obtain ⟨load, hloader, -⟩ := hfollows.loads
    exact (hattempted d hitem hfollows.enabled load hloader).elim
  | @refused d p hrefuses =>
    cases hrefuses with
    | disabled _ | noLoader _ _ => rfl
    | cycle henabled hloader _ | tooDeep henabled hloader _ _ | unloadable henabled hloader _ _ _ =>
      exact (hattempted d hitem henabled _ hloader).elim

/-- Where nothing is included, the errors are those of the source. -/
theorem errors_diagnostics (h : IncludesNothing settings loader text) :
    (ofText settings loader text).diagnostics.errors =
      (Finding.errors (Source.ofText text).findings).map (·.report settings.sourceName) := by
  have hchecks : Diagnostics.errors ((definitions settings loader text).flatMap Definition.check) =
      [] := by
    refine List.filter_eq_nil_iff.mpr fun x hx => ?_
    obtain ⟨y, -, hx⟩ := List.mem_flatMap.mp hx
    obtain ⟨p, hp, rfl⟩ := List.mem_map.mp hx
    have hwarning := Object.severity_of_mem_problems hp
    simp [Diagnostic.isError, Problem.report, hwarning]
  obtain ⟨parts, hparts, -, hdiagnostics⟩ := (Resolver.mk loader settings).expand_contributions
    settings.sourceName [settings.sourceName.getD anonymous] (Source.ofText text)
  have hincluded : (parts.flatMap (·.diagnostics)).filter (·.isError) = [] := by
    rw [List.filter_flatMap, List.flatMap_eq_nil_iff]
    intro part hpart
    obtain ⟨item, hitem, taken, hcontributes⟩ := hparts.exists_of_mem hpart
    exact h.no_errors hitem hcontributes
  rw [diagnostics_eq, Diagnostics.errors, List.filter_append, merged, hdiagnostics,
    List.filter_append, hincluded, List.filter_map]
  exact (congrArg _ hchecks).trans ((List.append_nil _).trans (List.append_nil _))

/-- **The order of errors.** Where nothing is included, errors that stand in the wrong order are a
conflict of bounds and the report of an object that is not terminated. The lines of all errors
increase if and only if no declaration that is not terminated has a conflict below its name. -/
theorem errors_ordered_iff {found : Diagnostics} (h : IncludesNothing settings loader text)
    (hstrict : (ofText settings loader text).strict = .error (.malformed found)) :
    found = (ofText settings loader text).diagnostics.errors ∧
      found.Pairwise (fun x y => x.location.line ≤ y.location.line ∨
        x.kind = .conflictingBounds ∧ y.kind = .unterminatedObject) ∧
      (found.Pairwise (fun x y => x.location.line ≤ y.location.line) ↔
        ∀ d, (d, .unterminated) ∈ Declaration.ofText text →
          ∀ c ∈ d.conflicts, c.line ≤ d.opening.line) := by
  have hfound : found = (ofText settings loader text).diagnostics.errors := by
    unfold strict accept at hstrict
    split at hstrict
    · cases hstrict
    · cases hstrict
      rfl
  refine ⟨hfound, ?_⟩
  rw [hfound, errors_diagnostics h, List.pairwise_map, List.pairwise_map]
  refine ⟨?_, Source.pairwise_errors_iff (fun _ _ hle => hle) text⟩
  refine (Source.pairwise_errors_iff (fun _ _ hle => .inl hle) text).mpr fun d _ c hc => ?_
  obtain ⟨t, -, id, side, rfl⟩ := Token.mem_conflictsAfter hc
  exact .inr ⟨rfl, rfl⟩

theorem strict_of_errors {o : Outcome} (h : o.diagnostics.errors ≠ []) :
    o.strict = .error (.malformed o.diagnostics.errors) := if_neg h

/-- A declaration that is not terminated may have a conflict on the line of its name. -/
theorem errors_ordered :
    let text := "A1;\nZone, N1, \\minimum 0 \\minimum> 0\nWall,\nN1;\n\\maximum 0\n\\maximum< 0\n"
    IncludesNothing {} none text ∧
      ∃ found, (ofText {} none text).strict = .error (.malformed found) ∧
        found.map (fun x => (x.kind, x.location.line)) = [(.fieldOutsideObject, 1),
          (.conflictingBounds, 2), (.unterminatedObject, 2), (.conflictingBounds, 6)] ∧
        found.Pairwise (fun x y => x.location.line ≤ y.location.line) := by
  intro text
  have hnone : IncludesNothing {} none text := .inr (.inl rfl)
  have hfacts : (ofText {} none text).diagnostics.errors.map
        (fun x => (x.kind, x.location.line)) = [(.fieldOutsideObject, 1),
          (.conflictingBounds, 2), (.unterminatedObject, 2), (.conflictingBounds, 6)] ∧
      ∀ p ∈ Declaration.ofText text, p.2 = .unterminated →
        ∀ c ∈ p.1.conflicts, c.line ≤ p.1.opening.line := by decide +kernel
  obtain ⟨hlines, hconflicts⟩ := hfacts
  have hstrict := strict_of_errors (o := ofText {} none text) fun hnil => by
    rw [hnil] at hlines
    cases hlines
  obtain ⟨-, -, hordered⟩ := errors_ordered_iff hnone hstrict
  exact ⟨hnone, _, hstrict, hlines, hordered.mpr fun d hd => hconflicts (d, .unterminated) hd rfl⟩

/-- The report that an object is not terminated comes behind a conflict on a later line. -/
theorem errors_disordered :
    let text := "Zone,\nN1,\n\\minimum 0\n\\minimum> 0\n"
    ∃ found, (ofText {} none text).strict = .error (.malformed found) ∧
      found.map (fun x => (x.kind, x.location.line)) =
        [(.conflictingBounds, 4), (.unterminatedObject, 1)] ∧
      ¬ found.Pairwise (fun x y => x.location.line ≤ y.location.line) := by
  intro text
  have hfacts : (ofText {} none text).diagnostics.errors.map
        (fun x => (x.kind, x.location.line)) =
        [(.conflictingBounds, 4), (.unterminatedObject, 1)] ∧
      ¬ (ofText {} none text).diagnostics.errors.Pairwise
        (fun x y => x.location.line ≤ y.location.line) := by decide +kernel
  obtain ⟨hlines, hdisordered⟩ := hfacts
  refine ⟨_, strict_of_errors fun hnil => ?_, hlines, hdisordered⟩
  rw [hnil] at hlines
  cases hlines

end Outcome

end DataDictionary
