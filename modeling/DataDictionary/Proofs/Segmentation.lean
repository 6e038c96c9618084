import DataDictionary.Proofs.Invariants
import DataDictionary.Proofs.Tracking

/-!
# Objects are exactly the declarations that survive

The reader keeps an object that it builds up and edits, with a flag that is set, and reset, by
semicolons. A declaration is a stretch of the token list. `Advances` says what a stretch of reading
brings: some declarations come to their end, those that survive become items, and everything that
speaks against one of them is among the findings, in order.

One step advances by what `Declaration.next` says (`step_advances`); so a whole source advances by
what `Declaration.cut` says, and at its end there is nothing open and nothing left over.
-/

namespace DataDictionary

/-- The name, the line and the fields of an item that is an object. -/
def Item.summary? : Item → Option (String × Nat × List FieldId)
  | .object o line => some (o.name, line, o.fields.map (·.id))
  | _ => none

/-- The name, the line and the fields that a declaration gives its object. -/
def Declaration.summary (d : Declaration) : String × Nat × List FieldId :=
  (d.name, d.opening.line, d.markers)

/-- What has been found so far against a declaration that is still open. -/
def Declaration.pending (current : Option Declaration) : List Finding :=
  current.elim [] Declaration.conflicts

namespace State

open Declaration

/-- The reader has kept the survivors and is reading the declaration that is open. -/
structure Tracks (s : State) (survivors : List Declaration) (current : Option Declaration) :
    Prop where
  keys : s.keys = survivors.map Declaration.key
  current : Option.Rel OpenObject.Tracks s.current current

/-- Either nothing is open on both sides, or an object that tracks the declaration. -/
theorem Tracks.open_cases {s : State} {survivors : List Declaration} {current : Option Declaration}
    (h : s.Tracks survivors current) :
    (s.current = none ∧ current = none) ∨
      ∃ o d, s.current = some o ∧ current = some d ∧ o.Tracks d := by
  have hcur := h.current
  cases hs : s.current with
  | none =>
    rw [hs] at hcur
    cases hcur
    exact .inl ⟨rfl, rfl⟩
  | some o =>
    rw [hs] at hcur
    cases hcur with
    | some ho => exact .inr ⟨o, _, rfl, rfl, ho⟩

/-- The reader has gone from `s` to `s'`, and with it the declarations `done` have ended. -/
structure Advances (s s' : State) (found : List Finding) (survivors : List Declaration)
    (current current' : Option Declaration) (done : List Declaration) : Prop where
  tracks : s'.Tracks (survivors ++ keptOf (judge survivors done)) current'
  /-- What survives is kept, in order. -/
  items : s'.items.filterMap Item.summary? =
    s.items.filterMap Item.summary? ++ (keptOf (judge survivors done)).map Declaration.summary
  /-- What is found against a declaration is what its verdict says. -/
  findings : pending current ++ found.filter (·.denies) =
    ((judge survivors done).flatMap fun p => p.1.denials p.2) ++ pending current'

variable {s s' s'' : State} {found more : List Finding} {survivors done done' : List Declaration}
  {current current' current'' : Option Declaration} {t : Token}

/-- Reading on advances by one stretch after the other. -/
theorem Advances.trans (h : Advances s s' found survivors current current' done)
    (h' : Advances s' s'' more (survivors ++ keptOf (judge survivors done)) current' current''
      done') :
    Advances s s'' (found ++ more) survivors current current'' (done ++ done') where
  tracks := by
    have ht := h'.tracks
    rwa [List.append_assoc, ← keptOf_append, ← judge_append] at ht
  items := by
    rw [h'.items, h.items, judge_append, keptOf_append, List.map_append, List.append_assoc]
  findings := by
    rw [List.filter_append, ← List.append_assoc, h.findings, List.append_assoc, h'.findings,
      judge_append, List.flatMap_append, List.append_assoc]

/-- A stretch in which no declaration ends. -/
theorem Advances.of_tracks (htracks : s'.Tracks survivors current')
    (hitems : s'.items.filterMap Item.summary? = s.items.filterMap Item.summary?)
    (hfound : pending current ++ found.filter (·.denies) = pending current') :
    Advances s s' found survivors current current' [] where
  tracks := by simpa [judge, keptOf] using htracks
  items := by simpa [judge, keptOf] using hitems
  findings := by simpa [judge] using hfound

/-- A declaration that is dropped leaves nothing but what was found against it. -/
theorem advances_dropped {d : Declaration} (h : s.Tracks survivors current)
    (hv : verdict survivors d ≠ .kept)
    (hfound : d.conflicts ++ found.filter (·.denies) = d.denials (verdict survivors d)) :
    Advances s { s with current := none } found survivors (some d) none [d] where
  tracks := by
    refine ⟨?_, .none⟩
    simp [judge, keptOf, hv, h.keys]
  items := by simp [judge, keptOf, hv]
  findings := by simpa [judge, pending] using hfound

/-- A declaration that survives becomes the last object. -/
theorem advances_kept {d : Declaration} {o : Object} (h : s.Tracks survivors current)
    (hv : verdict survivors d = .kept) (hname : o.name = d.name)
    (hfields : o.fields.map (·.id) = d.markers) (hfound : found.filter (·.denies) = []) :
    Advances s
      { s with
        current := none
        items := s.items ++ [.object o d.opening.line]
        keys := s.keys ++ [Text.lookupKey o.name] }
      found survivors (some d) none [d] where
  tracks := by
    refine ⟨?_, .none⟩
    simp [judge, keptOf, hv, h.keys, hname, Declaration.key]
  items := by simp [judge, keptOf, hv, Item.summary?, Declaration.summary, hname, hfields]
  findings := by
    rw [hfound]
    simp [judge, hv, pending, denials]

/-- **The end of an object is the verdict on its declaration.** -/
theorem advances_endObject (h : s.Tracks survivors current) :
    Advances s s.endObject.1 s.endObject.2 survivors current none current.toList := by
  rcases h.open_cases with ⟨hs, rfl⟩ | ⟨o, d, hs, rfl, ho⟩
  · rw [endObject_of_none hs]
    exact .of_tracks h rfl rfl
  · obtain ⟨hname, hline, hclosed, hfailed, hfields⟩ := ho.finishField
    have hquiet : o.finishField.2.filter (·.denies) = [] :=
      Finding.filter_denies_of_warning fun f hf => OpenObject.severity_of_mem_finishField hf
    have hkey : Text.lookupKey o.finishField.1.object.name ∈ s.keys ↔
        ∃ e ∈ survivors, e.key = d.key := by
      rw [h.keys, List.mem_map, hname]
      rfl
    have hconflicts : o.finishField.1.failed = false → d.conflicts = [] := by
      intro hf
      simpa [hf] using hfailed
    rw [endObject_of_some hs]
    -- the reader looks at the same things as the verdict, and in the same order
    rcases keep_cases { s with current := none } o.finishField.1 with
      ⟨hc, hk⟩ | ⟨hc, hf, hk⟩ | ⟨hc, hf, hin, hk⟩ | ⟨hc, hf, hin, hk⟩
    · -- the semicolon is missing
      have hv : verdict survivors d = .unterminated :=
        verdict_of_unterminated (hclosed.symm.trans hc)
      rw [hk]
      refine advances_dropped h (by rw [hv]; decide) ?_
      rw [hv, List.filter_append, hquiet, hname, hline]
      rfl
    · -- a conflict was reported on the way, so there is nothing to say at the end
      have hv : verdict survivors d = .conflicting := by
        refine verdict_of_conflicts (hclosed.symm.trans hc) fun hnil => ?_
        rw [hfailed, hnil] at hf
        cases hf
      rw [hk]
      refine advances_dropped h (by rw [hv]; decide) ?_
      rw [hv, List.append_nil, hquiet]
      rfl
    · -- an earlier object has the key
      have hv : verdict survivors d = .repeated :=
        verdict_of_known (hclosed.symm.trans hc) (hconflicts hf) (hkey.mp hin)
      rw [hk]
      refine advances_dropped h (by rw [hv]; decide) ?_
      rw [hv, List.filter_append, hquiet, hname, hline]
      rfl
    · have hv : verdict survivors d = .kept :=
        verdict_of_new (hclosed.symm.trans hc) (hconflicts hf) (mt hkey.mpr hin)
      rw [hk, hline, List.append_nil]
      exact advances_kept h hv hname hfields hquiet

/-! ### One step -/

/-- An edit of the open object adds a token to its declaration. -/
theorem advances_edit {o' : OpenObject} {d : Declaration} (h : s.Tracks survivors (some d))
    (ho : o'.Tracks (d.add t))
    (hfound : found.filter (·.denies) = (Token.conflict? d.rest t).toList) :
    Advances s { s with current := some o' } found survivors (some d) (some (d.add t)) [] := by
  refine .of_tracks ⟨h.keys, .some ho⟩ rfl ?_
  rw [hfound]
  exact (add_conflicts d t).symm

/-- A token that only closes what is open. -/
theorem advances_closeIf {ending : Option Separator} (h : s.Tracks survivors current)
    (hends : t.closes = (ending == some .semicolon)) (hmark : t.marker? = none)
    (hbound : ∀ o f, s.current = some o → o.field = some f → t.bound? = none)
    (hfound : found.filter (·.denies) = []) :
    Advances s (s.closeIf ending) found survivors current (current.map (·.add t)) [] := by
  rcases h.open_cases with ⟨hs, rfl⟩ | ⟨o, d, hs, rfl, ho⟩
  · rw [closeIf_of_none hs]
    exact .of_tracks h rfl hfound
  · have hnone : o.field = none ∨ t.bound? = none := by
      cases hf : o.field with
      | none => exact .inl rfl
      | some f => exact .inr (hbound o f hs hf)
    obtain ⟨hadd, hno⟩ : (o.closeIf ending).Tracks (d.add t) ∧ Token.conflict? d.rest t = none :=
      ho.add_plain hmark hnone rfl rfl rfl rfl (OpenObject.closed_closeIf o hends) rfl
    rw [closeIf_of_some hs]
    exact advances_edit h hadd (by rw [hfound, hno]; rfl)

theorem advances_startObject {text : String} {ending : Option Separator}
    (h : s.Tracks survivors none) (hbody : t.body = .content text ending) :
    Advances s (s.startObject text ending t.line) [] survivors none (some ⟨text, t, []⟩) [] := by
  rw [startObject, ← Token.closes_of_content hbody]
  exact .of_tracks ⟨h.keys, .some (OpenObject.tracks_start text s.group t)⟩ rfl rfl

theorem advances_onMarker {text : String} {ending : Option Separator} {id : FieldId}
    (h : s.Tracks survivors current) (hbody : t.body = .content text ending)
    (hid : FieldId.parse? text = some id) :
    Advances s (s.onMarker id ending t.line).1 (s.onMarker id ending t.line).2 survivors current
      (current.map (·.add t)) [] := by
  unfold onMarker
  rcases h.open_cases with ⟨hs, rfl⟩ | ⟨o, d, hs, rfl, ho⟩
  · rw [hs]
    exact .of_tracks h rfl rfl
  · rw [hs]
    obtain ⟨hadd, hno⟩ := ho.add_marker hbody hid
    refine advances_edit h hadd ?_
    rw [hno]
    exact Finding.filter_denies_of_warning fun f hf => OpenObject.severity_of_mem_finishField hf

theorem advances_onText {text : String} {ending : Option Separator}
    (h : s.Tracks survivors current) (hbody : t.body = .content text ending)
    (hname : t.name? = some text) :
    Advances s (s.onText text ending t.line).1 (s.onText text ending t.line).2 survivors current
      (next current t).2 (next current t).1 := by
  rw [next_of_name? (Token.isFileDirective_of_content hbody) hname]
  unfold onText
  rcases h.open_cases with ⟨hs, rfl⟩ | ⟨o, d, hs, rfl, ho⟩
  · rw [hs]
    exact advances_startObject h hbody
  · rw [hs, Option.all_some, ho.mayEnd]
    dsimp only
    by_cases hstray : (o.field.isNone && !o.closed) = true
    · -- text in a header that is not closed is commentary
      rw [if_pos hstray, hstray, if_neg (by decide)]
      exact advances_closeIf h (Token.closes_of_content hbody) (Token.marker?_of_name? hname)
        (fun _ _ _ _ => Token.bound?_of_content hbody) rfl
    · -- the declaration ends here, and the text opens the next one
      have hend := advances_endObject h
      rw [if_neg hstray, Bool.eq_false_iff.mpr hstray, if_pos (by decide)]
      have hstart := hend.trans (advances_startObject hend.tracks hbody)
      rwa [List.append_nil, List.append_nil] at hstart

theorem advances_onContent {text : String} {ending : Option Separator}
    (h : s.Tracks survivors current) (hbody : t.body = .content text ending) :
    Advances s (s.onContent text ending t.line).1 (s.onContent text ending t.line).2 survivors
      current (next current t).2 (next current t).1 := by
  have hfile := Token.isFileDirective_of_content hbody
  unfold onContent
  cases hid : FieldId.parse? text with
  | some id =>
    have hname : t.name? = none := Token.name?_eq_none_of_content hbody (.inr (by simp [hid]))
    rw [next_of_name?_eq_none hfile hname]
    exact advances_onMarker h hbody hid
  | none =>
    dsimp only
    by_cases htext : text = ""
    · -- without any text it only closes what is open
      rw [if_pos htext,
        next_of_name?_eq_none hfile (Token.name?_eq_none_of_content hbody (.inl htext))]
      exact advances_closeIf h (Token.closes_of_content hbody)
        ((Token.marker?_of_content hbody).trans hid)
        (fun _ _ _ _ => Token.bound?_of_content hbody) rfl
    · rw [if_neg htext]
      exact advances_onText h hbody (Token.name?_of_content hbody htext hid)

/-- What a directive of the file says once the object is ended concerns its items alone. -/
theorem advances_behind_endObject (h : s.Tracks survivors current)
    (hkeys : s''.keys = s.endObject.1.keys) (hnone : s''.current = none)
    (hitems : s''.items.filterMap Item.summary? = s.endObject.1.items.filterMap Item.summary?)
    (hmore : more.filter (·.denies) = []) :
    Advances s s'' (s.endObject.2 ++ more) survivors current none current.toList := by
  have hend := advances_endObject h
  have htracks : s''.Tracks (survivors ++ keptOf (judge survivors current.toList)) none :=
    ⟨hkeys.trans hend.tracks.keys, by rw [hnone]; exact .none⟩
  have hall := hend.trans (.of_tracks htracks hitems hmore)
  rwa [List.append_nil] at hall

/-- A directive of the file ends the declaration and declares no object. -/
theorem advances_onFileDirective (k : FileKeyword) (name : String) (line : Nat)
    (h : s.Tracks survivors current) :
    Advances s (s.onFileDirective k name line).1 (s.onFileDirective k name line).2 survivors
      current none current.toList ∧ (s.onFileDirective k name line).1.current = none := by
  have hcur := endObject_current s
  unfold onFileDirective
  cases k with
  | group =>
    refine ⟨?_, hcur⟩
    rw [← List.append_nil s.endObject.2]
    exact advances_behind_endObject h rfl hcur (by simp [Item.summary?]) rfl
  | includeFile =>
    refine ⟨?_, hcur⟩
    rw [← List.append_nil s.endObject.2]
    exact advances_behind_endObject h rfl hcur (by simp [Item.summary?]) rfl
  | removeObject =>
    dsimp only
    split
    · next items hitems =>
      obtain ⟨-, hitems⟩ := Option.ite_none_right_eq_some.mp hitems
      refine ⟨?_, hcur⟩
      rw [← List.append_nil s.endObject.2]
      have hsame := filterMap_removeFromLast (g := Item.summary?) (fun _ => rfl) hitems
      exact advances_behind_endObject h rfl hcur hsame rfl
    · exact ⟨advances_behind_endObject h rfl hcur rfl rfl, hcur⟩

theorem denies_of_isRemark {p : Problem} (h : p.IsRemark) (line : Nat) :
    Finding.denies ⟨line, p⟩ = false := by
  cases h <;> rfl

/-- A directive that is not one of the file belongs to what is open. -/
theorem advances_scoped {text : String} {ending : Option Separator}
    (h : s.Tracks survivors current) (hbody : t.body = .directive text ending)
    (hfile : Directive.classify? .file text = none) :
    Advances s ((s.onDirective text t.line).1.closeIf ending) (s.onDirective text t.line).2
      survivors current (current.map (·.add t)) [] := by
  cases hc : Directive.classify? s.scope text with
  | none =>
    rw [onDirective_of_none hc]
    refine advances_closeIf h (Token.closes_of_directive hbody) (Token.marker?_of_directive hbody)
      (fun o f hs hf => ?_) ?_
    · rw [scope_eq_field hs hf] at hc
      simp [Token.bound?, hbody, hc]
    · simp [denies_of_isRemark (isRemark_strange s text)]
  | some directive =>
    obtain ⟨k, argument⟩ := directive
    have hscope : k.scope = s.scope := Directive.scope_eq_of_not_file hfile hc
    rcases h.open_cases with ⟨hs, rfl⟩ | ⟨o, d, hs, rfl, ho⟩
    · -- outside of all objects there are no other rules than those of the file
      rw [scope, hs, hfile] at hc
      cases hc
    · cases hf : o.field with
      | none =>
        rw [scope_eq_object hs hf] at hscope
        obtain ⟨k, rfl⟩ := Keyword.eq_object_of_scope hscope
        obtain ⟨hadd, hno⟩ := ho.add_header hbody hf
        rw [onDirective_of_object hc hs]
        refine advances_edit h hadd ?_
        rw [hno, filter_denies_reports fun p hp => OpenObject.severity_of_mem_apply hp]
        rfl
      | some f =>
        have hfield := scope_eq_field hs hf
        rw [hfield] at hscope
        obtain ⟨k, rfl⟩ := Keyword.eq_field_of_scope hscope
        obtain ⟨hadd, hfound⟩ := ho.add_field hbody hf (hfield ▸ hc)
        rw [onDirective_of_field hc hs hf]
        exact advances_edit h hadd hfound

theorem advances_onDirective {text : String} {ending : Option Separator}
    (h : s.Tracks survivors current) (hbody : t.body = .directive text ending) :
    Advances s ((s.onDirective text t.line).1.closeIf ending) (s.onDirective text t.line).2
      survivors current (next current t).2 (next current t).1 := by
  have hdirective := Token.isFileDirective_of_directive hbody
  cases hfile : Directive.classify? .file text with
  | some directive =>
    obtain ⟨k, argument⟩ := directive
    rw [hfile] at hdirective
    rw [next_of_fileDirective hdirective]
    obtain ⟨k, rfl⟩ := Keyword.eq_file_of_scope (k := k)
      ((Directive.scope_of_classify? hfile).elim id id)
    rw [onDirective_of_file (Directive.classify?_of_file hfile s.scope)]
    obtain ⟨hadv, hnone⟩ := advances_onFileDirective k argument t.line h
    rwa [closeIf_of_none hnone]
  | none =>
    rw [hfile] at hdirective
    rw [next_of_name?_eq_none hdirective (Token.name?_of_directive hbody)]
    exact advances_scoped h hbody hfile

/-- **A token does to the reader what it does to the cut.** -/
theorem step_advances (h : s.Tracks survivors current) (ht : t.isComment = false) :
    Advances s (s.step t).1 (s.step t).2 survivors current (next current t).2
      (next current t).1 := by
  unfold step
  split
  · next hbody => exact advances_onContent h hbody
  · next hbody => exact advances_onDirective h hbody
  · next hbody => simp [Token.isComment, hbody] at ht

/-! ### A whole run -/

/-- Comments say nothing. -/
theorem run_filter_comments (s : State) (ts : List Token) :
    s.run (ts.filter (!·.isComment)) = s.run ts := by
  induction ts generalizing s with
  | nil => rfl
  | cons t ts ih =>
    cases ht : t.isComment with
    | false => rw [List.filter_cons_of_pos (by simp [ht]), run_cons, run_cons, ih]
    | true =>
      rw [List.filter_cons_of_neg (by simp [ht]), ih, run_cons]
      unfold Token.isComment at ht
      unfold step
      split at ht
      · next hbody => rw [hbody]; rfl
      · cases ht

/-- **Reading to the end is cutting.** -/
theorem run_advances (h : s.Tracks survivors current) {ts : List Token}
    (hts : ∀ t ∈ ts, t.isComment = false) :
    Advances s (s.run ts).1.endObject.1 ((s.run ts).2 ++ (s.run ts).1.endObject.2) survivors
      current none (cut current ts) := by
  induction ts generalizing s survivors current with
  | nil => exact advances_endObject h
  | cons t ts ih =>
    have hstep := step_advances h (hts t (by simp))
    rw [run_cons, cut, List.append_assoc]
    exact hstep.trans (ih hstep.tracks fun u hu => hts u (List.mem_cons_of_mem _ hu))

end State

/-- The declarations of a text with their verdicts. -/
def Declaration.ofText (text : String) : List (Declaration × Declaration.Verdict) :=
  Declaration.judge [] (Declaration.cut none ((Token.ofText text).filter (!·.isComment)))

/-- **The objects of a source are exactly the declarations that survive.** They have the name, the
line and the fields of their declarations and come in the same order. What the findings hold against
objects is what the verdicts say, declaration by declaration, and every declaration that does not
survive has left an error on one of its lines. -/
theorem Source.objects_eq_survivors (text : String) :
    (Source.ofText text).items.filterMap Item.summary? =
      (Declaration.keptOf (Declaration.ofText text)).map Declaration.summary ∧
    (Source.ofText text).findings.filter (·.denies) =
      (Declaration.ofText text).flatMap (fun p => p.1.denials p.2) ∧
    ∀ p ∈ Declaration.ofText text, p.2 ≠ .kept →
      ∃ f ∈ (Source.ofText text).findings, f ∈ p.1.denials p.2 ∧
        f.problem.severity = .error ∧ ∃ t ∈ p.1.tokens, f.line = t.line := by
  have hinit : ({} : State).Tracks [] none := ⟨rfl, .none⟩
  have hcontent : ∀ t ∈ (Token.ofText text).filter (!·.isComment), t.isComment = false :=
    fun t ht => by simpa using (List.mem_filter.mp ht).2
  have hadv := State.run_advances hinit hcontent
  rw [State.run_filter_comments] at hadv
  have hfindings := hadv.findings
  simp only [Declaration.pending, Option.elim_none, List.nil_append, List.append_nil] at hfindings
  refine ⟨hadv.items, hfindings, fun p hp hv => ?_⟩
  obtain ⟨f, hf, hsev, t, ht, hline⟩ := Declaration.exists_error_of_ne_kept hp hv
  have hmem : f ∈ (Source.ofText text).findings.filter (·.denies) :=
    hfindings ▸ List.mem_flatMap.mpr ⟨p, hp, hf⟩
  exact ⟨f, (List.mem_filter.mp hmem).1, hf, hsev, t, ht, hline⟩

end DataDictionary
