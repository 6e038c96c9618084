import DataDictionary.Proofs.Declarations
import DataDictionary.Proofs.GroupBoundary

/-!
# Groups and inclusions of a source

Which groups a source names, and where, can be told from its tokens alone. The directives that begin
a group or include a source are its **landmarks**, and the items of a source are its landmarks in
their order, with the objects between them (`Source.landmarks_items`).

An object gets its group at its name, long before it is known whether the object is kept. The name,
the group and the line are the **heading** of the object, and nothing that happens to the object
later changes it. So a heading can be followed from the name of the object to the item that the
object becomes, and the group in it is the last one above the name (`Source.group_of_item`).

A line may hold several names, and then it does not say which of them is meant. It does not matter:
on a line all content stands in front of all directives, so no group begins between two names.
-/

namespace DataDictionary

/-- A directive that has to do with groups. -/
inductive Landmark where
  | group (name : String)
  | inclusion (directive : Inclusion)
  deriving DecidableEq

/-- The name of the group that a landmark begins, if it is no inclusion. -/
def Landmark.group? : Landmark → Option String
  | .group name => some name
  | .inclusion _ => none

/-- The landmark that a directive of the file is. -/
def FileKeyword.landmark? (k : FileKeyword) (name : String) (line : Nat) : Option Landmark :=
  match k with
  | .group => some (.group name)
  | .includeFile => some (.inclusion { source := name, line })
  | .removeObject => none

/-- What an item is a landmark for. Which objects are removed from an inclusion is said later. -/
def Item.landmark? : Item → Option Landmark
  | .object _ _ => none
  | .inclusion d => some (.inclusion { d with removed := [] })
  | .group name => some (.group name)

namespace Token

def landmark? (t : Token) : Option Landmark :=
  match t.body with
  | .directive text _ =>
    match Directive.classify? .file text with
    | some ⟨.file k, name⟩ => k.landmark? name t.line
    | _ => none
  | _ => none

theorem group?_eq_landmark? (t : Token) : t.group? = t.landmark?.bind Landmark.group? := by
  unfold group? landmark?
  cases t.body with
  | content text ending => rfl
  | comment text => rfl
  | directive text ending =>
    dsimp only
    rcases Directive.classify? .file text with _ | ⟨_ | _ | _, name⟩
    · rfl
    · next k => cases k <;> rfl
    · rfl
    · rfl

/-- The group in force behind some tokens. -/
def lastGroup? (ts : List Token) : Option String := (ts.filterMap group?).getLast?

theorem lastGroup?_append (ts us : List Token) :
    lastGroup? (ts ++ us) = (lastGroup? us).or (lastGroup? ts) := by
  rw [lastGroup?, List.filterMap_append, List.getLast?_append]
  rfl

theorem lastGroup?_singleton (t : Token) : lastGroup? [t] = t.group? := by
  cases h : t.group? <;> simp [lastGroup?, h]

/-- The group in force is one of those that were named. -/
theorem mem_of_lastGroup? {ts : List Token} {name : String} (h : lastGroup? ts = some name) :
    .group name ∈ ts.filterMap landmark? := by
  obtain ⟨t, ht, hname⟩ := List.mem_filterMap.mp (List.mem_of_getLast? h)
  rw [group?_eq_landmark?, Option.bind_eq_some_iff] at hname
  obtain ⟨landmark, hlandmark, hname⟩ := hname
  cases landmark with
  | group other =>
    cases hname
    exact List.mem_filterMap.mpr ⟨t, ht, hlandmark⟩
  | inclusion d => cases hname

section

variable {t : Token} {text name : String} {ending : Option Separator}

theorem landmark?_of_content (h : t.body = .content text ending) : t.landmark? = none := by
  rw [landmark?, h]

theorem landmark?_of_comment (h : t.body = .comment text) : t.landmark? = none := by
  rw [landmark?, h]

theorem landmark?_of_file {k : FileKeyword} (h : t.body = .directive text ending)
    (hc : Directive.classify? .file text = some ⟨.file k, name⟩) :
    t.landmark? = k.landmark? name t.line := by
  rw [landmark?, h]
  dsimp only
  rw [hc]

theorem landmark?_of_not_file (h : t.body = .directive text ending)
    (hc : Directive.classify? .file text = none) : t.landmark? = none := by
  rw [landmark?, h]
  dsimp only
  rw [hc]

end

end Token

/-! ## Headings -/

/-- What an object has had from its name on. -/
structure Heading where
  name : String
  group : Option String
  line : Nat

def OpenObject.heading (o : OpenObject) : Heading := ⟨o.object.name, o.object.group, o.line⟩

def Item.heading? : Item → Option Heading
  | .object o line => some ⟨o.name, o.group, line⟩
  | _ => none

namespace OpenObject

@[simp] theorem heading_finishField (o : OpenObject) : o.finishField.1.heading = o.heading := by
  unfold finishField
  split <;> rfl

@[simp] theorem heading_openField (o : OpenObject) (id : FieldId) (ending : Option Separator)
    (line : Nat) : (o.openField id ending line).1.heading = o.heading :=
  o.heading_finishField

@[simp] theorem heading_apply (o : OpenObject) (k : ObjectKeyword) (argument : String) :
    (o.apply k argument).1.heading = o.heading := by
  cases k <;> rfl

@[simp] theorem heading_applyToField (o : OpenObject) (f : OpenField) (k : FieldKeyword)
    (argument : String) : (o.applyToField f k argument).1.heading = o.heading := by
  unfold applyToField
  split <;> rfl

end OpenObject

namespace State

def landmarks (s : State) : List Landmark := s.items.filterMap Item.landmark?

/-- The headings of the objects that are kept or still open. -/
def headings (s : State) : List Heading :=
  s.items.filterMap Item.heading? ++ (s.current.map OpenObject.heading).toList

/-! ## What a token does to them -/

/-- The reader goes on from `s` to `s'` past no landmark; only the objects `begun` are new. -/
structure Continues (s s' : State) (begun : List Heading) : Prop where
  group : s'.group = s.group
  landmarks : s'.landmarks = s.landmarks
  headings : s'.headings ⊆ s.headings ++ begun

variable {s s' s'' : State} {begun : List Heading}

theorem Continues.refl (s : State) (begun : List Heading) : s.Continues s begun :=
  ⟨rfl, rfl, List.subset_append_left _ _⟩

theorem Continues.trans (h : s.Continues s' []) (h' : s'.Continues s'' begun) :
    s.Continues s'' begun := by
  refine ⟨h'.group.trans h.group, h'.landmarks.trans h.landmarks, fun x hx => ?_⟩
  rcases List.mem_append.mp (h'.headings hx) with hx | hx
  · exact List.mem_append_left _ (by simpa using h.headings hx)
  · exact List.mem_append_right _ hx

/-- An edit of the open object that leaves its heading alone. -/
theorem continues_edit {o o' : OpenObject} (hcur : s.current = some o)
    (h : o'.heading = o.heading) : s.Continues { s with current := some o' } begun := by
  refine ⟨rfl, rfl, ?_⟩
  have hsame : State.headings { s with current := some o' } = s.headings := by
    simp [State.headings, hcur, h]
  rw [hsame]
  exact List.subset_append_left _ _

theorem continues_closeIf (s : State) (ending : Option Separator) :
    s.Continues (s.closeIf ending) begun := by
  cases hcur : s.current with
  | none =>
    rw [closeIf_of_none hcur]
    exact .refl s begun
  | some o =>
    rw [closeIf_of_some hcur]
    exact continues_edit hcur rfl

/-- An object takes its heading along when it becomes an item. -/
theorem continues_endObject (s : State) : s.Continues s.endObject.1 begun := by
  cases hcur : s.current with
  | none =>
    rw [endObject_of_none hcur]
    exact .refl s begun
  | some o =>
    rcases endObject_fst_of_some hcur with heq | ⟨-, heq⟩
    · rw [heq]
      exact ⟨rfl, rfl, fun x hx => by simp_all [State.headings]⟩
    · have hheading : Item.heading? (.object o.finishField.1.object o.line) = some o.heading := by
        unfold OpenObject.finishField
        split <;> rfl
      rw [heq]
      refine ⟨rfl, by simp [State.landmarks, Item.landmark?], ?_⟩
      simp [State.headings, hcur, hheading]

theorem continues_startObject (hcur : s.current = none) (name : String)
    (ending : Option Separator) (line : Nat) :
    s.Continues (s.startObject name ending line) [⟨name, s.group, line⟩] := by
  refine ⟨rfl, rfl, ?_⟩
  simp [State.headings, hcur, startObject, OpenObject.start, OpenObject.heading]

theorem continues_onMarker (s : State) (id : FieldId) (ending : Option Separator) (line : Nat) :
    s.Continues (s.onMarker id ending line).1 begun := by
  unfold onMarker
  split
  · exact .refl s begun
  · next o hcur => exact continues_edit hcur (o.heading_openField id ending line)

theorem continues_onText (s : State) (text : String) (ending : Option Separator) (line : Nat) :
    s.Continues (s.onText text ending line).1 [⟨text, s.group, line⟩] := by
  unfold onText
  split
  · next hcur => exact continues_startObject hcur text ending line
  · split
    · exact continues_closeIf s ending
    · have hend : s.Continues s.endObject.1 [] := continues_endObject s
      have hstart := continues_startObject (endObject_current s) text ending line
      rw [hend.group] at hstart
      exact hend.trans hstart

/-- What content does: at most it begins one object, under the group in force. -/
theorem continues_content {t : Token} {text : String} {ending : Option Separator}
    (h : t.body = .content text ending) (s : State) :
    s.Continues (s.step t).1 (t.name?.map fun name => ⟨name, s.group, t.line⟩).toList := by
  rw [step_of_content h, onContent]
  split
  · exact continues_onMarker s _ ending t.line
  · next hid =>
    split
    · exact continues_closeIf s ending
    · next htext =>
      rw [Token.name?_of_content h htext hid]
      exact continues_onText s text ending t.line

/-- A directive of an object or of a field edits the object that is open. -/
theorem continues_onDirective {text : String} (h : Directive.classify? .file text = none)
    (s : State) (line : Nat) : s.Continues (s.onDirective text line).1 begun := by
  unfold onDirective
  split
  · exact .refl s begun
  · next hc =>
    rw [Directive.file_of_classify? hc rfl] at h
    cases h
  · unfold onObjectDirective
    split
    · exact .refl s begun
    · next o hcur => exact continues_edit hcur (o.heading_apply _ _)
  · unfold onFieldDirective
    split
    · exact .refl s begun
    · next o hcur =>
      split
      · exact .refl s begun
      · exact continues_edit hcur (o.heading_applyToField _ _ _)

theorem continues_removal {items : List Item} {name : String}
    (h : removeFromLast name s.items = some items) : s.Continues { s with items } begun := by
  have hheadings : items.filterMap Item.heading? = s.items.filterMap Item.heading? :=
    filterMap_removeFromLast (fun _ => rfl) h
  obtain ⟨before, d, hbefore, rfl⟩ := removeFromLast_eq_some h
  refine ⟨rfl, by simp [State.landmarks, hbefore, Item.landmark?], ?_⟩
  simp [State.headings, hheadings]

/-- What a token passes, item by item. -/
structure Passes (s : State) (t : Token) (s' : State) : Prop where
  group : s'.group = t.group?.or s.group
  landmarks : s'.landmarks = s.landmarks ++ t.landmark?.toList
  headings : s'.headings ⊆
    s.headings ++ (t.name?.map fun name => (⟨name, s.group, t.line⟩ : Heading)).toList

theorem Continues.passes {t : Token} (hnone : t.landmark? = none)
    (h : s.Continues s' (t.name?.map fun name => (⟨name, s.group, t.line⟩ : Heading)).toList) :
    s.Passes t s' := by
  refine ⟨?_, by rw [hnone]; simpa using h.landmarks, h.headings⟩
  rw [Token.group?_eq_landmark?, hnone]
  exact h.group

theorem passes_onFileDirective {t : Token} {text name : String} {ending : Option Separator}
    {k : FileKeyword} (h : t.body = .directive text ending)
    (hc : Directive.classify? .file text = some ⟨.file k, name⟩) (s : State) :
    s.Passes t (s.onFileDirective k name t.line).1 := by
  have hend : ∀ begun, s.Continues s.endObject.1 begun := fun _ => continues_endObject s
  have hlandmark := Token.landmark?_of_file h hc
  cases k with
  | group =>
    refine ⟨by rw [Token.group?_eq_landmark?, hlandmark]; rfl, ?_, ?_⟩
    · rw [hlandmark, ← (hend []).landmarks]
      exact List.filterMap_append
    · refine List.Subset.trans ?_ (hend _).headings
      simp [onFileDirective, State.headings, Item.heading?, List.filterMap_cons]
  | includeFile =>
    refine ⟨by rw [Token.group?_eq_landmark?, hlandmark]; exact (hend []).group, ?_, ?_⟩
    · rw [hlandmark, ← (hend []).landmarks]
      exact List.filterMap_append
    · refine List.Subset.trans ?_ (hend _).headings
      simp [onFileDirective, State.headings, Item.heading?, List.filterMap_cons]
  | removeObject =>
    refine Continues.passes hlandmark ?_
    unfold onFileDirective
    dsimp only
    split
    · next items hitems =>
      exact (hend []).trans (continues_removal (Option.ite_none_right_eq_some.mp hitems).2)
    · exact hend _

/-- **What each token does to groups, landmarks and headings.** -/
theorem passes_step (s : State) (t : Token) : s.Passes t (s.step t).1 := by
  cases hbody : t.body with
  | content text ending =>
    exact (continues_content hbody s).passes (Token.landmark?_of_content hbody)
  | comment text =>
    rw [step_of_comment hbody]
    exact (Continues.refl s _).passes (Token.landmark?_of_comment hbody)
  | directive text ending =>
    rw [step_of_directive hbody]
    cases hc : Directive.classify? .file text with
    | none =>
      exact ((continues_onDirective hc s t.line).trans (continues_closeIf _ ending)).passes
        (Token.landmark?_of_not_file hbody hc)
    | some d =>
      obtain ⟨keyword, name⟩ := d
      obtain ⟨k, rfl⟩ : ∃ k, keyword = .file k := by
        rcases Directive.scope_of_classify? hc with hs | hs <;> exact Keyword.eq_file_of_scope hs
      -- nothing is open behind a directive of the file
      have hnone : (s.onFileDirective k name t.line).1.current = none := by
        have hend := endObject_current s
        unfold onFileDirective
        cases k with
        | group | includeFile => exact hend
        | removeObject =>
          dsimp only
          split <;> exact hend
      rw [onDirective_of_file (Directive.classify?_of_file hc s.scope), closeIf_of_none hnone]
      exact passes_onFileDirective hbody hc s

end State

/-! ## Whole sources -/

/-- A heading was begun by one of the tokens, under the last group above that token. -/
def Heading.IsFrom (h : Heading) (ts : List Token) : Prop :=
  ∃ above t below, ts = above ++ t :: below ∧ t.name? = some h.name ∧ t.line = h.line ∧
    h.group = Token.lastGroup? above

namespace State

/-- The reader has passed some tokens and knows of their groups and landmarks what it needs. -/
structure HasPassed (ts : List Token) (s : State) : Prop where
  group : s.group = Token.lastGroup? ts
  landmarks : s.landmarks = ts.filterMap Token.landmark?
  headings : ∀ h ∈ s.headings, h.IsFrom ts

theorem HasPassed.step {ts : List Token} {s : State} (h : s.HasPassed ts) (t : Token) :
    (s.step t).1.HasPassed (ts ++ [t]) := by
  have hpasses := passes_step s t
  refine ⟨?_, ?_, fun x hx => ?_⟩
  · rw [hpasses.group, h.group, Token.lastGroup?_append, Token.lastGroup?_singleton]
  · rw [hpasses.landmarks, h.landmarks, List.filterMap_append]
    cases ht : t.landmark? <;> simp [ht]
  · rcases List.mem_append.mp (hpasses.headings hx) with hx | hx
    · obtain ⟨above, u, below, rfl, hu⟩ := h.headings x hx
      exact ⟨above, u, below ++ [t], by simp, hu⟩
    · -- the object that the token begins
      rw [Option.mem_toList, Option.map_eq_some_iff] at hx
      obtain ⟨name, hname, rfl⟩ := hx
      exact ⟨ts, t, [], rfl, hname, rfl, h.group⟩

theorem HasPassed.run {ts : List Token} {s : State} (h : s.HasPassed ts) (us : List Token) :
    (s.run us).1.HasPassed (ts ++ us) := by
  induction us generalizing ts s with
  | nil => rwa [List.append_nil]
  | cons u us ih =>
    have hrest := ih (h.step u)
    rwa [List.append_assoc] at hrest

/-- At the end of its tokens a source knows all of them. -/
theorem hasPassed_end (ts : List Token) : (State.run {} ts).1.endObject.1.HasPassed ts := by
  have hstart : ({} : State).HasPassed [] := ⟨rfl, rfl, fun h hh => by cases hh⟩
  have hrun : (State.run {} ts).1.HasPassed ts := hstart.run ts
  have hend : (State.run {} ts).1.Continues (State.run {} ts).1.endObject.1 [] :=
    continues_endObject _
  exact ⟨hend.group.trans hrun.group, hend.landmarks.trans hrun.landmarks,
    fun h hh => hrun.headings h (by simpa using hend.headings hh)⟩

end State

/-- The landmarks of a text, in order. -/
def Landmark.ofText (text : String) : List Landmark :=
  (Token.ofText text).filterMap Token.landmark?

/-- **A source declares the landmarks of its text.** -/
theorem Source.landmarks_items (text : String) :
    (ofText text).items.filterMap Item.landmark? = Landmark.ofText text :=
  (State.hasPassed_end (Token.ofText text)).landmarks

/-! ## Which name is meant -/

def TokenBody.isContent : TokenBody → Bool
  | .content _ _ => true
  | _ => false

namespace Token

open Text

/-- A token stands in front of another, on a line above it or on the same line, where no directive
is in front of content. -/
def IsBefore (t u : Token) : Prop :=
  t.line < u.line ∨ t.line = u.line ∧ (u.body.isContent = true → t.body.isContent = true)

theorem IsBefore.line_le {t u : Token} (h : t.IsBefore u) : t.line ≤ u.line :=
  h.elim Nat.le_of_lt fun hsame => Nat.le_of_eq hsame.1

theorem isContent_of_name? {t : Token} {name : String} (h : t.name? = some name) :
    t.body.isContent = true := by
  unfold name? at h
  split at h
  · next hbody => rw [hbody]; rfl
  · cases h

theorem group?_of_isContent {t : Token} (h : t.body.isContent = true) : t.group? = none := by
  unfold group?
  split
  · next hbody =>
    rw [hbody] at h
    cases h
  · rfl

theorem pairwise_bodiesOfCode (code : List Char) :
    (bodiesOfCode code).Pairwise fun a b => b.isContent = true → a.isContent = true := by
  have hcontent : ∀ segments, ∀ a ∈ bodies .content segments, a.isContent = true := by
    intro segments a ha
    obtain ⟨-, -, text, rfl, -⟩ := exists_segment_of_mem_bodies ha
    rfl
  have hdirective : ∀ segments, ∀ b ∈ bodies .directive segments, b.isContent = false := by
    intro segments b hb
    obtain ⟨-, -, text, rfl, -⟩ := exists_segment_of_mem_bodies hb
    rfl
  rcases bodiesOfCode_cases code with ⟨-, hbodies⟩ | ⟨content, run, -, -, hbodies⟩
  · rw [hbodies]
    exact List.pairwise_of_forall_mem_list fun a ha _ _ _ => hcontent _ a ha
  · rw [hbodies]
    refine List.pairwise_append.mpr ⟨?_, ?_, fun a ha _ _ _ => hcontent _ a ha⟩
    · exact List.pairwise_of_forall_mem_list fun a ha _ _ _ => hcontent _ a ha
    · exact List.pairwise_of_forall_mem_list fun _ _ b hb hc => by
        rw [hdirective _ b hb] at hc
        cases hc

theorem pairwise_ofLine (l : List Char) (n : Nat) : (ofLine l n).Pairwise IsBefore := by
  rcases ofLine_cases l n with ⟨-, hline⟩ | ⟨before, last, hbodies, hline⟩
  · rw [hline]
    cases commentOf? l <;> simp
  · have hpairwise := pairwise_bodiesOfCode (codeOf l)
    rw [hbodies] at hpairwise
    obtain ⟨hbefore, -, hlast⟩ := List.pairwise_append.mp hpairwise
    rw [hline]
    refine List.pairwise_append.mpr
      ⟨List.pairwise_map.mpr (hbefore.imp fun h => .inr ⟨rfl, h⟩), List.pairwise_singleton _ _, ?_⟩
    intro t ht u hu
    obtain ⟨body, hbody, rfl⟩ := List.mem_map.mp ht
    rw [List.mem_singleton.mp hu]
    exact .inr ⟨rfl, hlast body hbody last (List.mem_singleton_self last)⟩

/-- The tokens of lines stand in their order. -/
theorem pairwise_ofLines (n : Nat) (ls : List (List Char)) :
    (∀ t ∈ ofLines n ls, n ≤ t.line) ∧ (ofLines n ls).Pairwise IsBefore := by
  induction ls generalizing n with
  | nil => exact ⟨fun t ht => (by cases ht), .nil⟩
  | cons l ls ih =>
    have hline : ∀ t ∈ ofLine l n, t.line = n := fun t ht => (ofLine_mem_cases ht).1
    obtain ⟨hbelow, hrest⟩ := ih (n + 1)
    rw [ofLines]
    refine ⟨fun t ht => ?_,
      List.pairwise_append.mpr ⟨pairwise_ofLine l n, hrest, fun t ht u hu => ?_⟩⟩
    · rcases List.mem_append.mp ht with ht | ht
      · exact Nat.le_of_eq (hline t ht).symm
      · exact Nat.le_of_succ_le (hbelow t ht)
    · exact .inl (hline t ht ▸ hbelow u hu)

/-- No group begins between content of the same line. -/
theorem lastGroup?_same_line {above mid below : List Token} {t u : Token}
    (h : (above ++ mid ++ t :: below).Pairwise IsBefore) (hcontent : t.body.isContent = true)
    (hfirst : mid.head? = some u) (hline : u.line = t.line) :
    lastGroup? (above ++ mid) = lastGroup? above := by
  obtain ⟨rest, rfl⟩ := List.head?_eq_some_iff.mp hfirst
  rw [List.append_assoc] at h
  obtain ⟨hmid, -, hcross⟩ := List.pairwise_append.mp (List.pairwise_append.mp h).2.1
  have hnone : ∀ v ∈ u :: rest, v.group? = none := by
    intro v hv
    have hle : u.line ≤ v.line := by
      rcases List.mem_cons.mp hv with rfl | hv
      · exact Nat.le_refl _
      · exact ((List.pairwise_cons.mp hmid).1 v hv).line_le
    rcases hcross v hv t List.mem_cons_self with hlt | ⟨-, hsame⟩
    · omega
    · exact group?_of_isContent (hsame hcontent)
  rw [lastGroup?_append, lastGroup?, List.filterMap_eq_nil_iff.mpr hnone]
  rfl

/-- Where a line holds several names, the same group is in force at all of them. -/
theorem lastGroup?_eq_of_names {text : String} {above above' below below' : List Token}
    {t t' : Token} (h : ofText text = above ++ t :: below)
    (h' : ofText text = above' ++ t' :: below') (ht : t.body.isContent = true)
    (ht' : t'.body.isContent = true) (hline : t.line = t'.line) :
    lastGroup? above = lastGroup? above' := by
  have hpairwise : (ofText text).Pairwise IsBefore := (pairwise_ofLines 1 _).2
  rcases List.append_eq_append_iff.mp (h.symm.trans h') with ⟨mid, rfl, hmid⟩ | ⟨mid, rfl, hmid⟩
  · cases mid with
    | nil => rw [List.append_nil]
    | cons u rest =>
      obtain rfl : t = u := (List.cons.inj hmid).1
      rw [h'] at hpairwise
      exact (lastGroup?_same_line hpairwise ht' rfl hline).symm
  · cases mid with
    | nil => rw [List.append_nil]
    | cons u rest =>
      obtain rfl : t' = u := (List.cons.inj hmid).1
      rw [h] at hpairwise
      exact lastGroup?_same_line hpairwise ht rfl hline.symm

end Token

/-- The tokens `above` are those in front of the name of an object that is declared on a line. -/
def Source.IsDeclaredBelow (text : String) (o : Object) (line : Nat) (above : List Token) : Prop :=
  ∃ t below, Token.ofText text = above ++ t :: below ∧ t.name? = some o.name ∧ t.line = line

/-- **The group of an object is the last one that begins in front of its name**, in the source that
declares it. -/
theorem Source.group_of_item {text : String} {o : Object} {line : Nat}
    (h : .object o line ∈ (ofText text).items) :
    (∃ above, IsDeclaredBelow text o line above) ∧
      ∀ above, IsDeclaredBelow text o line above → o.group = Token.lastGroup? above := by
  have hend := State.hasPassed_end (Token.ofText text)
  obtain ⟨above, t, below, htokens, hname, hline, hgroup⟩ := hend.headings ⟨o.name, o.group, line⟩
    (List.mem_append_left _ (List.mem_filterMap.mpr ⟨_, h, rfl⟩))
  refine ⟨⟨above, t, below, htokens, hname, hline⟩, ?_⟩
  rintro above' ⟨t', below', htokens', hname', hline'⟩
  refine hgroup.trans (Token.lastGroup?_eq_of_names htokens htokens'
    (Token.isContent_of_name? hname) (Token.isContent_of_name? hname') (hline.trans hline'.symm))

end DataDictionary
