import DataDictionary.Proofs.Expansion
import Mathlib.Data.List.Nodup

/-!
# What the items of a source contribute

The definitions of an included source are taken over one by one, and each of them is looked up among
those before it. As long as an included source never says the same name twice, the ones before it in
the same source do not matter: what is taken over is a plain selection (`addIncluded_eq`), and what
is reported is another.

So every item of a source has a **contribution**, the definitions it adds and the diagnostics it
raises, which depends on what came before it only through the keys that are taken. `Contributes`
states it item by item, without any state that is passed along, and merging does nothing but put
contributions together (`contributesAll_mergeItems`). Whatever is to be known of a merged source can
be read off its contributions.
-/

namespace DataDictionary

/-- Whether a definition of an included source comes in: it is not removed, and no other definition
has its key. -/
def Definition.IsAdmitted (removed own taken : List String) (d : Definition) : Prop :=
  d.key ∉ removed ∧ d.key ∉ own ∧ d.key ∉ taken

/-- Whether a definition of an included source meets another one of its key. -/
def Definition.Clashes (removed own taken : List String) (d : Definition) : Prop :=
  d.key ∉ removed ∧ (d.key ∈ own ∨ d.key ∈ taken)

instance (removed own taken : List String) (d : Definition) :
    Decidable (d.IsAdmitted removed own taken) :=
  inferInstanceAs (Decidable (_ ∧ _))

instance (removed own taken : List String) (d : Definition) :
    Decidable (d.Clashes removed own taken) :=
  inferInstanceAs (Decidable (_ ∧ _))

namespace Merging

/-- Adds definitions one after the other. -/
def addAll (m : Merging) (ds : List Definition) : Merging :=
  { m with
    taken := m.taken ++ ds.map Definition.key
    merged := { m.merged with definitions := m.merged.definitions ++ ds } }

theorem addAll_nil (m : Merging) : m.addAll [] = m := by
  simp [addAll]

theorem addAll_cons (m : Merging) (d : Definition) (ds : List Definition) :
    m.addAll (d :: ds) = (m.add d).addAll ds := by
  simp [addAll, add]

/-- **What comes in of an included source whose keys are distinct, and what is reported.** -/
theorem addIncluded_eq (source : String) (removed : List String) (m : Merging)
    {ds : List Definition} (h : (ds.map Definition.key).Nodup) :
    addIncluded source removed m ds =
      (m.addAll (ds.filter (Definition.IsAdmitted removed m.own m.taken ·)),
       (ds.filter (Definition.Clashes removed m.own m.taken ·)).map
         (.mergeConflict ·.object.name source)) := by
  induction ds generalizing m with
  | nil => simp [addIncluded, addAll_nil]
  | cons d rest ih =>
    obtain ⟨hfresh, hrest⟩ := List.nodup_cons.mp h
    rw [addIncluded]
    by_cases hremoved : d.key ∈ removed
    · -- removed, and not a word about it
      rw [if_pos (by simpa using hremoved), ih m hrest]
      simp [Definition.IsAdmitted, Definition.Clashes, hremoved]
    · rw [if_neg (by simpa using hremoved)]
      by_cases hclash : d.key ∈ m.own ∨ d.key ∈ m.taken
      · -- left out as well, but reported
        rw [if_pos (by simpa using hclash), ih m hrest]
        have hnot : ¬ d.IsAdmitted removed m.own m.taken := by
          rintro ⟨-, hown, htaken⟩
          exact hclash.elim hown htaken
        have hyes : d.Clashes removed m.own m.taken := ⟨hremoved, hclash⟩
        simp [hnot, hyes]
      · -- the definition that comes in has a key that none of the rest has
        rw [if_neg (by simpa using hclash), ih (m.add d) hrest]
        have hne : ∀ e ∈ rest, e.key ≠ d.key := by
          intro e he heq
          exact hfresh (heq ▸ List.mem_map_of_mem he)
        have hadmitted : ∀ e ∈ rest, decide (e.IsAdmitted removed (m.add d).own (m.add d).taken) =
            decide (e.IsAdmitted removed m.own m.taken) := by
          intro e he
          exact decide_eq_decide.mpr (by simp [Definition.IsAdmitted, add, hne e he])
        have hclashes : ∀ e ∈ rest, decide (e.Clashes removed (m.add d).own (m.add d).taken) =
            decide (e.Clashes removed m.own m.taken) := by
          intro e he
          exact decide_eq_decide.mpr (by simp [Definition.Clashes, add, hne e he])
        have hyes : d.IsAdmitted removed m.own m.taken :=
          ⟨hremoved, fun hown => hclash (.inl hown), fun htaken => hclash (.inr htaken)⟩
        have hnot : ¬ d.Clashes removed m.own m.taken := fun hc => hclash hc.2
        rw [List.filter_congr hadmitted, List.filter_congr hclashes,
          List.filter_cons_of_pos (by simpa using hyes),
          List.filter_cons_of_neg (by simpa using hnot), addAll_cons]

/-- Groups are added without any effect on the definitions. -/
theorem addGroup_frame (m : Merging) (name : String) :
    (m.addGroup name).own = m.own ∧ (m.addGroup name).taken = m.taken ∧
      (m.addGroup name).merged.definitions = m.merged.definitions := by
  unfold addGroup
  split <;> exact ⟨rfl, rfl, rfl⟩

theorem foldl_addGroup_frame (m : Merging) (groups : List String) :
    (groups.foldl addGroup m).own = m.own ∧ (groups.foldl addGroup m).taken = m.taken ∧
      (groups.foldl addGroup m).merged.definitions = m.merged.definitions := by
  induction groups generalizing m with
  | nil => exact ⟨rfl, rfl, rfl⟩
  | cons g gs ih =>
    obtain ⟨hown, htaken, hdefinitions⟩ := m.addGroup_frame g
    obtain ⟨ihown, ihtaken, ihdefinitions⟩ := ih (m.addGroup g)
    exact ⟨ihown.trans hown, ihtaken.trans htaken, ihdefinitions.trans hdefinitions⟩

/-- **What merging in an included source does.** -/
theorem absorb_eq (m : Merging) (d : Inclusion) {included : Merged}
    (h : (included.definitions.map Definition.key).Nodup) :
    m.absorb d included =
      (included.groups.foldl addGroup (m.addAll (included.definitions.filter
         (Definition.IsAdmitted (d.removed.map Text.lookupKey) m.own m.taken ·))),
       unknownRemovals d included ++ (included.definitions.filter
         (Definition.Clashes (d.removed.map Text.lookupKey) m.own m.taken ·)).map
         (.mergeConflict ·.object.name d.source)) := by
  unfold absorb
  dsimp only
  rw [addIncluded_eq d.source _ m h]

end Merging

/-- The removals of an inclusion that name none of the definitions. -/
def Inclusion.unmatched (d : Inclusion) (definitions : List Definition) : List String :=
  d.removed.filter fun name => ∀ e ∈ definitions, e.key ≠ Text.lookupKey name

theorem Merging.unknownRemovals_eq (d : Inclusion) (included : Merged) :
    unknownRemovals d included =
      (d.unmatched included.definitions).map (.removalUnknown d.source ·) := by
  unfold unknownRemovals Inclusion.unmatched
  congr 1
  refine List.filter_congr fun name _ => ?_
  rw [Bool.eq_iff_iff]
  simp

/-! ## Contributions -/

/-- What an item adds to a merged source. -/
structure Contribution where
  definitions : List Definition := []
  diagnostics : Diagnostics := []

def Contribution.keys (part : Contribution) : List String := part.definitions.map Definition.key

/-- The key of an item that is an object. -/
def Item.key? (item : Item) : Option String := item.object?.map fun o => Text.lookupKey o.name

namespace Resolver

section Contributions

variable (r : Resolver) (label : Option String) (chain own : List String)

/-- What an item contributes when the objects of its source have the keys `own` and the keys `taken`
stand before it. -/
inductive Contributes (taken : List String) : Item → Contribution → Prop where
  /-- An object of the source itself comes in as it is. -/
  | object (o : Object) (line : Nat) :
      Contributes taken (.object o line) { definitions := [⟨o, label, line⟩] }
  | group (name : String) : Contributes taken (.group name) {}
  /-- Of the definitions that an inclusion brings, the removed ones are left out silently, and those
  that meet another of their key with a complaint each. -/
  | followed {d : Inclusion} {text : String} : r.Follows chain d text →
      Contributes taken (.inclusion d)
        { definitions := (r.included chain d text).1.definitions.filter
            (Definition.IsAdmitted (d.removed.map Text.lookupKey) own taken ·)
          diagnostics := (r.included chain d text).2 ++
            ((d.unmatched (r.included chain d text).1.definitions).map
                (Problem.removalUnknown d.source ·) ++
              ((r.included chain d text).1.definitions.filter
                (Definition.Clashes (d.removed.map Text.lookupKey) own taken ·)).map
                (Problem.mergeConflict ·.object.name d.source)).map
              (·.report ⟨label, d.line⟩) }
  /-- An inclusion that is not followed says why, and that is all. -/
  | refused {d : Inclusion} {p : Problem} : r.Refuses chain d p →
      Contributes taken (.inclusion d) { diagnostics := [p.report ⟨label, d.line⟩] }

/-- What items contribute one after the other. -/
inductive ContributesAll : List String → List Item → List Contribution → Prop where
  | nil (taken : List String) : ContributesAll taken [] []
  | cons {taken : List String} {item : Item} {items : List Item} {part : Contribution}
      {parts : List Contribution} :
      Contributes r label chain own taken item part →
      ContributesAll (taken ++ part.keys) items parts →
      ContributesAll taken (item :: items) (part :: parts)

end Contributions

variable {r : Resolver} {label : Option String} {chain own taken : List String}
  {item : Item} {items : List Item} {part : Contribution} {parts : List Contribution}

/-- Whether no source that is included at the end of a chain defines a key twice. -/
def IncludesDistinct (r : Resolver) (chain : List String) : Prop :=
  ∀ d text, r.Follows chain d text →
    ((r.included chain d text).1.definitions.map Definition.key).Nodup

/-- **One item is merged in by its contribution**, if included sources define no key twice. -/
theorem contributes_mergeItem (hincluded : r.IncludesDistinct chain)
    (label : Option String) (m : Merging) (item : Item) :
    ∃ part, r.Contributes label chain m.own m.taken item part ∧
      (r.mergeItem (r.deeper chain) label chain m item).2 = part.diagnostics ∧
      (r.mergeItem (r.deeper chain) label chain m item).1.own = m.own ∧
      (r.mergeItem (r.deeper chain) label chain m item).1.taken = m.taken ++ part.keys ∧
      (r.mergeItem (r.deeper chain) label chain m item).1.merged.definitions =
        m.merged.definitions ++ part.definitions := by
  cases item with
  | object o line => exact ⟨_, .object o line, rfl, rfl, rfl, rfl⟩
  | group name =>
    obtain ⟨hown, htaken, hdefs⟩ := m.addGroup_frame name
    refine ⟨_, .group name, rfl, hown, ?_, ?_⟩
    · exact htaken.trans (List.append_nil _).symm
    · exact hdefs.trans (List.append_nil _).symm
  | inclusion d =>
    rcases follows_or_refuses r chain d with ⟨text, hfollows⟩ | ⟨p, hrefuses⟩
    · refine ⟨_, .followed hfollows, ?_⟩
      rw [mergeItem, mergeInclusion, follow_of_follows hfollows]
      dsimp only
      rw [Merging.absorb_eq m d (hincluded d text hfollows), Merging.unknownRemovals_eq]
      obtain ⟨hown, htaken, hdefs⟩ := Merging.foldl_addGroup_frame (m.addAll
        ((r.included chain d text).1.definitions.filter
          (Definition.IsAdmitted (d.removed.map Text.lookupKey) m.own m.taken ·)))
        (r.included chain d text).1.groups
      exact ⟨rfl, hown, htaken, hdefs⟩
    · refine ⟨_, .refused hrefuses, ?_⟩
      rw [mergeItem, mergeInclusion, follow_of_refuses hrefuses]
      exact ⟨rfl, rfl, (List.append_nil _).symm, (List.append_nil _).symm⟩

/-- **Merging items puts their contributions together.** -/
theorem contributesAll_mergeItems (hincluded : r.IncludesDistinct chain)
    (label : Option String) (m : Merging) (items : List Item) :
    ∃ parts, r.ContributesAll label chain m.own m.taken items parts ∧
      (r.mergeItems (r.deeper chain) label chain m items).2 = parts.flatMap (·.diagnostics) ∧
      (r.mergeItems (r.deeper chain) label chain m items).1.merged.definitions =
        m.merged.definitions ++ parts.flatMap (·.definitions) := by
  induction items generalizing m with
  | nil => exact ⟨[], .nil _, rfl, (List.append_nil _).symm⟩
  | cons item rest ih =>
    obtain ⟨part, hpart, hfound, hown, htaken, hdefs⟩ :=
      contributes_mergeItem hincluded label m item
    obtain ⟨parts, hparts, hdiagnostics, hdefinitions⟩ :=
      ih (r.mergeItem (r.deeper chain) label chain m item).1
    rw [hown, htaken] at hparts
    rw [mergeItems_cons]
    refine ⟨part :: parts, .cons hpart hparts, ?_, ?_⟩
    · rw [List.flatMap_cons, hfound, hdiagnostics]
    · rw [List.flatMap_cons, hdefinitions, hdefs, List.append_assoc]

/-- An item contributes one thing only. -/
theorem Contributes.unique {part' : Contribution}
    (h : r.Contributes label chain own taken item part)
    (h' : r.Contributes label chain own taken item part') : part = part' := by
  cases h with
  | object o line =>
    cases h'
    rfl
  | group name =>
    cases h'
    rfl
  | followed hfollows =>
    cases h' with
    | followed hfollows' =>
      have hsame := (follow_of_follows hfollows).symm.trans (follow_of_follows hfollows')
      rw [Except.ok.inj hsame]
    | refused hrefuses' => exact absurd hrefuses' hfollows.not_refuses
  | refused hrefuses =>
    cases h' with
    | followed hfollows' => exact absurd hrefuses hfollows'.not_refuses
    | refused hrefuses' =>
      have hsame := (follow_of_refuses hrefuses).symm.trans (follow_of_refuses hrefuses')
      rw [Except.error.inj hsame]

/-- Every contribution is that of an item. -/
theorem ContributesAll.exists_of_mem (h : r.ContributesAll label chain own taken items parts)
    (hpart : part ∈ parts) :
    ∃ item ∈ items, ∃ taken, r.Contributes label chain own taken item part := by
  induction h with
  | nil => cases hpart
  | @cons taken item items _ _ hhead _ ih =>
    rcases List.mem_cons.mp hpart with rfl | hpart
    · exact ⟨item, List.mem_cons_self, taken, hhead⟩
    · obtain ⟨item, hitem, hcontributes⟩ := ih hpart
      exact ⟨item, List.mem_cons_of_mem _ hitem, hcontributes⟩

/-- No contribution brings a key twice or one that is taken already, and only objects of the source
itself bring keys of theirs. -/
theorem Contributes.nodup (h : r.Contributes label chain own taken item part)
    (hincluded : r.IncludesDistinct chain)
    (hfresh : ∀ k ∈ item.key?, k ∉ taken) :
    part.keys.Nodup ∧ (∀ k ∈ part.keys, k ∉ taken) ∧ ∀ k ∈ part.keys, k ∈ own → k ∈ item.key? := by
  cases h with
  | object o line =>
    refine ⟨List.nodup_singleton _, fun k hk => ?_, fun k hk _ => ?_⟩
    · exact hfresh k (Option.mem_some.mpr (List.mem_singleton.mp hk).symm)
    · exact Option.mem_some.mpr (List.mem_singleton.mp hk).symm
  | group _ | refused _ =>
    exact ⟨List.nodup_nil, fun _ hk => absurd hk List.not_mem_nil,
      fun _ hk => absurd hk List.not_mem_nil⟩
  | @followed d text hfollows =>
    have hadmitted : ∀ k ∈ ((r.included chain d text).1.definitions.filter
        (Definition.IsAdmitted (d.removed.map Text.lookupKey) own taken ·)).map Definition.key,
        k ∉ own ∧ k ∉ taken := by
      intro k hk
      obtain ⟨e, he, rfl⟩ := List.mem_map.mp hk
      exact (of_decide_eq_true (List.mem_filter.mp he).2).2
    refine ⟨(hincluded d text hfollows).sublist (List.filter_sublist.map _), ?_, ?_⟩
    · exact fun k hk => (hadmitted k hk).2
    · exact fun k hk hown => absurd hown (hadmitted k hk).1

/-- **Contributions keep all keys distinct**, if the keys of the objects among the items are the
source's own, distinct, and not taken yet. -/
theorem ContributesAll.nodup (h : r.ContributesAll label chain own taken items parts)
    (hincluded : r.IncludesDistinct chain)
    (hown : ∀ k ∈ items.filterMap Item.key?, k ∈ own)
    (hitems : (items.filterMap Item.key?).Nodup)
    (hfresh : ∀ k ∈ items.filterMap Item.key?, k ∉ taken) (htaken : taken.Nodup) :
    (taken ++ parts.flatMap (·.keys)).Nodup := by
  induction h with
  | nil taken => rwa [List.flatMap_nil, List.append_nil]
  | @cons taken item items part parts hpart _ ih =>
    -- the keys of the items are those of the first and those of the rest
    have hkeys : (item :: items).filterMap Item.key? =
        item.key?.toList ++ items.filterMap Item.key? := by
      cases hkey : item.key? <;> simp [hkey]
    rw [hkeys] at hown hitems hfresh
    obtain ⟨-, hrest, hdisjoint⟩ := List.nodup_append.mp hitems
    obtain ⟨hnodup, hnew, hmine⟩ := hpart.nodup hincluded
      fun k hk => hfresh k (List.mem_append_left _ (Option.mem_toList.mpr hk))
    rw [List.flatMap_cons, ← List.append_assoc]
    refine ih (fun k hk => hown k (List.mem_append_right _ hk)) hrest (fun k hk hmem => ?_) ?_
    · rcases List.mem_append.mp hmem with hmem | hmem
      · exact hfresh k (List.mem_append_right _ hk) hmem
      · -- the first item can only have taken the key if it is that of its own object
        have hfirst := hmine k hmem (hown k (List.mem_append_right _ hk))
        exact hdisjoint k (Option.mem_toList.mpr hfirst) k hk rfl
    · exact htaken.append hnodup fun k hk hmem => hnew k hmem hk

end Resolver

end DataDictionary
