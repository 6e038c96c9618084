import DataDictionary.Proofs.Contributions
import DataDictionary.Proofs.Landmarks
import DataDictionary.Proofs.Outcomes

/-!
# The groups of a dictionary

Put every source that is included in the place of its inclusion, and what is left of all landmarks
is one sequence of group names (`Meets`). The groups of a dictionary are that sequence with each
name where it stands first (`Outcome.groups_complete`). Merging gets there level by level: it takes
over the groups of an included source when that source is finished and repeats no name any more.
That makes no difference, since a name that is dropped early would have been dropped later.

The objects of a dictionary come from the sources that are read on the way (`Reads`). Each of them
has the group that was in force at its name in its own source, no matter what was included above it
or where that source was included. So the group is one that was met.
-/

namespace DataDictionary

/-! ## First appearances -/

theorem eraseDups_concat (names : List String) (name : String) :
    (names ++ [name]).eraseDups =
      if name ∈ names then names.eraseDups else names.eraseDups ++ [name] := by
  rw [List.eraseDups_append]
  by_cases h : name ∈ names <;> simp [List.removeAll, List.eraseDups_cons, h]

theorem nodup_eraseDups (names : List String) : names.eraseDups.Nodup := by
  induction names using List.reverseRecOn with
  | nil => exact List.nodup_nil
  | append_singleton names name ih =>
    rw [eraseDups_concat]
    split
    · exact ih
    · next h =>
      exact ih.append (List.nodup_singleton name) (by simpa using h)

/-- What is repeated may be dropped before more is put in front. -/
theorem eraseDups_append_eraseDups (names more : List String) :
    (names ++ more.eraseDups).eraseDups = (names ++ more).eraseDups := by
  induction more using List.reverseRecOn with
  | nil => rfl
  | append_singleton more name ih =>
    rw [eraseDups_concat more, ← List.append_assoc, eraseDups_concat (names ++ more)]
    by_cases h : name ∈ more
    · rw [if_pos h, if_pos (List.mem_append_right _ h), ih]
    · have hsame : name ∈ names ++ more.eraseDups ↔ name ∈ names ++ more := by
        simp [List.mem_eraseDups]
      rw [if_neg h, ← List.append_assoc, eraseDups_concat, ih]
      simp only [hsame]

namespace Merging

variable {m : Merging} {names : List String}

theorem groups_addGroup (h : m.merged.groups = names.eraseDups) (name : String) :
    (m.addGroup name).merged.groups = (names ++ [name]).eraseDups := by
  have hknown : m.merged.groups.contains name = true ↔ name ∈ names := by
    rw [h, List.contains_iff_mem, List.mem_eraseDups]
  unfold addGroup
  rw [eraseDups_concat]
  by_cases hname : name ∈ names
  · rw [if_pos (hknown.mpr hname), if_pos hname, h]
  · rw [if_neg (mt hknown.mp hname), if_neg hname, ← h]

theorem groups_foldl_addGroup (h : m.merged.groups = names.eraseDups) (more : List String) :
    (more.foldl addGroup m).merged.groups = (names ++ more).eraseDups := by
  induction more generalizing m names with
  | nil => rw [List.append_nil, ← h]; rfl
  | cons name more ih => rw [List.foldl_cons, ih (groups_addGroup h name), List.append_assoc]; rfl

/-- Definitions come in without their groups. -/
theorem groups_addIncluded (source : String) (removed : List String) (m : Merging)
    (definitions : List Definition) :
    (addIncluded source removed m definitions).1.merged.groups = m.merged.groups := by
  induction definitions generalizing m with
  | nil => rfl
  | cons d rest ih =>
    unfold addIncluded
    split
    · exact ih m
    · split
      · exact ih m
      · exact ih (m.add d)

theorem groups_absorb {included : Merged} {met : List String} (d : Inclusion)
    (h : m.merged.groups = names.eraseDups) (hincluded : included.groups = met.eraseDups) :
    (m.absorb d included).1.merged.groups = (names ++ met).eraseDups := by
  unfold absorb
  dsimp only
  rw [groups_foldl_addGroup ((groups_addIncluded d.source _ m _).trans h), hincluded,
    eraseDups_append_eraseDups]

end Merging

namespace Resolver

/-! ## The groups that are met -/

/-- The names of the groups that are met in reading landmarks at the end of a chain, with the
landmarks of every source that is followed in the place of its inclusion. -/
inductive Meets (r : Resolver) : (chain : List String) → List Landmark → List String → Prop where
  | nil (chain : List String) : Meets r chain [] []
  | group {chain : List String} {rest : List Landmark} {names : List String} (name : String) :
      Meets r chain rest names → Meets r chain (.group name :: rest) (name :: names)
  | followed {chain : List String} {d : Inclusion} {text : String} {rest : List Landmark}
      {inner names : List String} :
      r.Follows chain d text → Meets r (chain ++ [d.source]) (Landmark.ofText text) inner →
      Meets r chain rest names → Meets r chain (.inclusion d :: rest) (inner ++ names)
  | passed {chain : List String} {d : Inclusion} {rest : List Landmark} {names : List String} :
      (∀ text, ¬ r.Follows chain d text) →
      Meets r chain rest names → Meets r chain (.inclusion d :: rest) names

variable {r : Resolver} {chain : List String} {d : Inclusion} {text : String}

/-- Where an inclusion leads depends on nothing but the name of the source. -/
theorem Follows.of_source {d' : Inclusion} (h : r.Follows chain d text)
    (hsource : d'.source = d.source) : r.Follows chain d' text :=
  ⟨h.enabled, hsource ▸ h.fresh, h.short, hsource ▸ h.loads⟩

theorem Follows.unique {text' : String} (h : r.Follows chain d text)
    (h' : r.Follows chain d text') : text = text' := by
  obtain ⟨load, hloader, htext⟩ := h.loads
  obtain ⟨load', hloader', htext'⟩ := h'.loads
  obtain rfl : load = load' := Option.some.inj (hloader.symm.trans hloader')
  exact Except.ok.inj (htext.symm.trans htext')

/-- Every source meets some groups. -/
theorem exists_meets (r : Resolver) (chain : List String) (text : String) :
    ∃ names, r.Meets chain (Landmark.ofText text) names := by
  refine expand_induction r
    (C := fun _ chain text => ∃ names, r.Meets chain (Landmark.ofText text) names)
    (fun _ chain text ih => ?_) none chain text
  induction Landmark.ofText text with
  | nil => exact ⟨[], .nil chain⟩
  | cons landmark rest hrest =>
    obtain ⟨names, hnames⟩ := hrest
    cases landmark with
    | group name => exact ⟨name :: names, .group name hnames⟩
    | inclusion d =>
      by_cases h : ∃ inner, r.Follows chain d inner
      · obtain ⟨inner, hfollows⟩ := h
        obtain ⟨met, hmet⟩ := ih d inner hfollows
        exact ⟨met ++ names, .followed hfollows hmet hnames⟩
      · exact ⟨names, .passed (not_exists.mp h) hnames⟩

/-- Items add the groups that their landmarks meet, as soon as included sources do. -/
theorem groups_mergeItems {items : List Item} {met names : List String} {m : Merging}
    (hincluded : ∀ d text met, r.Follows chain d text →
      r.Meets (chain ++ [d.source]) (Landmark.ofText text) met →
      (r.included chain d text).1.groups = met.eraseDups)
    (label : Option String) (hmet : r.Meets chain (items.filterMap Item.landmark?) met)
    (hm : m.merged.groups = names.eraseDups) :
    (r.mergeItems (r.deeper chain) label chain m items).1.merged.groups =
      (names ++ met).eraseDups := by
  induction items generalizing met names m with
  | nil =>
    cases hmet
    rw [List.append_nil, ← hm]
    rfl
  | cons item rest ih =>
    rw [mergeItems_cons]
    cases item with
    | object o line => exact ih hmet hm
    | group name =>
      cases hmet with
      | group _ hrest =>
        have h := ih hrest (Merging.groups_addGroup hm name)
        rwa [List.append_assoc] at h
    | inclusion d =>
      rw [mergeItem, mergeInclusion]
      cases hmet with
      | @followed _ _ text _ inner later hfollows hinner hrest =>
        have hd : r.Follows chain d text := hfollows.of_source rfl
        rw [follow_of_follows hd]
        have h := ih hrest (Merging.groups_absorb d hm (hincluded d text inner hd hinner))
        rwa [List.append_assoc] at h
      | passed hnot hrest =>
        rcases follows_or_refuses r chain d with ⟨text, hfollows⟩ | ⟨p, hrefuses⟩
        · have hd : r.Follows chain { d with removed := [] } text := hfollows.of_source rfl
          exact absurd hd (hnot text)
        · rw [follow_of_refuses hrefuses]
          exact ih hrest hm

/-- **A merged source has the groups that it meets, each where it is met first.** -/
theorem groups_expand {met : List String} (label : Option String)
    (h : r.Meets chain (Landmark.ofText text) met) :
    (r.expand label chain (.ofText text)).1.groups = met.eraseDups := by
  refine expand_induction r
    (C := fun label chain text => ∀ met, r.Meets chain (Landmark.ofText text) met →
      (r.expand label chain (.ofText text)).1.groups = met.eraseDups)
    (fun label chain text ih met h => ?_) label chain text met h
  rw [← Source.landmarks_items] at h
  rw [expand_eq]
  have hnone : ({ own := (Source.ofText text).ownKeys } : Merging).merged.groups =
      ([] : List String).eraseDups := rfl
  exact groups_mergeItems (fun d inner met hfollows => ih d inner hfollows met) label h hnone

/-! ## The sources of objects -/

/-- The texts that are read in reading a text at the end of a chain: the text itself, and what is
read in reading the sources that are followed from there. -/
inductive Reads (r : Resolver) : (chain : List String) → (text origin : String) → Prop where
  | self (chain : List String) (text : String) : Reads r chain text text
  | followed {chain : List String} {d : Inclusion} {text inner origin : String} :
      .inclusion d ∈ Landmark.ofText text → r.Follows chain d inner →
      Reads r (chain ++ [d.source]) inner origin → Reads r chain text origin

/-- Every definition is an object of a source that is read. -/
theorem reads_of_mem_expand {label : Option String} {x : Definition}
    (h : x ∈ (r.expand label chain (.ofText text)).1.definitions) :
    ∃ origin, r.Reads chain text origin ∧
      .object x.object x.line ∈ (Source.ofText origin).items := by
  refine expand_induction r
    (C := fun label chain text => x ∈ (r.expand label chain (.ofText text)).1.definitions →
      ∃ origin, r.Reads chain text origin ∧
        .object x.object x.line ∈ (Source.ofText origin).items)
    (fun label chain text ih h => ?_) label chain text h
  obtain ⟨parts, hparts, hdefinitions, -⟩ := r.expand_contributions label chain (.ofText text)
  rw [hdefinitions] at h
  obtain ⟨part, hpart, hx⟩ := List.mem_flatMap.mp h
  obtain ⟨item, hitem, taken, hcontributes⟩ := hparts.exists_of_mem hpart
  cases hcontributes with
  | object o line =>
    rw [List.mem_singleton.mp hx]
    exact ⟨text, .self chain text, hitem⟩
  | group _ | refused _ => cases hx
  | @followed d inner hfollows =>
    obtain ⟨origin, hreads, hobject⟩ := ih d inner hfollows (List.mem_filter.mp hx).1
    have hlandmark : .inclusion { d with removed := [] } ∈ Landmark.ofText text := by
      rw [← Source.landmarks_items]
      exact List.mem_filterMap.mpr ⟨_, hitem, rfl⟩
    exact ⟨origin, .followed hlandmark (hfollows.of_source rfl) hreads, hobject⟩

/-- What is met in a source that is followed is met where it is included. -/
theorem Meets.of_followed {landmarks : List Landmark} {met : List String}
    (h : r.Meets chain landmarks met) (hd : .inclusion d ∈ landmarks)
    (hfollows : r.Follows chain d text) :
    ∃ inner, r.Meets (chain ++ [d.source]) (Landmark.ofText text) inner ∧ inner ⊆ met := by
  induction landmarks generalizing met with
  | nil => cases hd
  | cons landmark rest ih =>
    rcases List.mem_cons.mp hd with rfl | hrest
    · cases h with
      | @followed _ _ text' _ inner names hfollows' hinner _ =>
        rw [hfollows.unique hfollows']
        exact ⟨inner, hinner, List.subset_append_left _ _⟩
      | passed hnot _ => exact absurd hfollows (hnot text)
    · cases h with
      | group name h =>
        obtain ⟨inner, hinner, hsubset⟩ := ih h hrest
        exact ⟨inner, hinner, List.subset_cons_of_subset _ hsubset⟩
      | followed _ _ h =>
        obtain ⟨inner, hinner, hsubset⟩ := ih h hrest
        exact ⟨inner, hinner, List.subset_append_of_subset_right _ hsubset⟩
      | passed _ h => exact ih h hrest

theorem Meets.mem_of_group {landmarks : List Landmark} {met : List String} {name : String}
    (h : r.Meets chain landmarks met) (hname : .group name ∈ landmarks) : name ∈ met := by
  induction landmarks generalizing met with
  | nil => cases hname
  | cons landmark rest ih =>
    rcases List.mem_cons.mp hname with rfl | hrest
    · cases h with
      | group _ _ => exact List.mem_cons_self
    · cases h with
      | group _ h => exact List.mem_cons_of_mem _ (ih h hrest)
      | followed _ _ h => exact List.mem_append_right _ (ih h hrest)
      | passed _ h => exact ih h hrest

/-- Every group that begins in a source that is read is met. -/
theorem Reads.mem_meets {origin : String} {met : List String} {name : String}
    (h : r.Reads chain text origin) (hname : .group name ∈ Landmark.ofText origin)
    (hmet : r.Meets chain (Landmark.ofText text) met) : name ∈ met := by
  induction h generalizing met with
  | self chain text => exact hmet.mem_of_group hname
  | followed hd hfollows _ ih =>
    obtain ⟨inner, hinner, hsubset⟩ := hmet.of_followed hd hfollows
    exact hsubset (ih hname hinner)

end Resolver

namespace Outcome

open Resolver

/-- **Groups are complete, and in the order of their first appearance.** The groups of a dictionary
are all that are met, without repetition; and every object of it, the one for free comments apart,
was declared in a source that was read and has the last group in front of its name there, if one is.
-/
theorem groups_complete (settings : Settings) (loader : Option Loader) (text : String) :
    let r : Resolver := ⟨loader, settings⟩
    let chain := [settings.sourceName.getD anonymous]
    let d := (ofText settings loader text).dictionary
    (∃ met, r.Meets chain (Landmark.ofText text) met) ∧
    (∀ met, r.Meets chain (Landmark.ofText text) met → d.groups = met.eraseDups) ∧
    d.groups.Nodup ∧
    ∀ o ∈ d.objects,
      (∀ g, o.group = some g → g ∈ d.groups) ∧
      ((o = commentOnly.object.numbered ∧ o.group = none) ∨
        ∃ origin own line, r.Reads chain text origin ∧
          .object own line ∈ (Source.ofText origin).items ∧ o = own.numbered ∧
          (∃ above, Source.IsDeclaredBelow origin own line above) ∧
          ∀ above, Source.IsDeclaredBelow origin own line above →
            o.group = Token.lastGroup? above) := by
  intro r chain d
  have hgroups : ∀ met, r.Meets chain (Landmark.ofText text) met → d.groups = met.eraseDups :=
    fun met hmet => (groups_ofText settings loader text).trans (groups_expand _ hmet)
  obtain ⟨met, hmet⟩ := r.exists_meets chain text
  refine ⟨⟨met, hmet⟩, hgroups, hgroups met hmet ▸ nodup_eraseDups met, fun o ho => ?_⟩
  rw [objects_ofText] at ho
  obtain ⟨x, hx, rfl⟩ := List.mem_map.mp ho
  rcases settings.mem_complete hx with rfl | hx
  · exact ⟨fun g hg => (by cases hg), .inl ⟨rfl, rfl⟩⟩
  · obtain ⟨origin, hreads, hitem⟩ := reads_of_mem_expand hx
    obtain ⟨⟨above, habove⟩, hgroup⟩ := Source.group_of_item hitem
    refine ⟨fun g hg => ?_,
      .inr ⟨origin, x.object, x.line, hreads, hitem, rfl, ⟨above, habove⟩, hgroup⟩⟩
    -- the group begins in the source of the object, and all that begins there is met
    obtain ⟨t, below, htokens, hname⟩ := habove
    have hlandmark : .group g ∈ Landmark.ofText origin := by
      rw [Landmark.ofText, htokens, List.filterMap_append]
      refine List.mem_append_left _ (Token.mem_of_lastGroup? ?_)
      rw [← hgroup above ⟨t, below, htokens, hname⟩]
      exact hg
    rw [hgroups met hmet, List.mem_eraseDups]
    exact hreads.mem_meets hlandmark hmet

/-- Behind an inclusion the group is the one that was in force before it. -/
example :
    let load : Loader := fun _ => .ok "In;\n\\group Rooms\nWall;\n\\group Zones\nRoof;\n"
    let d := (ofText { insertCommentOnlyObject := false } (some load)
      "\\group Zones\nOne;\n\\include-file lib.idd\nTwo;\n\\group Last\n").dictionary
    d.groups = ["Zones", "Rooms", "Last"] ∧
    d.objects.map (fun o => (o.name, o.group)) =
      [("One", some "Zones"), ("In", none), ("Wall", some "Rooms"), ("Roof", some "Zones"),
       ("Two", some "Zones")] := by decide +kernel

end Outcome

end DataDictionary
