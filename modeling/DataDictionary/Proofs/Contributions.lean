import DataDictionary.Proofs.Merging
import DataDictionary.Proofs.Names

/-!
# Merged sources, contribution by contribution

Included sources were read from texts, so none of them keeps a name twice, and by induction along
the inclusions no merged source defines a key twice (`nodup_expand`). That discharges the one
condition under which items are merged in by their contributions, and a merged source is nothing but
the contributions of its items (`expand_contributions`).

The rest is read off. Every definition goes back to the source that it was read from
(`origin_of_mem_expand`). The objects of the source itself all come in, in their order, and an
inclusion that is not followed might as well not be there (`expand_exact`).
-/

namespace DataDictionary

open Text

/-- The keys of the objects of a source itself. -/
def Source.ownKeys (source : Source) : List String := source.objects.map fun o => lookupKey o.name

theorem Source.ownKeys_eq (source : Source) :
    source.ownKeys = source.items.filterMap Item.key? := by
  rw [ownKeys, objects, List.map_filterMap]
  rfl

/-- The definition that an object of a source itself becomes. -/
def Item.definition? (label : Option String) : Item → Option Definition
  | .object o line => some ⟨o, label, line⟩
  | _ => none

namespace Resolver

variable {r : Resolver} {label : Option String} {chain own taken : List String}
  {item : Item} {items : List Item} {part : Contribution} {parts : List Contribution}

/-- A source is merged from what its items contribute, as long as what it includes defines no key
twice. -/
theorem expand_contributions_of_nodup
    (hincluded : r.IncludesDistinct chain)
    (label : Option String) (source : Source) :
    ∃ parts, r.ContributesAll label chain source.ownKeys [] source.items parts ∧
      (r.expand label chain source).1.definitions = parts.flatMap (·.definitions) ∧
      (r.expand label chain source).2 =
        source.findings.map (·.report label) ++ parts.flatMap (·.diagnostics) := by
  obtain ⟨parts, hparts, hdiagnostics, hdefinitions⟩ :=
    contributesAll_mergeItems hincluded label { own := source.ownKeys } source.items
  refine ⟨parts, hparts, ?_, ?_⟩
  · rw [expand_eq]
    exact hdefinitions
  · rw [expand_eq, ← hdiagnostics]
    rfl

/-- **A source and everything it includes define no key twice.** -/
theorem nodup_expand (r : Resolver) (label : Option String) (chain : List String)
    (text : String) :
    ((r.expand label chain (.ofText text)).1.definitions.map Definition.key).Nodup := by
  refine expand_induction r
    (C := fun label chain text =>
      ((r.expand label chain (.ofText text)).1.definitions.map Definition.key).Nodup)
    (fun label chain text ih => ?_) label chain text
  obtain ⟨parts, hparts, hdefinitions, -⟩ :=
    expand_contributions_of_nodup ih label (Source.ofText text)
  have hown := (Source.ofText text).ownKeys_eq
  have hkeys := hparts.nodup ih (fun k hk => hown ▸ hk) (hown ▸ Source.nodup_keys text)
    (fun k _ => List.not_mem_nil) List.nodup_nil
  rw [hdefinitions, List.map_flatMap]
  exact hkeys

/-- **A source is merged from what its items contribute.** -/
theorem expand_contributions (r : Resolver) (label : Option String) (chain : List String)
    (source : Source) :
    ∃ parts, r.ContributesAll label chain source.ownKeys [] source.items parts ∧
      (r.expand label chain source).1.definitions = parts.flatMap (·.definitions) ∧
      (r.expand label chain source).2 =
        source.findings.map (·.report label) ++ parts.flatMap (·.diagnostics) :=
  expand_contributions_of_nodup (fun d text _ => r.nodup_expand (some d.source) _ text) label source

/-! ## Where definitions come from -/

/-- **Every definition was read from a source, and whatever that source complained about has been
reported under the name that the definition carries.** -/
theorem origin_of_mem_expand {text : String} {x : Definition}
    (h : x ∈ (r.expand label chain (.ofText text)).1.definitions) :
    ∃ origin, x.object ∈ (Source.ofText origin).objects ∧
      ∀ f ∈ (Source.ofText origin).findings,
        f.report x.source ∈ (r.expand label chain (.ofText text)).2 := by
  refine expand_induction r
    (C := fun label chain text => x ∈ (r.expand label chain (.ofText text)).1.definitions →
      ∃ origin, x.object ∈ (Source.ofText origin).objects ∧
        ∀ f ∈ (Source.ofText origin).findings,
          f.report x.source ∈ (r.expand label chain (.ofText text)).2)
    (fun label chain text ih h => ?_) label chain text h
  obtain ⟨parts, hparts, hdefinitions, hdiagnostics⟩ :=
    r.expand_contributions label chain (Source.ofText text)
  rw [hdefinitions] at h
  obtain ⟨part, hpart, hx⟩ := List.mem_flatMap.mp h
  obtain ⟨item, hitem, taken, hcontributes⟩ := hparts.exists_of_mem hpart
  rw [hdiagnostics]
  cases hcontributes with
  | object o line =>
    -- the source's own findings stand in front
    rw [List.mem_singleton.mp hx]
    refine ⟨text, List.mem_filterMap.mpr ⟨_, hitem, rfl⟩, fun f hf => ?_⟩
    exact List.mem_append_left _ (List.mem_map_of_mem hf)
  | group _ | refused _ => cases hx
  | @followed d text' hfollows =>
    obtain ⟨origin, hobject, hreported⟩ := ih d text' hfollows (List.mem_filter.mp hx).1
    refine ⟨origin, hobject, fun f hf => List.mem_append_right _ ?_⟩
    exact List.mem_flatMap.mpr ⟨_, hpart, List.mem_append_left _ (hreported f hf)⟩

/-! ## Neither lost nor overridden -/

/-- Each item is taken with what the items before it have contributed. -/
theorem ContributesAll.at_position (h : r.ContributesAll label chain own taken items parts) :
    parts.length = items.length ∧
      ∀ i item part, items[i]? = some item → parts[i]? = some part →
        r.Contributes label chain own
          (taken ++ ((parts.take i).flatMap (·.definitions)).map Definition.key) item part := by
  induction h with
  | nil taken => exact ⟨rfl, fun i item part hitem => by simp at hitem⟩
  | @cons taken item items part parts hhead _ ih =>
    obtain ⟨hlength, hrest⟩ := ih
    refine ⟨?_, fun i item' part' hitem hpart => ?_⟩
    · rw [List.length_cons, List.length_cons, hlength]
    · cases i with
      | zero =>
        cases hitem
        cases hpart
        simpa using hhead
      | succ i =>
        have hlater := hrest i item' part' hitem hpart
        rwa [List.take_succ_cons, List.flatMap_cons, List.map_append, ← List.append_assoc]

/-- The objects of the source itself are all among what is contributed, in their order. -/
theorem ContributesAll.own_sublist (h : r.ContributesAll label chain own taken items parts) :
    (items.filterMap (Item.definition? label)).Sublist (parts.flatMap (·.definitions)) := by
  induction h with
  | nil _ => exact .slnil
  | cons hhead _ ih =>
    rw [List.flatMap_cons]
    cases hhead with
    | object o line => exact ih.cons_cons _
    | group _ | refused _ | followed _ => exact ih.trans (List.sublist_append_right _ _)

/-- **An inclusion that is not followed leaves one diagnostic and nothing else behind.** -/
theorem expand_of_refuses {source : Source} {before after : List Item} {d : Inclusion}
    {p : Problem} (hitems : source.items = before ++ .inclusion d :: after)
    (h : r.Refuses chain d p) :
    ∃ earlier later,
      (r.expand label chain source).2 = earlier ++ p.report ⟨label, d.line⟩ :: later ∧
      r.expand label chain { source with items := before ++ after } =
        ((r.expand label chain source).1, earlier ++ later) := by
  have hown : source.ownKeys = Source.ownKeys { source with items := before ++ after } := by
    rw [Source.ownKeys_eq, Source.ownKeys_eq, hitems, List.filterMap_append, List.filterMap_append]
    rfl
  have hskip : ∀ m, r.mergeItem (r.deeper chain) label chain m (.inclusion d) =
      (m, [p.report ⟨label, d.line⟩]) := by
    intro m
    rw [mergeItem, mergeInclusion, follow_of_refuses h]
  -- merging passes through the same states with the inclusion and without it
  let start : Merging := { own := source.ownKeys }
  let middle := r.mergeItems (r.deeper chain) label chain start before
  let last := r.mergeItems (r.deeper chain) label chain middle.1 after
  have hwith : r.expand label chain source =
      (last.1.merged, source.findings.map (·.report label) ++
        (middle.2 ++ p.report ⟨label, d.line⟩ :: last.2)) := by
    rw [expand_eq]
    show ((r.mergeItems _ label chain start source.items).1.merged,
      _ ++ (r.mergeItems _ label chain start source.items).2) = _
    rw [hitems, mergeItems_append, mergeItems_cons, hskip]
    rfl
  have hwithout : r.expand label chain { source with items := before ++ after } =
      (last.1.merged, source.findings.map (·.report label) ++ (middle.2 ++ last.2)) := by
    rw [expand_eq]
    show ((r.mergeItems _ label chain { own := Source.ownKeys _ } (before ++ after)).1.merged,
      _ ++ (r.mergeItems _ label chain { own := Source.ownKeys _ } (before ++ after)).2) = _
    rw [← hown, mergeItems_append]
  refine ⟨source.findings.map (·.report label) ++ middle.2, last.2, ?_, ?_⟩
  · rw [hwith, List.append_assoc]
  · rw [hwith, hwithout, List.append_assoc]

/-- **Merging neither loses nor overrides.** A merged source consists of what its items contribute,
each at its position; the objects of the source itself stand in it as they are; and an inclusion
that is not followed changes nothing but the diagnostics, and these by one. -/
theorem expand_exact (r : Resolver) (label : Option String) (chain : List String)
    (source : Source) :
    (∃ parts : List Contribution, parts.length = source.items.length ∧
      (r.expand label chain source).1.definitions = parts.flatMap (·.definitions) ∧
      (r.expand label chain source).2 =
        source.findings.map (·.report label) ++ parts.flatMap (·.diagnostics) ∧
      ∀ i item part, source.items[i]? = some item → parts[i]? = some part →
        r.Contributes label chain source.ownKeys
          (((parts.take i).flatMap (·.definitions)).map Definition.key) item part) ∧
    (source.items.filterMap (Item.definition? label)).Sublist
      (r.expand label chain source).1.definitions ∧
    ∀ before d after p, source.items = before ++ .inclusion d :: after → r.Refuses chain d p →
      ∃ earlier later,
        (r.expand label chain source).2 = earlier ++ p.report ⟨label, d.line⟩ :: later ∧
        r.expand label chain { source with items := before ++ after } =
          ((r.expand label chain source).1, earlier ++ later) := by
  obtain ⟨parts, hparts, hdefinitions, hdiagnostics⟩ := r.expand_contributions label chain source
  obtain ⟨hlength, hposition⟩ := hparts.at_position
  refine ⟨⟨parts, hlength, hdefinitions, hdiagnostics, hposition⟩, ?_, ?_⟩
  · rw [hdefinitions]
    exact hparts.own_sublist
  · intro before d after p hitems hrefuses
    exact expand_of_refuses hitems hrefuses

end Resolver

end DataDictionary
