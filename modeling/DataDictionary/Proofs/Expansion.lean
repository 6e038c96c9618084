import DataDictionary.Inclusion
import Mathlib.Data.List.Basic

/-!
# Following inclusions by their chain

Sources are merged by recursion on how much deeper inclusions may still be nested. All that depth
ever says is how long the chain has become, so the recursion can be told without it: `expand` takes
the chain alone, and `expand_eq` is the equation it satisfies. An inclusion is either followed or
refused, and `Follows` and `Refuses` spell out when; `follows_or_refuses` says that there is no
third case.
-/

namespace DataDictionary

namespace Resolver

/-- Merges a source at the end of a chain with what it includes. -/
def expand (r : Resolver) : Merger := fun label chain source =>
  r.resolve (r.settings.maxIncludeDepth + 1 - chain.length) label chain source

/-- What merges the sources that a source at the end of the chain includes. -/
def deeper (r : Resolver) (chain : List String) : Option Merger :=
  if chain.length ≤ r.settings.maxIncludeDepth then some r.expand else none

/-- The outermost source is merged at the end of a chain that consists of itself. -/
theorem resolve_eq_expand (r : Resolver) (label : Option String) (root : String)
    (source : Source) :
    r.resolve r.settings.maxIncludeDepth label [root] source = r.expand label [root] source := by
  rw [expand, List.length_singleton, Nat.add_sub_cancel]

/-- Merges a single item in. -/
def mergeItem (r : Resolver) (deep : Option Merger) (label : Option String) (chain : List String)
    (m : Merging) : Item → Merging × Diagnostics
  | .object o line => (m.add ⟨o, label, line⟩, [])
  | .group name => (m.addGroup name, [])
  | .inclusion d => r.mergeInclusion deep label chain m d

/-- Items are merged in one by one. -/
theorem mergeItems_cons (r : Resolver) (deep : Option Merger) (label : Option String)
    (chain : List String) (m : Merging) (item : Item) (rest : List Item) :
    r.mergeItems deep label chain m (item :: rest) =
      ((r.mergeItems deep label chain (r.mergeItem deep label chain m item).1 rest).1,
       (r.mergeItem deep label chain m item).2 ++
         (r.mergeItems deep label chain (r.mergeItem deep label chain m item).1 rest).2) := by
  cases item <;> rfl

theorem mergeItems_append (r : Resolver) (deep : Option Merger) (label : Option String)
    (chain : List String) (m : Merging) (before after : List Item) :
    r.mergeItems deep label chain m (before ++ after) =
      ((r.mergeItems deep label chain (r.mergeItems deep label chain m before).1 after).1,
       (r.mergeItems deep label chain m before).2 ++
         (r.mergeItems deep label chain (r.mergeItems deep label chain m before).1 after).2) := by
  induction before generalizing m with
  | nil => rfl
  | cons item rest ih =>
    rw [List.cons_append, mergeItems_cons, mergeItems_cons, ih, List.append_assoc]

/-- Merging depends on what is deeper only through the inclusions that are followed. -/
theorem mergeItems_congr {r : Resolver} {deep deep' : Option Merger} {chain : List String}
    (h : ∀ d, r.follow deep chain d = r.follow deep' chain d) (label : Option String)
    (m : Merging) (items : List Item) :
    r.mergeItems deep label chain m items = r.mergeItems deep' label chain m items := by
  induction items generalizing m with
  | nil => rfl
  | cons item rest ih =>
    have hone : r.mergeItem deep label chain m item = r.mergeItem deep' label chain m item := by
      cases item with
      | object o line => rfl
      | group name => rfl
      | inclusion d => rw [mergeItem, mergeItem, mergeInclusion, mergeInclusion, h d]
    rw [mergeItems_cons, mergeItems_cons, hone, ih]

theorem mergeSource_congr {r : Resolver} {deep deep' : Option Merger} {chain : List String}
    (h : ∀ d, r.follow deep chain d = r.follow deep' chain d) (label : Option String)
    (source : Source) :
    r.mergeSource deep label chain source = r.mergeSource deep' label chain source := by
  rw [mergeSource, mergeSource, mergeItems_congr h]

/-- Only the chain that leads to the included source matters to what is deeper. -/
theorem follow_congr {r : Resolver} {deep deep' : Merger} {chain : List String} {d : Inclusion}
    (h : ∀ source, deep (some d.source) (chain ++ [d.source]) source =
      deep' (some d.source) (chain ++ [d.source]) source) :
    r.follow (some deep) chain d = r.follow (some deep') chain d := by
  unfold follow
  simp only [h]

/-- **The recursion along the chain.** -/
theorem expand_eq (r : Resolver) (label : Option String) (chain : List String) (source : Source) :
    r.expand label chain source = r.mergeSource (r.deeper chain) label chain source := by
  unfold expand deeper
  by_cases hlen : chain.length ≤ r.settings.maxIncludeDepth
  · -- the chain gets longer by one as the depth gets smaller by one
    obtain ⟨depth, hdepth⟩ := Nat.exists_eq_add_of_le hlen
    have hsucc : r.settings.maxIncludeDepth + 1 - chain.length = depth + 1 := by omega
    rw [hsucc, resolve, if_pos hlen]
    refine mergeSource_congr (fun d => follow_congr fun included => ?_) label source
    have hsame : r.settings.maxIncludeDepth + 1 - (chain ++ [d.source]).length = depth := by
      rw [List.length_append, List.length_singleton]
      omega
    rw [expand, hsame]
  · have hzero : r.settings.maxIncludeDepth + 1 - chain.length = 0 := by omega
    rw [hzero, resolve, if_neg hlen]

/-! ## When an inclusion is followed -/

/-- An inclusion is followed to a text: nothing is in its way, and the text loads. -/
structure Follows (r : Resolver) (chain : List String) (d : Inclusion) (text : String) : Prop where
  enabled : r.settings.resolveIncludes = true
  fresh : d.source ∉ chain
  short : chain.length ≤ r.settings.maxIncludeDepth
  loads : ∃ load, r.loader = some load ∧ load d.source = .ok text

/-- The reasons for which an inclusion is not followed, each in force only if those before it are
not. -/
inductive Refuses (r : Resolver) (chain : List String) (d : Inclusion) : Problem → Prop where
  | disabled : r.settings.resolveIncludes = false → Refuses r chain d (.inclusionDisabled d.source)
  | noLoader : r.settings.resolveIncludes = true → r.loader = none →
      Refuses r chain d (.inclusionWithoutLoader d.source)
  | cycle {load : Loader} : r.settings.resolveIncludes = true → r.loader = some load →
      d.source ∈ chain → Refuses r chain d (.inclusionCycle (chain ++ [d.source]))
  | tooDeep {load : Loader} : r.settings.resolveIncludes = true → r.loader = some load →
      d.source ∉ chain → r.settings.maxIncludeDepth < chain.length →
      Refuses r chain d (.inclusionFailed (.tooDeep d.source r.settings.maxIncludeDepth))
  | unloadable {load : Loader} {fault : SourceFault} : r.settings.resolveIncludes = true →
      r.loader = some load → d.source ∉ chain →
      chain.length ≤ r.settings.maxIncludeDepth → load d.source = .error fault →
      Refuses r chain d (.inclusionFailed fault)

variable {r : Resolver} {chain : List String} {d : Inclusion} {text : String} {p : Problem}

/-- **Every inclusion is followed or refused.** -/
theorem follows_or_refuses (r : Resolver) (chain : List String) (d : Inclusion) :
    (∃ text, r.Follows chain d text) ∨ ∃ p, r.Refuses chain d p := by
  cases henabled : r.settings.resolveIncludes with
  | false => exact .inr ⟨_, .disabled henabled⟩
  | true =>
    cases hloader : r.loader with
    | none => exact .inr ⟨_, .noLoader henabled hloader⟩
    | some load =>
      by_cases hcycle : d.source ∈ chain
      · exact .inr ⟨_, .cycle henabled hloader hcycle⟩
      · rcases Nat.lt_or_ge r.settings.maxIncludeDepth chain.length with hdeep | hshort
        · exact .inr ⟨_, .tooDeep henabled hloader hcycle hdeep⟩
        · cases htext : load d.source with
          | error fault => exact .inr ⟨_, .unloadable henabled hloader hcycle hshort htext⟩
          | ok text => exact .inl ⟨text, henabled, hcycle, hshort, load, hloader, htext⟩

/-- What an inclusion brings when it is followed to a text: the included source, merged with all
that it includes itself. -/
def included (r : Resolver) (chain : List String) (d : Inclusion) (text : String) :
    Merged × Diagnostics :=
  r.expand (some d.source) (chain ++ [d.source]) (.ofText text)

theorem follow_of_follows (h : r.Follows chain d text) :
    r.follow (r.deeper chain) chain d = .ok (r.included chain d text) := by
  obtain ⟨load, hloader, htext⟩ := h.loads
  simp [follow, deeper, included, h.enabled, h.fresh, h.short, hloader, htext]

theorem follow_of_refuses (h : r.Refuses chain d p) :
    r.follow (r.deeper chain) chain d = .error p := by
  cases h with
  | disabled henabled => simp [follow, henabled]
  | noLoader henabled hloader => simp [follow, henabled, hloader]
  | cycle henabled hloader hcycle => simp [follow, henabled, hloader, hcycle]
  | tooDeep henabled hloader hcycle hdeep =>
    simp [follow, deeper, henabled, hloader, hcycle, Nat.not_le.mpr hdeep]
  | unloadable henabled hloader hcycle hshort htext =>
    simp [follow, deeper, henabled, hloader, hcycle, hshort, htext]

/-- No inclusion is both followed and refused. -/
theorem Follows.not_refuses (h : r.Follows chain d text) : ¬ r.Refuses chain d p := by
  intro hrefuses
  have hfollow := follow_of_follows h
  rw [follow_of_refuses hrefuses] at hfollow
  cases hfollow

/-- **Induction along inclusions.** What holds of a source as soon as it holds of all sources that
it includes holds of every source. -/
theorem expand_induction (r : Resolver) {C : Option String → List String → String → Prop}
    (hstep : ∀ label chain text,
      (∀ d included, r.Follows chain d included →
        C (some d.source) (chain ++ [d.source]) included) → C label chain text)
    (label : Option String) (chain : List String) (text : String) : C label chain text := by
  -- the induction is on how much longer the chain may become
  induction hn : r.settings.maxIncludeDepth + 1 - chain.length generalizing label chain text with
  | zero =>
    refine hstep label chain text fun d included h => ?_
    -- the chain is too long for anything to be followed
    have := h.short
    omega
  | succ n ih =>
    refine hstep label chain text fun d included h => ih _ _ _ ?_
    rw [List.length_append, List.length_singleton]
    omega

end Resolver

end DataDictionary
