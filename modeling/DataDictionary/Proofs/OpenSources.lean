import DataDictionary.Proofs.Traversal
import DataDictionary.Store.Sources
import Mathlib.Data.List.Nodup

/-!
# The sources that are open

While a dictionary is read, the outermost source and the ones on the way to the source in hand are
**open**. Sources may include one another, and themselves, in any way. Because a name comes onto
the chain only once, and only if a text was loaded for it, a collection of `n` texts lets no more
than `n` inclusions be open at a time, however deep the settings would let them be nested
(`traversal_bounded`).

An inclusion is refused as a cycle if its name is on the chain. All names on the chain but the first
are those under which the open sources were loaded. The first one is what the outermost source goes
by, and that is the name it was loaded by only if the settings have no other one for it. Then the
inclusions that are refused are exactly those of open sources; otherwise the two names are taken for
each other (`findsCycle_iff_of_load`), and a source that includes itself is read a second time
(`self_inclusion_followed`).
-/

namespace DataDictionary

open StateTransition

/-- Names that all have a text, each there once, are no more than there are texts. -/
theorem Sources.length_le_size {sources : Sources} {names : List String} (hnodup : names.Nodup)
    (h : ∀ name ∈ names, ∃ text, sources.loader name = .ok text) :
    names.length ≤ sources.size := by
  have hkeys : ∀ name ∈ names, name ∈ sources.texts.keys := by
    intro name hname
    obtain ⟨text, htext⟩ := h name hname
    rw [Std.HashMap.mem_keys, ← Std.HashMap.isSome_getElem?_iff_mem]
    unfold loader at htext
    split at htext
    · next found hget => simp [show sources.texts[name]? = some found from hget]
    · cases htext
  have hle : names.length ≤ sources.texts.keys.length :=
    (List.subperm_of_subset hnodup hkeys).length_le
  rwa [Std.HashMap.length_keys] at hle

/-- Where inclusions are followed at all, the chain alone decides. -/
theorem Resolver.findsCycle_iff {r : Resolver} {load : Loader} {chain : List String} {d : Inclusion}
    (henabled : r.settings.resolveIncludes = true) (hloader : r.loader = some load) :
    r.FindsCycle chain d ↔ d.source ∈ chain := by
  unfold FindsCycle
  constructor
  · intro h
    by_contra hfresh
    rcases r.follows_or_refuses chain d with ⟨text, hfollows⟩ | ⟨p, hrefuses⟩
    · rw [textOf_of_follows hfollows] at h
      cases h
    · rw [textOf_of_refuses hrefuses] at h
      cases hrefuses with
      | cycle _ _ hmem => exact hfresh hmem
      | disabled _ | noLoader _ _ | tooDeep _ _ _ _ | unloadable _ _ _ _ _ => cases h
  · intro hmem
    exact textOf_of_refuses (.cycle henabled hloader hmem)

namespace Outcome

/-- The inclusions of a text, followed step by step. -/
def traversal (settings : Settings) (text : String) : Traversal :=
  .start settings.sourceName (settings.sourceName.getD anonymous) (.ofText text)

/-- The outcome that a traversal comes to when it ends. -/
def ofTraversal (settings : Settings) (header : Header) (last : Traversal) : Outcome :=
  let (dictionary, diagnostics) := assemble settings header last.visit.merging.merged
  ⟨dictionary, last.diagnostics ++ diagnostics⟩

/-- Reading a text is following its inclusions step by step to the end. -/
theorem ofText_eq_ofTraversal (settings : Settings) (loader : Option Loader) (text : String) :
    ∃ last, Reaches (Resolver.mk loader settings).step (traversal settings text) last ∧
      (Resolver.mk loader settings).step last = none ∧
      ofText settings loader text = ofTraversal settings (.ofText text) last := by
  obtain ⟨last, hreaches, hend, hresult⟩ := (Resolver.mk loader settings).traversal_ends
    settings.sourceName (settings.sourceName.getD anonymous) (.ofText text)
  refine ⟨last, hreaches, hend, ?_⟩
  have hmerged : last.visit.merging.merged = last.result.1 := rfl
  have hdiagnostics : last.diagnostics = last.result.2 := rfl
  rw [ofTraversal, hmerged, hdiagnostics, hresult]
  rfl

/-- **Inclusions come to an end, and never go deep.** Whatever texts there are and however deep
inclusions may be nested, following them ends with what the dictionary is made of. Until then no
name is on the chain twice, no more inclusions are open than the settings allow and than there are
texts, and behind each inclusion the chain is what it was before it. -/
theorem traversal_bounded (sources : Sources) (settings : Settings) (text : String) :
    let r : Resolver := ⟨some sources.loader, settings⟩
    (∃ last, Reaches r.step (traversal settings text) last ∧ r.step last = none ∧
      last.result = r.resolve settings.maxIncludeDepth settings.sourceName
        [settings.sourceName.getD anonymous] (.ofText text)) ∧
    ∀ t, Reaches r.step (traversal settings text) t →
      t.chain.Nodup ∧
      t.chain.length = t.included.length + 1 ∧
      t.included.length ≤ min settings.maxIncludeDepth sources.size ∧
      ∀ d rest, t.visit.rest = .inclusion d :: rest →
        ∃ t', Reaches₁ r.step t t' ∧ t'.visit.rest = rest ∧ t'.visit.label = t.visit.label ∧
          t'.waiting = t.waiting ∧ t'.chain = t.chain := by
  intro r
  refine ⟨r.traversal_ends _ _ _, fun t ht => ?_⟩
  have hsound := Traversal.sound_of_reaches ht
  have hlength : t.chain.length = t.included.length + 1 := by simp [hsound.chain]
  have hdistinct : t.included.Nodup := by
    have hnodup := hsound.nodup
    rw [hsound.chain] at hnodup
    exact List.nodup_reverse.mp (List.nodup_cons.mp hnodup).2
  have hsize : t.included.length ≤ sources.size := by
    refine Sources.length_le_size hdistinct fun name hname => ?_
    obtain ⟨load, text', hloader, htext⟩ := hsound.loaded name hname
    cases hloader
    exact ⟨text', htext⟩
  exact ⟨hsound.nodup, hlength, le_min hsound.depth hsize,
    fun d rest hnext => r.returns_from_inclusion hnext⟩

/-- Within a source that includes itself one inclusion is open, and no more can be, as there is but
one text. -/
theorem self_inclusion_bounded :
    let sources := Sources.empty.insert "lib.idd" "\\include-file lib.idd\n"
    let settings : Settings := { maxIncludeDepth := UInt64.size - 1 }
    let r : Resolver := ⟨some sources.loader, settings⟩
    ∃ t, Reaches r.step (traversal settings "\\include-file lib.idd\n") t ∧
      t.visit.rest = [.inclusion { source := "lib.idd", line := 1 }] ∧
      t.included = ["lib.idd"] ∧ t.included.length ≤ min settings.maxIncludeDepth sources.size ∧
      ∃ t', Reaches₁ r.step t t' ∧ t'.visit.rest = [] ∧ t'.chain = t.chain := by
  intro sources settings r
  let d : Inclusion := { source := "lib.idd", line := 1 }
  let start := traversal settings "\\include-file lib.idd\n"
  let t := start.enter d [] "\\include-file lib.idd\n"
  have hload : sources.loader "lib.idd" = .ok "\\include-file lib.idd\n" := by
    rw [Sources.loader, Sources.get?_insert, if_pos rfl]
  have hfollows : r.Follows start.chain d "\\include-file lib.idd\n" :=
    ⟨rfl, by decide, by decide, _, rfl, hload⟩
  have hnext : start.visit.rest = [.inclusion d] := by decide +kernel
  have hstep : r.step start = some t := by
    rw [Resolver.step, hnext]
    dsimp only
    rw [Resolver.textOf_of_follows hfollows]
  have hreaches : Reaches r.step start t := .single hstep
  have hrest : t.visit.rest = [.inclusion d] := hnext
  obtain ⟨-, hall⟩ := traversal_bounded sources settings "\\include-file lib.idd\n"
  obtain ⟨-, -, hbound, hreturns⟩ := hall t hreaches
  obtain ⟨t', hreaches', hrest', -, -, hchain⟩ := hreturns d [] hrest
  exact ⟨t, hreaches, hrest, rfl, hbound, t', hreaches', hrest', hchain⟩

end Outcome

/-- The settings for a source that is loaded by a name, which it goes by unless it has another one.
-/
def Settings.named (settings : Settings) (name : String) : Settings :=
  { settings with sourceName := settings.sourceName.or (some name) }

/-- What the outermost source goes by if it is loaded by a name. -/
def Settings.label (settings : Settings) (name : String) : String := settings.sourceName.getD name

namespace Outcome

theorem load_of_ok {load : Loader} {name text : String} (h : load name = .ok text)
    (settings : Settings) :
    Outcome.load settings (some load) name =
      .ok (ofText (settings.named name) (some load) text) := by
  rw [Outcome.load]
  dsimp only
  rw [h]
  rfl

theorem start_named (settings : Settings) (name text : String) :
    traversal (settings.named name) text =
      .start (some (settings.label name)) (settings.label name) (.ofText text) := by
  unfold traversal Settings.named Settings.label
  cases settings.sourceName <;> rfl

/-- **Which inclusions are refused as cycles.** While a source is read that was loaded by a name,
these are the inclusions of what the source goes by and of the sources that are open within it. They
are the inclusions of open sources, except that an inclusion of the source's name or of what it goes
by is taken for the other if the two differ. If they do not differ, no source is open twice. -/
theorem findsCycle_iff_of_load {settings : Settings} {load : Loader} {name text : String}
    (hload : load name = .ok text) (henabled : settings.resolveIncludes = true) :
    let r : Resolver := ⟨some load, settings.named name⟩
    (∃ last, Reaches r.step (traversal r.settings text) last ∧ r.step last = none ∧
      Outcome.load settings (some load) name = .ok (ofTraversal r.settings (.ofText text) last)) ∧
    ∀ t, Reaches r.step (traversal r.settings text) t →
      (∀ d rest, t.visit.rest = .inclusion d :: rest →
        (r.FindsCycle t.chain d ↔ d.source = settings.label name ∨ d.source ∈ t.included) ∧
        ((r.FindsCycle t.chain d ↔ d.source = name ∨ d.source ∈ t.included) ↔
          d.source ∈ t.included ∨ (d.source = settings.label name ↔ d.source = name))) ∧
      (settings.label name = name → (name :: t.included).Nodup) := by
  intro r
  obtain ⟨last, hreaches, hend, hlast⟩ := ofText_eq_ofTraversal r.settings r.loader text
  have hall : Outcome.load settings (some load) name =
      .ok (ofTraversal r.settings (.ofText text) last) := by
    rw [load_of_ok hload settings, hlast]
  refine ⟨⟨last, hreaches, hend, hall⟩, fun t ht => ?_⟩
  have hsound : t.Sound r (settings.label name) := by
    have hstart : traversal r.settings text = _ := start_named settings name text
    rw [hstart] at ht
    exact Traversal.sound_of_reaches ht
  refine ⟨fun d rest _ => ?_, fun hsame => ?_⟩
  · have hcycle : r.FindsCycle t.chain d ↔
        d.source = settings.label name ∨ d.source ∈ t.included := by
      rw [Resolver.findsCycle_iff henabled rfl, hsound.chain, List.mem_cons, List.mem_reverse]
    refine ⟨hcycle, ?_⟩
    -- only the two names of the outermost source can make a difference
    rw [hcycle]
    by_cases hopen : d.source ∈ t.included
    · simp [hopen]
    · simp [hopen]
  · have hnodup := hsound.nodup
    rw [hsound.chain, hsame] at hnodup
    obtain ⟨hfresh, hrest⟩ := List.nodup_cons.mp hnodup
    exact List.nodup_cons.mpr ⟨mt List.mem_reverse.mpr hfresh, List.nodup_reverse.mp hrest⟩

/-- Two sources that include each other. -/
def mutualLoader : Loader
  | "main.idd" => .ok "\\include-file lib.idd\n"
  | "lib.idd" => .ok "\\include-file main.idd\n"
  | name => .error (.notFound name)

theorem mutual_inclusion_findsCycle :
    let r : Resolver := ⟨some mutualLoader, Settings.named {} "main.idd"⟩
    ∃ t d, Reaches r.step (traversal r.settings "\\include-file lib.idd\n") t ∧
      t.visit.rest = [.inclusion d] ∧ t.included = ["lib.idd"] ∧ r.FindsCycle t.chain d := by
  intro r
  let start := traversal r.settings "\\include-file lib.idd\n"
  let t := start.enter { source := "lib.idd", line := 1 } [] "\\include-file main.idd\n"
  have hreaches : Reaches r.step start t := .single (by decide +kernel)
  have hrest : t.visit.rest = [.inclusion { source := "main.idd", line := 1 }] := by decide +kernel
  have hiff := (@findsCycle_iff_of_load {} mutualLoader "main.idd" _ rfl rfl).2 t hreaches
  exact ⟨t, _, hreaches, hrest, rfl, ((hiff.1 _ _ hrest).1).mpr (.inl rfl)⟩

/-- A source that includes itself. -/
def selfLoader : Loader
  | "main.idd" => .ok "Zone;\n\\include-file main.idd\n"
  | name => .error (.notFound name)

/-- A source that goes by another name than the one it was loaded by is read a second time where it
includes itself, and only then is the cycle found. -/
theorem self_inclusion_followed :
    let settings : Settings := { sourceName := some "house" }
    let r : Resolver := ⟨some selfLoader, settings.named "main.idd"⟩
    (¬ ∀ t, Reaches r.step (traversal r.settings "Zone;\n\\include-file main.idd\n") t →
      ∀ d rest, t.visit.rest = .inclusion d :: rest →
        (r.FindsCycle t.chain d ↔ d.source = "main.idd" ∨ d.source ∈ t.included)) ∧
    (ofText r.settings r.loader "Zone;\n\\include-file main.idd\n").diagnostics.map
        (fun x => (x.kind, x.location)) =
      [(.includeCycle, ⟨some "main.idd", 2⟩), (.mergeConflict, ⟨some "house", 2⟩)] := by
  intro settings r
  refine ⟨fun hclaim => ?_, by decide +kernel⟩
  let start := traversal r.settings "Zone;\n\\include-file main.idd\n"
  let t := start.pass (start.visit.merging.add ⟨{ name := "Zone" }, some "house", 1⟩)
    [.inclusion { source := "main.idd", line := 2 }] []
  have hreaches : Reaches r.step start t := .single (by decide +kernel)
  have hcycle : r.FindsCycle t.chain { source := "main.idd", line := 2 } :=
    (hclaim t hreaches _ _ rfl).mpr (.inl rfl)
  have hfollowed : r.textOf t.chain { source := "main.idd", line := 2 } =
      .ok "Zone;\n\\include-file main.idd\n" := rfl
  rw [Resolver.FindsCycle, hfollowed] at hcycle
  cases hcycle

end Outcome

end DataDictionary
