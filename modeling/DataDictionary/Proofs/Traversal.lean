import DataDictionary.Outcome
import DataDictionary.Proofs.Expansion
import Mathlib.Computability.StateTransition

/-!
# Following inclusions step by step

`resolve` is a recursion that hands its chain on from call to call, and that it comes to an end is
settled before it begins. A **traversal** does the same work without any recursion and without a
bound given in advance: it looks at one item at a time, keeps the sources that wait for one they
include on a stack, and has a single chain, on which a name is put when a source is entered and
from which it is taken when the source is left.

A traversal comes to its end all the same, and then it has merged what `resolve` merges
(`traversal_ends`). What it does in between is visible in its states. `Traversal.Sound` says what is
true of every one of them: the chain mirrors the stack, no name stands on it twice, and the stack
never gets higher than the settings allow (`sound_of_reaches`).
-/

namespace DataDictionary

open StateTransition

/-- A source that is being merged: what it is called in diagnostics, what has been merged so far,
and the items that are still to come. -/
structure Visit where
  label : Option String
  merging : Merging
  rest : List Item
  deriving DecidableEq

/-- A source that nothing has been merged in yet. -/
def Merging.ofSource (source : Source) : Merging :=
  { own := source.objects.map fun o => Text.lookupKey o.name }

/-- A source before its first item. -/
def Visit.ofSource (label : Option String) (source : Source) : Visit :=
  ⟨label, .ofSource source, source.items⟩

/-- How far the following of inclusions has come. -/
structure Traversal where
  /-- The names from the outermost source to the one in hand. -/
  chain : List String
  /-- The source in hand. -/
  visit : Visit
  /-- The sources that wait for one they include, each behind the inclusion it waits for; the one
  that waits for the source in hand comes first. -/
  waiting : List (Inclusion × Visit) := []
  diagnostics : Diagnostics := []
  deriving DecidableEq

namespace Traversal

/-- The outermost source before its first item. -/
def start (label : Option String) (root : String) (source : Source) : Traversal :=
  { chain := [root]
    visit := .ofSource label source
    diagnostics := source.findings.map (·.report label) }

/-- Goes on with an included source; `rest` is left for later. -/
def enter (t : Traversal) (d : Inclusion) (rest : List Item) (text : String) : Traversal :=
  let source := Source.ofText text
  { chain := t.chain ++ [d.source]
    visit := .ofSource (some d.source) source
    waiting := (d, { t.visit with rest }) :: t.waiting
    diagnostics := t.diagnostics ++ source.findings.map (·.report (some d.source)) }

/-- Goes back to the source that waits for the one in hand, and merges the latter in. -/
def leave (t : Traversal) (d : Inclusion) (caller : Visit) (waiting : List (Inclusion × Visit)) :
    Traversal :=
  let (merging, problems) := caller.merging.absorb d t.visit.merging.merged
  { chain := t.chain.dropLast
    visit := { caller with merging }
    waiting
    diagnostics := t.diagnostics ++ problems.map (·.report ⟨caller.label, d.line⟩) }

/-- Passes on to the items behind the next one. -/
def pass (t : Traversal) (merging : Merging) (rest : List Item) (found : Diagnostics) :
    Traversal :=
  { t with
    visit := { t.visit with merging, rest }
    diagnostics := t.diagnostics ++ found }

/-- What has been merged and reported so far in the source in hand. -/
def result (t : Traversal) : Merged × Diagnostics := (t.visit.merging.merged, t.diagnostics)

/-- The sources that are open within the outermost one, the one in hand first. -/
def included (t : Traversal) : List String := t.waiting.map (·.1.source)

end Traversal

namespace Resolver

/-- The text that an inclusion is followed to, or the reason why it is not followed. -/
def textOf (r : Resolver) (chain : List String) (d : Inclusion) : Except Problem String :=
  if !r.settings.resolveIncludes then .error (.inclusionDisabled d.source)
  else
    match r.loader with
    | none => .error (.inclusionWithoutLoader d.source)
    | some load =>
      if chain.contains d.source then .error (.inclusionCycle (chain ++ [d.source]))
      else if r.settings.maxIncludeDepth < chain.length then
        .error (.inclusionFailed (.tooDeep d.source r.settings.maxIncludeDepth))
      else
        match load d.source with
        | .error fault => .error (.inclusionFailed fault)
        | .ok text => .ok text

/-- Whether an inclusion is refused because its source is on the chain already. -/
def FindsCycle (r : Resolver) (chain : List String) (d : Inclusion) : Prop :=
  r.textOf chain d = .error (.inclusionCycle (chain ++ [d.source]))

/-- The next state of a traversal. There is none once the items of the outermost source are used
up. -/
def step (r : Resolver) (t : Traversal) : Option Traversal :=
  match t.visit.rest with
  | [] =>
    match t.waiting with
    | [] => none
    | (d, caller) :: waiting => some (t.leave d caller waiting)
  | .object o line :: rest => some (t.pass (t.visit.merging.add ⟨o, t.visit.label, line⟩) rest [])
  | .group name :: rest => some (t.pass (t.visit.merging.addGroup name) rest [])
  | .inclusion d :: rest =>
    match r.textOf t.chain d with
    | .error problem => some (t.pass t.visit.merging rest [problem.report ⟨t.visit.label, d.line⟩])
    | .ok text => some (t.enter d rest text)

variable {r : Resolver} {chain : List String} {d : Inclusion} {text : String} {p : Problem}
  {t t' : Traversal}

/-! ## The texts that inclusions are followed to -/

theorem textOf_of_follows (h : r.Follows chain d text) : r.textOf chain d = .ok text := by
  obtain ⟨load, hloader, htext⟩ := h.loads
  simp [textOf, h.enabled, h.fresh, Nat.not_lt.mpr h.short, hloader, htext]

theorem textOf_of_refuses (h : r.Refuses chain d p) : r.textOf chain d = .error p := by
  cases h with
  | disabled henabled => simp [textOf, henabled]
  | noLoader henabled hloader => simp [textOf, henabled, hloader]
  | cycle henabled hloader hcycle => simp [textOf, henabled, hloader, hcycle]
  | tooDeep henabled hloader hcycle hdeep => simp [textOf, henabled, hloader, hcycle, hdeep]
  | unloadable henabled hloader hcycle hshort htext =>
    simp [textOf, henabled, hloader, hcycle, Nat.not_lt.mpr hshort, htext]

theorem textOf_eq_ok_iff : r.textOf chain d = .ok text ↔ r.Follows chain d text := by
  constructor
  · intro h
    rcases r.follows_or_refuses chain d with ⟨text', hfollows⟩ | ⟨p, hrefuses⟩
    · rw [textOf_of_follows hfollows] at h
      exact Except.ok.inj h ▸ hfollows
    · rw [textOf_of_refuses hrefuses] at h
      cases h
  · exact textOf_of_follows

/-! ## One step -/

/-- **The three kinds of steps**: back to the source that waits, on within the source in hand, and
into an included source. -/
theorem step_cases (h : r.step t = some t') :
    (∃ d caller waiting, t.waiting = (d, caller) :: waiting ∧ t' = t.leave d caller waiting) ∨
    (∃ merging rest found, t' = t.pass merging rest found) ∨
    (∃ d rest text, r.Follows t.chain d text ∧ t' = t.enter d rest text) := by
  unfold step at h
  split at h
  · split at h
    · cases h
    · next d caller waiting hwaiting =>
      exact .inl ⟨d, caller, waiting, hwaiting, (Option.some.inj h).symm⟩
  · exact .inr (.inl ⟨_, _, _, (Option.some.inj h).symm⟩)
  · exact .inr (.inl ⟨_, _, _, (Option.some.inj h).symm⟩)
  · split at h
    · exact .inr (.inl ⟨_, _, _, (Option.some.inj h).symm⟩)
    · next d rest _ _ text htextOf =>
      exact .inr (.inr ⟨d, rest, text, textOf_eq_ok_iff.mp htextOf, (Option.some.inj h).symm⟩)

/-! ## A whole traversal -/

/-- From wherever these items are the next ones in the source in hand, a traversal gets behind them,
with what merging them gives, and with the chain and the stack as they were. -/
def Runs (r : Resolver) (label : Option String) (chain : List String) (items : List Item) : Prop :=
  ∀ rest m waiting ds,
    Reaches r.step ⟨chain, ⟨label, m, items ++ rest⟩, waiting, ds⟩
      ⟨chain, ⟨label, (r.mergeItems (r.deeper chain) label chain m items).1, rest⟩, waiting,
        ds ++ (r.mergeItems (r.deeper chain) label chain m items).2⟩

/-- An inclusion takes a traversal to the items behind it, if the included source can be run. -/
theorem runs_inclusion (label : Option String)
    (hdeeper : ∀ text, r.Follows chain d text →
      r.Runs (some d.source) (chain ++ [d.source]) (Source.ofText text).items)
    (rest : List Item) (m : Merging) (waiting : List (Inclusion × Visit)) (ds : Diagnostics) :
    Reaches₁ r.step ⟨chain, ⟨label, m, .inclusion d :: rest⟩, waiting, ds⟩
      ⟨chain, ⟨label, (r.mergeInclusion (r.deeper chain) label chain m d).1, rest⟩, waiting,
        ds ++ (r.mergeInclusion (r.deeper chain) label chain m d).2⟩ := by
  rcases r.follows_or_refuses chain d with ⟨text, hfollows⟩ | ⟨p, hrefuses⟩
  · -- in, through all items of the included source, and out again
    let source := Source.ofText text
    let start : Traversal := ⟨chain, ⟨label, m, .inclusion d :: rest⟩, waiting, ds⟩
    have henter : start.enter d rest text ∈ r.step start := by
      simp [step, start, textOf_of_follows hfollows]
    have hthrough := hdeeper text hfollows [] (.ofSource source) ((d, ⟨label, m, rest⟩) :: waiting)
      (ds ++ source.findings.map (·.report (some d.source)))
    rw [List.append_nil] at hthrough
    have hincluded : r.included chain d text =
        r.mergeSource (r.deeper (chain ++ [d.source])) (some d.source) (chain ++ [d.source])
          source := expand_eq _ _ _ _
    refine Relation.TransGen.trans_left (.single henter) (hthrough.tail ?_)
    simp only [step, Option.mem_def, Option.some.injEq, Traversal.leave, List.dropLast_concat,
      mergeInclusion, follow_of_follows hfollows, hincluded, mergeSource, List.append_assoc]
    rfl
  · -- the diagnostic is all that comes of it
    refine .single ?_
    simp [step, mergeInclusion, textOf_of_refuses hrefuses, follow_of_refuses hrefuses,
      Traversal.pass]

/-- Items are run one by one, as long as what they include can be run. -/
theorem runs_of_included
    (hdeeper : ∀ d text, r.Follows chain d text →
      r.Runs (some d.source) (chain ++ [d.source]) (Source.ofText text).items)
    (label : Option String) (items : List Item) : r.Runs label chain items := by
  induction items with
  | nil =>
    intro rest m waiting ds
    simp only [mergeItems, List.nil_append, List.append_nil]
    exact .refl
  | cons item items ih =>
    intro rest m waiting ds
    have hone : Reaches r.step ⟨chain, ⟨label, m, item :: (items ++ rest)⟩, waiting, ds⟩
        ⟨chain, ⟨label, (r.mergeItem (r.deeper chain) label chain m item).1, items ++ rest⟩,
          waiting, ds ++ (r.mergeItem (r.deeper chain) label chain m item).2⟩ := by
      cases item with
      | object o line => exact .single (by simp [step, mergeItem, Traversal.pass])
      | group name => exact .single (by simp [step, mergeItem, Traversal.pass])
      | inclusion d =>
        exact (runs_inclusion label (hdeeper d) (items ++ rest) m waiting ds).to_reflTransGen
    have hall := hone.trans (ih rest _ waiting _)
    rwa [mergeItems_cons, ← List.append_assoc]

/-- **Whatever stands on the chain, every list of items can be run.** -/
theorem runs (r : Resolver) (label : Option String) (chain : List String) (items : List Item) :
    r.Runs label chain items := by
  refine runs_of_included (fun d text _ => ?_) label items
  exact expand_induction r
    (C := fun label chain text => r.Runs label chain (Source.ofText text).items)
    (fun label _ text ih => runs_of_included ih label (Source.ofText text).items) _ _ text

/-- **A traversal ends, and with what the recursion gives.** -/
theorem traversal_ends (r : Resolver) (label : Option String) (root : String) (source : Source) :
    ∃ last, Reaches r.step (.start label root source) last ∧ r.step last = none ∧
      last.result = r.resolve r.settings.maxIncludeDepth label [root] source := by
  have hrun := r.runs label [root] source.items [] (.ofSource source) []
    (source.findings.map (·.report label))
  rw [List.append_nil] at hrun
  refine ⟨_, hrun, rfl, ?_⟩
  rw [resolve_eq_expand, expand_eq]
  rfl

/-- **Behind an inclusion a traversal is where it was before it**, followed or not: the same sources
wait, and the chain is the same. -/
theorem returns_from_inclusion {rest : List Item} (h : t.visit.rest = .inclusion d :: rest) :
    ∃ t', Reaches₁ r.step t t' ∧ t'.visit.rest = rest ∧ t'.visit.label = t.visit.label ∧
      t'.waiting = t.waiting ∧ t'.chain = t.chain := by
  obtain ⟨chain, ⟨label, m, items⟩, waiting, ds⟩ := t
  cases h
  exact ⟨_, runs_inclusion label (fun text _ => r.runs _ _ _) rest m waiting ds, rfl, rfl, rfl, rfl⟩

end Resolver

/-! ## What is true throughout -/

namespace Traversal

variable {r : Resolver} {root : String} {t t' : Traversal}

/-- What is true of every state of a traversal that begins with the source `root`. -/
structure Sound (r : Resolver) (root : String) (t : Traversal) : Prop where
  /-- The chain mirrors the stack. -/
  chain : t.chain = root :: t.included.reverse
  /-- No name stands on the chain twice. -/
  nodup : t.chain.Nodup
  /-- The stack is no higher than the settings allow. -/
  depth : t.included.length ≤ r.settings.maxIncludeDepth
  /-- Whatever has been entered was loaded. -/
  loaded : ∀ name ∈ t.included, ∃ load text, r.loader = some load ∧ load name = .ok text

theorem sound_start (r : Resolver) (label : Option String) (root : String) (source : Source) :
    Sound r root (start label root source) where
  chain := rfl
  nodup := List.nodup_singleton root
  depth := Nat.zero_le _
  loaded := by
    intro name h
    cases h

/-- Entering a source lengthens chain and stack by its name, which is new. -/
theorem Sound.enter {d : Inclusion} {rest : List Item} {text : String} (h : Sound r root t)
    (hfollows : r.Follows t.chain d text) : Sound r root (t.enter d rest text) where
  chain := by
    show t.chain ++ [d.source] = root :: (d.source :: t.included).reverse
    rw [h.chain, List.reverse_cons, List.cons_append]
  nodup := by
    exact h.nodup.append (List.nodup_singleton _) (by simpa using hfollows.fresh)
  depth := by
    -- the chain has one name more than the stack, that of the outermost source
    have hlength : t.chain.length = t.included.length + 1 := by simp [h.chain]
    have hshort := hfollows.short
    show (d.source :: t.included).length ≤ r.settings.maxIncludeDepth
    rw [List.length_cons]
    omega
  loaded := by
    intro name hname
    rcases List.mem_cons.mp hname with rfl | hname
    · obtain ⟨load, hloader, htext⟩ := hfollows.loads
      exact ⟨load, text, hloader, htext⟩
    · exact h.loaded name hname

/-- Leaving a source takes its name off chain and stack again. -/
theorem Sound.leave {d : Inclusion} {caller : Visit} {waiting : List (Inclusion × Visit)}
    (h : Sound r root t) (hwaiting : t.waiting = (d, caller) :: waiting) :
    Sound r root (t.leave d caller waiting) := by
  have hincluded : t.included = d.source :: (t.leave d caller waiting).included := by
    rw [included, hwaiting]
    rfl
  have hchain : t.chain = (root :: (t.leave d caller waiting).included.reverse) ++ [d.source] := by
    rw [h.chain, hincluded, List.reverse_cons, List.cons_append]
  have hdrop : (t.leave d caller waiting).chain =
      root :: (t.leave d caller waiting).included.reverse := by
    show t.chain.dropLast = _
    rw [hchain, List.dropLast_concat]
  refine ⟨hdrop, ?_, ?_, fun name hname => ?_⟩
  · rw [hdrop]
    exact (List.nodup_append.mp (hchain ▸ h.nodup)).1
  · have hdepth := h.depth
    rw [hincluded, List.length_cons] at hdepth
    omega
  · exact h.loaded name (hincluded ▸ List.mem_cons_of_mem _ hname)

theorem Sound.step (h : Sound r root t) (hstep : r.step t = some t') : Sound r root t' := by
  rcases Resolver.step_cases hstep with ⟨d, caller, waiting, hwaiting, rfl⟩ | ⟨_, _, _, rfl⟩ |
    ⟨d, rest, text, hfollows, rfl⟩
  · exact h.leave hwaiting
  · exact ⟨h.chain, h.nodup, h.depth, h.loaded⟩
  · exact h.enter hfollows

/-- **Every state of a traversal is sound.** -/
theorem sound_of_reaches {label : Option String} {source : Source}
    (h : Reaches r.step (start label root source) t) : Sound r root t := by
  induction h with
  | refl => exact sound_start r label root source
  | tail _ hstep ih => exact ih.step hstep

end Traversal

end DataDictionary
