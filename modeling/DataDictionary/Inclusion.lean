import DataDictionary.Source.Reader
import DataDictionary.Settings

/-!
# Inclusions

An inclusion stands for the objects of another source, less those it says to leave out. The
objects come in at its place, and so do the groups that are not known yet. An object never
replaces another one: the definitions of a source itself come first, wherever they stand in it, and
of two included objects of one name the earlier stays.

Sources are followed along a **chain** that leads from the outermost source to the one in hand. A
source that is on the chain is not followed again, and a chain does not get longer than the
settings allow, which is what bounds the recursion.
-/

namespace DataDictionary

/-- Gives the text of a source by its name. -/
abbrev Loader := String → Except SourceFault String

/-- An object together with the place of its declaration. -/
structure Definition where
  object : Object
  source : Option String
  line : Nat
  deriving DecidableEq

/-- What a definition is looked up by. -/
def Definition.key (d : Definition) : String := Text.lookupKey d.object.name

/-- Where a definition was declared. -/
def Definition.location (d : Definition) : Location := ⟨d.source, d.line⟩

/-- What a source says together with everything it includes. -/
structure Merged where
  groups : List String := []
  definitions : List Definition := []
  deriving DecidableEq

/-- A source whose inclusions are being merged in. -/
structure Merging where
  /-- The keys of all objects of the source itself. -/
  own : List String
  /-- The keys of the definitions so far. -/
  taken : List String := []
  merged : Merged := {}
  deriving DecidableEq

namespace Merging

/-- Adds a group, unless it is known. -/
def addGroup (m : Merging) (name : String) : Merging :=
  if m.merged.groups.contains name then m
  else { m with merged := { m.merged with groups := m.merged.groups ++ [name] } }

/-- Adds a definition. -/
def add (m : Merging) (d : Definition) : Merging :=
  { m with
    taken := m.taken ++ [d.key]
    merged := { m.merged with definitions := m.merged.definitions ++ [d] } }

/-- Takes over the definitions of an included source, without those whose keys are `removed`. One
that would meet another of the same key is left out too, and reported. -/
def addIncluded (source : String) (removed : List String) :
    Merging → List Definition → Merging × List Problem
  | m, [] => (m, [])
  | m, d :: rest =>
    if removed.contains d.key then addIncluded source removed m rest
    else if m.own.contains d.key || m.taken.contains d.key then
      let (m, problems) := addIncluded source removed m rest
      (m, .mergeConflict d.object.name source :: problems)
    else addIncluded source removed (m.add d) rest

/-- The removals of an inclusion that name no object of the source. -/
def unknownRemovals (directive : Inclusion) (included : Merged) : List Problem :=
  (directive.removed.filter fun name =>
      !included.definitions.any (·.key == Text.lookupKey name)).map
    (.removalUnknown directive.source ·)

/-- Merges in what an included source says. -/
def absorb (m : Merging) (directive : Inclusion) (included : Merged) : Merging × List Problem :=
  let removed := directive.removed.map Text.lookupKey
  let (m, conflicts) := addIncluded directive.source removed m included.definitions
  (included.groups.foldl addGroup m, unknownRemovals directive included ++ conflicts)

end Merging

/-- What it takes to follow inclusions. -/
structure Resolver where
  loader : Option Loader
  settings : Settings

namespace Resolver

/-- Merges a source of the given name with what it includes; the chain ends with that source. -/
abbrev Merger := (label : Option String) → (chain : List String) → Source → Merged × Diagnostics

/-- Follows an inclusion. `deeper` merges the included source, and is missing where the chain has
reached the permitted length. If the inclusion is not followed, the problem says why. -/
def follow (r : Resolver) (deeper : Option Merger) (chain : List String) (directive : Inclusion) :
    Except Problem (Merged × Diagnostics) :=
  let name := directive.source
  if !r.settings.resolveIncludes then .error (.inclusionDisabled name)
  else
    match r.loader with
    | none => .error (.inclusionWithoutLoader name)
    | some load =>
      if chain.contains name then .error (.inclusionCycle (chain ++ [name]))
      else
        match deeper with
        | none => .error (.inclusionFailed (.tooDeep name r.settings.maxIncludeDepth))
        | some deeper =>
          match load name with
          | .error fault => .error (.inclusionFailed fault)
          | .ok text => .ok (deeper (some name) (chain ++ [name]) (.ofText text))

/-- Merges an inclusion in. What the included source reports comes first, then what there is to
say about the merge, at the place of the inclusion. -/
def mergeInclusion (r : Resolver) (deeper : Option Merger) (label : Option String)
    (chain : List String) (m : Merging) (directive : Inclusion) : Merging × Diagnostics :=
  let location : Location := ⟨label, directive.line⟩
  match r.follow deeper chain directive with
  | .error problem => (m, [problem.report location])
  | .ok (included, diagnostics) =>
    let (m, problems) := m.absorb directive included
    (m, diagnostics ++ problems.map (·.report location))

/-- Merges the items of a source one after the other. -/
def mergeItems (r : Resolver) (deeper : Option Merger) (label : Option String)
    (chain : List String) : Merging → List Item → Merging × Diagnostics
  | m, [] => (m, [])
  | m, .object o line :: rest => mergeItems r deeper label chain (m.add ⟨o, label, line⟩) rest
  | m, .group name :: rest => mergeItems r deeper label chain (m.addGroup name) rest
  | m, .inclusion directive :: rest =>
    let (m, found) := r.mergeInclusion deeper label chain m directive
    let (m, diagnostics) := mergeItems r deeper label chain m rest
    (m, found ++ diagnostics)

/-- Merges a source; what was found in the source itself is reported first. -/
def mergeSource (r : Resolver) (deeper : Option Merger) : Merger := fun label chain source =>
  let start : Merging := { own := source.objects.map fun o => Text.lookupKey o.name }
  let (m, diagnostics) := r.mergeItems deeper label chain start source.items
  (m.merged, source.findings.map (·.report label) ++ diagnostics)

/-- Merges a source whose inclusions may be nested `depth` deep. -/
def resolve (r : Resolver) : (depth : Nat) → Merger
  | 0 => r.mergeSource none
  | depth + 1 =>
    r.mergeSource (some fun label chain source => r.resolve depth label chain source)

end Resolver

end DataDictionary
