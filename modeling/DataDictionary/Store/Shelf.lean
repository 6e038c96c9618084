import DataDictionary.Store.Sources
import DataDictionary.Outcome

/-!
# The shelf

A shelf keeps the dictionaries that have been read, so that each is read only once. What is on the
shelf stays as it was read, even if the sources change afterwards, until it is taken off. Every
outcome put on the shelf gets a number of its own, by which two requests can be told to have been
given the very same outcome. What could not be read leaves no trace.
-/

namespace DataDictionary

/-- An outcome on the shelf. -/
structure Shelf.Entry where
  /-- The number of the outcome, in the order in which they were put on the shelf. -/
  serial : Nat
  outcome : Outcome

/-- A shelf over a collection of sources. -/
structure Shelf where
  sources : Sources
  settings : Settings := {}
  entries : Std.HashMap String Shelf.Entry := {}
  /-- The number of the next outcome. -/
  next : Nat := 0

namespace Shelf

/-- The outcome that is on the shelf under a name. -/
def get? (s : Shelf) (name : String) : Option Entry := s.entries[name]?

/-- The outcome of a name, which is read if it is not on the shelf. -/
def getOrLoad (s : Shelf) (name : String) : Except SourceFault Entry × Shelf :=
  match s.get? name with
  | some entry => (.ok entry, s)
  | none =>
    match Outcome.load s.settings (some s.sources.loader) name with
    | .error fault => (.error fault, s)
    | .ok outcome =>
      let entry : Entry := ⟨s.next, outcome⟩
      (.ok entry, { s with entries := s.entries.insert name entry, next := s.next + 1 })

/-- Takes an outcome off the shelf. -/
def invalidate (s : Shelf) (name : String) : Shelf := { s with entries := s.entries.erase name }

/-- Takes everything off the shelf. -/
def clear (s : Shelf) : Shelf := { s with entries := {} }

def contains (s : Shelf) (name : String) : Bool := s.entries.contains name

def size (s : Shelf) : Nat := s.entries.size

def isEmpty (s : Shelf) : Bool := s.entries.isEmpty

/-- Changes the sources; what is on the shelf stays. -/
def withSources (s : Shelf) (sources : Sources) : Shelf := { s with sources }

end Shelf

end DataDictionary
