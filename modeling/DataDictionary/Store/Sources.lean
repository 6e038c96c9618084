import DataDictionary.Inclusion
import Std.Data.HashMap

/-!
# Sources in memory

A collection of texts by name, for dictionaries that are not kept in files. A name has one text at
a time; giving it another replaces the first.
-/

namespace DataDictionary

/-- Texts by name. -/
structure Sources where
  texts : Std.HashMap String String := {}

namespace Sources

def empty : Sources := {}

def insert (s : Sources) (name text : String) : Sources := ⟨s.texts.insert name text⟩

def erase (s : Sources) (name : String) : Sources := ⟨s.texts.erase name⟩

def get? (s : Sources) (name : String) : Option String := s.texts[name]?

def contains (s : Sources) (name : String) : Bool := s.texts.contains name

def size (s : Sources) : Nat := s.texts.size

def isEmpty (s : Sources) : Bool := s.texts.isEmpty

def ofList (pairs : List (String × String)) : Sources :=
  pairs.foldl (fun s (name, text) => s.insert name text) empty

/-- The text of a name, or the fault that there is none. -/
def loader (s : Sources) : Loader := fun name =>
  match s.get? name with
  | some text => .ok text
  | none => .error (.notFound name)

/-! ## What the operations do to the texts -/

theorem get?_insert (s : Sources) (name text other : String) :
    (s.insert name text).get? other = if name = other then some text else s.get? other := by
  simp [get?, insert, Std.HashMap.getElem?_insert]

theorem get?_erase (s : Sources) (name other : String) :
    (s.erase name).get? other = if name = other then none else s.get? other := by
  simp [get?, erase, Std.HashMap.getElem?_erase]

theorem contains_eq_isSome (s : Sources) (name : String) :
    s.contains name = (s.get? name).isSome := by
  simp [contains, get?, Std.HashMap.isSome_getElem?_eq_contains]

end Sources

end DataDictionary
