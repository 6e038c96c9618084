import DataDictionary.Object
import DataDictionary.Header
import DataDictionary.Diagnostic.Problem

/-!
# Sources

What one source says by itself, before the sources it includes are looked at: its header, the
items it declares in their order, and what was found wrong with it.
-/

namespace DataDictionary

/-- The inclusion of another source. -/
structure Inclusion where
  source : String
  /-- The objects of that source that are to be left out. -/
  removed : List String := []
  line : Nat
  deriving DecidableEq

/-- An item of a source. -/
inductive Item where
  /-- A complete object, declared on the given line. -/
  | object (definition : Object) (line : Nat)
  | inclusion (directive : Inclusion)
  | group (name : String)
  deriving DecidableEq

/-- The object of an item, if it is one. -/
def Item.object? : Item → Option Object
  | .object o _ => some o
  | _ => none

/-- A source as it was read. -/
structure Source where
  header : Header
  items : List Item
  findings : List Finding
  deriving DecidableEq

/-- The objects that a source keeps, in order. -/
def Source.objects (s : Source) : List Object := s.items.filterMap Item.object?

end DataDictionary
