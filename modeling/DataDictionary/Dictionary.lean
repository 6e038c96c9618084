import DataDictionary.Object
import DataDictionary.Directive.Pattern
import DataDictionary.Text.Lowercase
import Std.Data.HashMap

/-!
# Dictionaries

A dictionary is finished once it is made: its objects in order, the groups they belong to, and what
its header says. Objects are looked up by name, without regard to case and to blanks around the
name, through an index from lookup keys to positions. The index is nothing but a quicker way to
search the objects from the front, so the first of several objects of one name is found.
-/

namespace DataDictionary

/-- Positions by lookup key. -/
abbrev NameIndex := Std.HashMap String Nat

/-- The index of objects that stand from `position` on, added to what is there already. A key that
is known keeps its position. -/
def NameIndex.addObjects (index : NameIndex) : (position : Nat) → List Object → NameIndex
  | _, [] => index
  | position, o :: rest =>
    NameIndex.addObjects (index.insertIfNew (Text.lookupKey o.name) position) (position + 1) rest

/-- The index of a list of objects. -/
def NameIndex.ofObjects (objects : List Object) : NameIndex :=
  NameIndex.addObjects {} 0 objects

/-- A dictionary. -/
structure Dictionary where
  version : Option String
  build : Option String
  /-- The text of the header. -/
  header : String
  /-- The names of the groups, in the order of their first appearance. -/
  groups : List String
  objects : List Object
  index : NameIndex := NameIndex.ofObjects objects
  index_eq : index = NameIndex.ofObjects objects := by rfl

namespace Dictionary

/-- The object of the given name. -/
def object? (d : Dictionary) (name : String) : Option Object :=
  (d.index[Text.lookupKey name]?).bind fun position => d.objects[position]?

def contains (d : Dictionary) (name : String) : Bool := d.index.contains (Text.lookupKey name)

/-- The objects of a group, whose name is compared exactly. -/
def objectsIn (d : Dictionary) (group : String) : List Object :=
  d.objects.filter fun o => o.group == some group

def requiredObjects (d : Dictionary) : List Object := d.objects.filter (·.required)

def uniqueObjects (d : Dictionary) : List Object := d.objects.filter (·.unique)

/-- Whether the word `version` begins somewhere in a text; only its first letter may be a capital.
-/
def mentionsVersion : List Char → Bool
  | [] => false
  | c :: cs => (afterCapitals? "Version".toList (c :: cs)).isSome || mentionsVersion cs

/-- The object that states the version of a model: the first one whose name mentions it. -/
def versionObject? (d : Dictionary) : Option Object :=
  d.objects.find? fun o => mentionsVersion o.name.toList

end Dictionary

end DataDictionary
