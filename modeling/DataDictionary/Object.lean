import DataDictionary.Field.Basic
import DataDictionary.Number.Reading

/-!
# Objects

An object definition is a name, a few flags and an ordered list of fields. The fields at the end
may form a group that repeats; `extensible` gives the size of that group. The group starts at the
field marked for it, or, if none is marked, so that it takes up the last fields.
-/

namespace DataDictionary

/-- An object definition. -/
structure Object where
  name : String
  /-- The documentation, one line for each directive that adds to it. -/
  memo : String := ""
  /-- The group in force where the object was declared. -/
  group : Option String := none
  /-- Whether a model may hold only one such object. -/
  unique : Bool := false
  /-- Whether a model must hold such an object. -/
  required : Bool := false
  /-- Why the object is obsolete, if it is. -/
  obsolete : Option String := none
  urlObject : Bool := false
  format : Option String := none
  /-- How many fields an instance must have at least. -/
  minFields : Option Nat := none
  /-- How many fields an instance may have at most. -/
  maxFields : Option Nat := none
  /-- How many fields a repeating group has. -/
  extensible : Option Nat := none
  fields : List Field := []
  deriving DecidableEq

namespace Object

def field? (o : Object) (index : Nat) : Option Field := o.fields[index]?

def fieldById? (o : Object) (id : FieldId) : Option Field := o.fields.find? (·.id == id)

/-- The first field with the given name, ignoring case and the blanks around the name asked for. -/
def fieldByName? (o : Object) (name : String) : Option Field :=
  o.fields.find? fun f => Text.sameWord f.name (Text.strip name)

def lastField? (o : Object) : Option Field := o.fields.getLast?

def isObsolete (o : Object) : Bool := o.obsolete.isSome

def isExtensible (o : Object) : Bool := o.extensible.isSome

/-- The size of a repeating group, zero if nothing repeats. -/
def groupSize (o : Object) : Nat := o.extensible.getD 0

/-- The position of the field marked as the start of the first repeating group. -/
def groupMark? (o : Object) : Option Nat := o.fields.findIdx? (·.beginExtensible)

/-- How many fields stand in front of the repeating groups. -/
def fixedCount (o : Object) : Nat :=
  match o.extensible with
  | none => o.fields.length
  | some size => o.groupMark?.getD (o.fields.length - size)

/-- The fields that never repeat. -/
def fixedFields (o : Object) : List Field := o.fields.take o.fixedCount

/-- The first repeating group, empty if nothing repeats, and cut short by the end of the fields.
There is no answer when the group would end beyond the largest possible count. -/
def group? (o : Object) : Option (List Field) :=
  if o.fixedCount + o.groupSize < Number.countLimit then
    some ((o.fields.drop o.fixedCount).take o.groupSize)
  else none

end Object

end DataDictionary
