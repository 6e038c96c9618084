import DataDictionary.Field.Kind
import DataDictionary.Field.Bound
import DataDictionary.Field.Sentinel

/-!
# Fields

A field definition says everything a dictionary lays down about one position of an object: what
values it takes, in which units, within which bounds, what stands in for a missing value, and
which lists of names it reads from or adds to.
-/

namespace DataDictionary

/-- What stands in for a missing value: a text taken as it is, or a sentinel. -/
inductive Default where
  | literal (text : String)
  | sentinel (which : Sentinel)
  deriving DecidableEq

namespace Default

def literal? : Default → Option String
  | .literal text => some text
  | .sentinel _ => none

def isSentinel (d : Default) : Bool := d.literal?.isNone

end Default

/-- A field definition. -/
structure Field where
  id : FieldId
  /-- The position within the object, from zero. -/
  index : Nat := 0
  name : String := ""
  kind : FieldKind := .ofTrack id.track
  units : Option String := none
  /-- The units in the inch-pound system. -/
  ipUnits : Option String := none
  /-- The field whose value decides the units of this one. -/
  unitsBasedOnField : Option String := none
  minimum : Option Bound := none
  maximum : Option Bound := none
  default : Option Default := none
  required : Bool := false
  autosizable : Bool := false
  autocalculatable : Bool := false
  retaincase : Bool := false
  /-- Why the field is deprecated, if it is. -/
  deprecated : Option String := none
  /-- Whether the first group of repeating fields starts here. -/
  beginExtensible : Bool := false
  /-- The values of a choice, in the order of their declaration. -/
  keys : List String := []
  /-- The lists of names that a value is taken from. -/
  objectLists : List String := []
  externalList : Option String := none
  /-- The lists of names that the value is added to. -/
  references : List String := []
  /-- The lists of class names that the object is added to. -/
  referenceClassNames : List String := []
  note : String := ""
  isLast : Bool := false
  deriving DecidableEq

namespace Field

/-- What a field is called in messages: its name, or its identifier if it has none. -/
def label (f : Field) : String := if f.name = "" then f.id.render else f.name

def isDeprecated (f : Field) : Bool := f.deprecated.isSome

/-- Whether a text without the blanks around it is one of the keys, ignoring case. -/
def hasKey (f : Field) (text : String) : Bool :=
  f.keys.any fun key => Text.sameWord key (Text.strip text)

/-- Whether the field accepts a sentinel as its value. -/
def allows (f : Field) : Sentinel → Bool
  | .autosize => f.autosizable
  | .autocalculate => f.autocalculatable

end Field

end DataDictionary
