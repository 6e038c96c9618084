import DataDictionary.Object
import DataDictionary.Source.Field
import DataDictionary.Token

/-!
# An object that is being read

An object is open from its name on until the next name, a directive of the file, or the end of the
source. Up to its first field marker it is in its **header**, where directives are about the object
itself; from then on there is always one field open, the last one.

An object is **closed** by a semicolon, and opened again by a further field marker. Whether it is
closed only matters when it ends.
-/

namespace DataDictionary

/-- An object whose declaration is still being read. -/
structure OpenObject where
  /-- The object with the fields that are finished. -/
  object : Object
  /-- The line of the name. -/
  line : Nat
  closed : Bool
  /-- Whether the object cannot be kept, however it ends. -/
  failed : Bool := false
  /-- Whether the header announced that the next field starts the repeating group. -/
  groupAhead : Bool := false
  /-- The field whose directives are being read. -/
  field : Option OpenField := none
  deriving DecidableEq

namespace OpenObject

/-- An object at its name. -/
def start (name : String) (group : Option String) (closed : Bool) (line : Nat) : OpenObject :=
  { object := { name, group }, line, closed }

/-- Closes the object where a semicolon says so. -/
def closeIf (o : OpenObject) (ending : Option Separator) : OpenObject :=
  { o with closed := o.closed || ending == some .semicolon }

/-- Reads the argument of a directive that takes a count. -/
def readCount (what : CountOf) (text : String) : Option Nat × List Problem :=
  match Number.readCount? text with
  | some n => (some n, [])
  | none => (none, [.badCount what text])

/-- Applies a directive of the header. A count that is too large to be one is forgotten, and takes
an earlier one with it. -/
def apply (o : OpenObject) (k : ObjectKeyword) (argument : String) : OpenObject × List Problem :=
  let d := o.object
  match k with
  | .memo | .note => ({ o with object := { d with memo := addLine d.memo argument } }, [])
  | .uniqueObject => ({ o with object := { d with unique := true } }, [])
  | .requiredObject => ({ o with object := { d with required := true } }, [])
  | .obsolete => ({ o with object := { d with obsolete := some argument } }, [])
  | .urlObject => ({ o with object := { d with urlObject := true } }, [])
  | .extensible =>
    let (count, problems) := readCount .extensible argument
    ({ o with object := { d with extensible := count } }, problems)
  | .format => ({ o with object := { d with format := some argument } }, [])
  | .minFields =>
    let (count, problems) := readCount .minFields argument
    ({ o with object := { d with minFields := count } }, problems)
  | .maxFields =>
    let (count, problems) := readCount .maxFields argument
    ({ o with object := { d with maxFields := count } }, problems)
  | .beginExtensible => ({ o with groupAhead := true }, [])

/-- Applies a directive to the open field. If the field cannot take it, the object fails. -/
def applyToField (o : OpenObject) (f : OpenField) (k : FieldKeyword) (argument : String) :
    OpenObject × List Problem :=
  match f.apply k argument with
  | .ok (f, problems) => ({ o with field := some f }, problems)
  | .error problem => ({ o with failed := true }, [problem])

/-- Finishes the open field and adds it to those of the object. A second field with the same
identifier is kept as well. -/
def finishField (o : OpenObject) : OpenObject × List Finding :=
  match o.field with
  | none => (o, [])
  | some f =>
    let repeated : List Problem :=
      if o.object.fields.any (·.id == f.field.id) then [.repeatedField f.field.id o.object.name]
      else []
    let field := { f.field with index := o.object.fields.length }
    ({ o with object := { o.object with fields := o.object.fields ++ [field] }, field := none },
     (f.problems ++ repeated).map fun problem => ⟨f.line, problem⟩)

/-- Opens a field behind the ones before it. Its marker decides anew whether the object is closed.
-/
def openField (o : OpenObject) (id : FieldId) (ending : Option Separator) (line : Nat) :
    OpenObject × List Finding :=
  let (o, findings) := o.finishField
  let field : Field := { id, beginExtensible := o.groupAhead }
  ({ o with
     field := some { field, line }
     groupAhead := false
     closed := ending == some .semicolon },
   findings)

end OpenObject

end DataDictionary
