import DataDictionary.Directive.Table
import DataDictionary.Diagnostic.Problem

/-!
# A field that is being read

A field is open from its marker on until the next marker or the end of its object. Its directives
are applied to it one by one. What can only be judged once all of them are known, whether the
bounds leave room and whether a sentinel has its flag, is looked at when the field is finished.
-/

namespace DataDictionary

/-- The two ways of writing a bound: `minimum 0` includes the bound, `minimum> 0` excludes it. -/
inductive BoundForm where
  | inclusive
  | exclusive
  deriving DecidableEq

def BoundForm.bound (form : BoundForm) (value : Binary64) : Bound := ⟨value, form = .inclusive⟩

/-- A field whose directives are still being read. -/
structure OpenField where
  field : Field
  /-- The line of the field marker. -/
  line : Nat
  /-- The form in which the minimum was first written. -/
  minimumForm : Option BoundForm := none
  /-- The form in which the maximum was first written. -/
  maximumForm : Option BoundForm := none
  deriving DecidableEq

/-- The text with another line added to it. An empty text has no lines yet. -/
def addLine (text line : String) : String := if text = "" then line else text ++ "\n" ++ line

namespace OpenField

/-- The form in which a bound was first written. -/
def form (f : OpenField) : Side → Option BoundForm
  | .minimum => f.minimumForm
  | .maximum => f.maximumForm

def withForm (f : OpenField) (side : Side) (form : BoundForm) : OpenField :=
  match side with
  | .minimum => { f with minimumForm := some form }
  | .maximum => { f with maximumForm := some form }

def withBound (f : OpenField) (side : Side) (bound : Bound) : OpenField :=
  match side with
  | .minimum => { f with field := { f.field with minimum := some bound } }
  | .maximum => { f with field := { f.field with maximum := some bound } }

/-- What a directive does to a field: it fails if the object cannot be kept, and otherwise it may
still find something to complain about. -/
abbrev Applied := Except Problem (OpenField × List Problem)

/-- Sets a bound. All directives for one bound must be of one form; a later number replaces an
earlier one, and what is no number is passed over. -/
def setBound (f : OpenField) (side : Side) (form : BoundForm) (text : String) : Applied :=
  if (f.form side).any (· ≠ form) then .error (.conflictingBounds f.field.id side)
  else
    let f := f.withForm side form
    match Number.ofText? text with
    | some value => .ok (f.withBound side (form.bound value), [])
    | none => .ok (f, [.badBound text f.field.id])

/-- Adds a key, unless it is there already. -/
def addKey (f : OpenField) (key : String) : OpenField × List Problem :=
  if f.field.hasKey key then (f, [.repeatedKey key f.field.id])
  else ({ f with field := { f.field with keys := f.field.keys ++ [key] } }, [])

/-- The default that a text declares. -/
def defaultOf (text : String) : Default :=
  match Sentinel.inDefault? text with
  | some s => .sentinel s
  | none => .literal text

/-- The field with its definition changed. -/
def change (f : OpenField) (field : Field) : Applied := .ok ({ f with field }, [])

/-- Applies a directive. -/
def apply (f : OpenField) (k : FieldKeyword) (argument : String) : Applied :=
  let d := f.field
  match k with
  | .field => f.change { d with name := argument }
  | .requiredField => f.change { d with required := true }
  | .autosizable => f.change { d with autosizable := true }
  | .autocalculatable => f.change { d with autocalculatable := true }
  | .retaincase => f.change { d with retaincase := true }
  | .unitsBasedOnField => f.change { d with unitsBasedOnField := some argument }
  | .units => f.change { d with units := some argument }
  | .ipUnits => f.change { d with ipUnits := some argument }
  | .minimumExclusive => f.setBound .minimum .exclusive argument
  | .minimumInclusive => f.setBound .minimum .inclusive argument
  | .maximumExclusive => f.setBound .maximum .exclusive argument
  | .maximumInclusive => f.setBound .maximum .inclusive argument
  | .deprecated => f.change { d with deprecated := some argument }
  | .default => f.change { d with default := some (defaultOf argument) }
  | .kind => f.change { d with kind := (FieldKind.parse? argument).getD d.kind }
  | .key => .ok (f.addKey argument)
  | .objectList => f.change { d with objectLists := d.objectLists ++ [argument] }
  | .externalList => f.change { d with externalList := some argument }
  | .referenceClassName =>
    f.change { d with referenceClassNames := d.referenceClassNames ++ [argument] }
  | .reference => f.change { d with references := d.references ++ [argument] }
  | .note => f.change { d with note := addLine d.note argument }
  | .beginExtensible => f.change { d with beginExtensible := true }

/-- What is wrong with the bounds of a finished field. -/
def boundProblems (f : Field) : List Problem :=
  match f.minimum, f.maximum with
  | some low, some high =>
    if Bound.consistent low high then [] else [.invertedBounds f.id low high]
  | _, _ => []

/-- What is wrong with the default of a finished field. -/
def defaultProblems (f : Field) : List Problem :=
  match f.default with
  | some (.sentinel s) => if f.allows s then [] else [.missingFlag f.id s]
  | _ => []

/-- What is wrong with a finished field by itself. -/
def problems (f : OpenField) : List Problem := boundProblems f.field ++ defaultProblems f.field

end OpenField

end DataDictionary
