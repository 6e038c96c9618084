import DataDictionary.Json.Number
import DataDictionary.Json.Reader
import DataDictionary.Json.Printer
import DataDictionary.Json.Record
import DataDictionary.Dictionary

/-!
# Dictionaries as JSON

Every part of a dictionary is a record of its own; only the index of names is left out, since it
follows from the objects. What a dictionary read back says is taken as it is: nothing is checked or
numbered anew.
-/

namespace DataDictionary

open Json

/-! ## Field identifiers -/

def Track.name : Track → String
  | .alpha => "Alpha"
  | .numeric => "Numeric"

def Track.ofName? (s : String) : Option Track := [Track.alpha, .numeric].find? (·.name == s)

namespace FieldId

def jsonKeys : List String := ["track", "number"]

def toJson (id : FieldId) : Json := record jsonKeys [text id.track.name, nat id.number.toNat]

def ofJson? (j : Json) : Option FieldId := do
  let [track, number] ← values? jsonKeys j | none
  let track ← readRequired? (readNamed? Track.ofName?) track
  let number ← readRequired? (readNatBelow? UInt32.size) number
  some ⟨track, UInt32.ofNat number⟩

end FieldId

/-! ## Bounds, defaults and kinds -/

namespace Bound

def jsonKeys : List String := ["value", "inclusive"]

def toJson (b : Bound) : Json := record jsonKeys [ofBinary64 b.value, bool b.inclusive]

def ofJson? (j : Json) : Option Bound := do
  let [value, inclusive] ← values? jsonKeys j | none
  let value ← readRequired? readBinary64? value
  let inclusive ← readRequired? readBool? inclusive
  some ⟨value, inclusive⟩

end Bound

namespace Sentinel

def name : Sentinel → String
  | .autosize => "Autosize"
  | .autocalculate => "Autocalculate"

def ofName? (s : String) : Option Sentinel :=
  [Sentinel.autosize, .autocalculate].find? (·.name == s)

end Sentinel

namespace Default

def literalName : String := "Literal"

def toJson : Default → Json
  | .literal s => object [(some literalName, text s)]
  | .sentinel s => text s.name

def ofJson? (j : Json) : Option Default :=
  match readName? j with
  | some (name, value) =>
    if name = literalName then (readRequired? readText? value).map .literal
    else (readNamed? Sentinel.ofName? j).map .sentinel
  | none => none

end Default

def FieldKind.toJson (kind : FieldKind) : Json := text kind.name

def FieldKind.ofJson? (j : Json) : Option FieldKind := readNamed? FieldKind.ofName? j

/-- Reads a count or a position. -/
def readCountJson? : Json → Option Nat := readNatBelow? Number.countLimit

/-! ## Fields -/

namespace Field

def jsonKeys : List String :=
  ["id", "index", "name", "field_type", "units", "ip_units", "units_based_on_field", "minimum",
   "maximum", "default", "required", "autosizable", "autocalculatable", "retaincase", "deprecated",
   "begin_extensible", "keys", "object_lists", "external_list", "references",
   "reference_class_names", "note", "is_last"]

def toJson (f : Field) : Json :=
  record jsonKeys
    [f.id.toJson, nat f.index, text f.name, f.kind.toJson, optional text f.units,
     optional text f.ipUnits, optional text f.unitsBasedOnField, optional Bound.toJson f.minimum,
     optional Bound.toJson f.maximum, optional Default.toJson f.default, bool f.required,
     bool f.autosizable, bool f.autocalculatable, bool f.retaincase, optional text f.deprecated,
     bool f.beginExtensible, list text f.keys, list text f.objectLists,
     optional text f.externalList, list text f.references, list text f.referenceClassNames,
     text f.note, bool f.isLast]

def ofJson? (j : Json) : Option Field := do
  let [id, index, name, kind, units, ipUnits, unitsBasedOnField, minimum, maximum, default,
    required, autosizable, autocalculatable, retaincase, deprecated, beginExtensible, keys,
    objectLists, externalList, references, referenceClassNames, note, isLast] ←
    values? jsonKeys j | none
  let id ← readRequired? FieldId.ofJson? id
  let index ← readRequired? readCountJson? index
  let name ← readRequired? readText? name
  let kind ← readRequired? FieldKind.ofJson? kind
  let units ← readOptional? readText? units
  let ipUnits ← readOptional? readText? ipUnits
  let unitsBasedOnField ← readOptional? readText? unitsBasedOnField
  let minimum ← readOptional? Bound.ofJson? minimum
  let maximum ← readOptional? Bound.ofJson? maximum
  let default ← readOptional? Default.ofJson? default
  let required ← readRequired? readBool? required
  let autosizable ← readRequired? readBool? autosizable
  let autocalculatable ← readRequired? readBool? autocalculatable
  let retaincase ← readRequired? readBool? retaincase
  let deprecated ← readOptional? readText? deprecated
  let beginExtensible ← readRequired? readBool? beginExtensible
  let keys ← readRequired? (readList? readText?) keys
  let objectLists ← readRequired? (readList? readText?) objectLists
  let externalList ← readOptional? readText? externalList
  let references ← readRequired? (readList? readText?) references
  let referenceClassNames ← readRequired? (readList? readText?) referenceClassNames
  let note ← readRequired? readText? note
  let isLast ← readRequired? readBool? isLast
  some {
    id, index, name, kind, units, ipUnits, unitsBasedOnField, minimum, maximum, default, required,
    autosizable, autocalculatable, retaincase, deprecated, beginExtensible, keys, objectLists,
    externalList, references, referenceClassNames, note, isLast }

end Field

/-! ## Objects -/

namespace Object

def jsonKeys : List String :=
  ["name", "memo", "group", "unique", "required", "obsolete", "url_object", "format", "min_fields",
   "max_fields", "extensible", "fields"]

def toJson (o : Object) : Json :=
  record jsonKeys
    [text o.name, text o.memo, optional text o.group, bool o.unique, bool o.required,
     optional text o.obsolete, bool o.urlObject, optional text o.format, optional nat o.minFields,
     optional nat o.maxFields, optional nat o.extensible, list Field.toJson o.fields]

def ofJson? (j : Json) : Option Object := do
  let [name, memo, group, unique, required, obsolete, urlObject, format, minFields, maxFields,
    extensible, fields] ← values? jsonKeys j | none
  let name ← readRequired? readText? name
  let memo ← readRequired? readText? memo
  let group ← readOptional? readText? group
  let unique ← readRequired? readBool? unique
  let required ← readRequired? readBool? required
  let obsolete ← readOptional? readText? obsolete
  let urlObject ← readRequired? readBool? urlObject
  let format ← readOptional? readText? format
  let minFields ← readOptional? readCountJson? minFields
  let maxFields ← readOptional? readCountJson? maxFields
  let extensible ← readOptional? readCountJson? extensible
  let fields ← readRequired? (readList? Field.ofJson?) fields
  some {
    name, memo, group, unique, required, obsolete, urlObject, format, minFields, maxFields,
    extensible, fields }

end Object

/-! ## Dictionaries -/

namespace Dictionary

def jsonKeys : List String := ["version", "build", "header", "groups", "objects"]

def toJson (d : Dictionary) : Json :=
  record jsonKeys
    [optional text d.version, optional text d.build, text d.header, list text d.groups,
     list Object.toJson d.objects]

def ofJson? (j : Json) : Option Dictionary := do
  let [version, build, header, groups, objects] ← values? jsonKeys j | none
  let version ← readOptional? readText? version
  let build ← readOptional? readText? build
  let header ← readRequired? readText? header
  let groups ← readRequired? (readList? readText?) groups
  let objects ← readRequired? (readList? Object.ofJson?) objects
  some { version, build, header, groups, objects }

/-- The dictionary as JSON text. -/
def renderJson (d : Dictionary) : String := d.toJson.render

/-- Reads a dictionary from JSON text. -/
def parseJson? (s : String) : Option Dictionary := (Json.parse? s).bind ofJson?

end Dictionary

end DataDictionary
