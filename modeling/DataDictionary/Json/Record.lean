import DataDictionary.Json.Value

/-!
# Records in JSON

A record with fixed keys is written as an object, its members in the order of the keys. It is read
from an object whose members may come in any order, with members of other keys passed over, but
none of its own keys repeated. It may also be given as the array of its values alone, in the order
of the keys, and then it must be complete.

A value out of a fixed set is written as its name, and read from its name or from an object with
that name as its only key.
-/

namespace DataDictionary

namespace Json

/-- A record with the given keys and their values. -/
def record (keys : List String) (values : List Json) : Json :=
  object ((keys.map some).zip values)

/-- The value of a key, if there is one; no answer if there are several. -/
def valueOf? (members : List (Option String × Json)) (key : String) : Option (Option Json) :=
  match members.filter (·.1 == some key) with
  | [] => some none
  | [member] => some (some member.2)
  | _ => none

/-- The values of a record, key by key. -/
def values? (keys : List String) : Json → Option (List (Option Json))
  | object members =>
    if members.all (·.1.isSome) then keys.mapM (valueOf? members) else none
  | array items => if items.length = keys.length then some (items.map some) else none
  | _ => none

variable {α : Type}

/-- Reads a value that must be there. -/
def readRequired? (read? : Json → Option α) : Option Json → Option α
  | none => none
  | some j => read? j

/-- Reads a value that may be missing or null. -/
def readOptional? (read? : Json → Option α) : Option Json → Option (Option α)
  | none => some none
  | some null => some none
  | some j => (read? j).map some

def readText? : Json → Option String
  | string s => s
  | _ => none

def readBool? : Json → Option Bool
  | bool b => some b
  | _ => none

def readList? (read? : Json → Option α) : Json → Option (List α)
  | array items => items.mapM read?
  | _ => none

/-- Reads a name, alone or as the only key of an object; in the latter case its value comes with it.
-/
def readName? : Json → Option (String × Option Json)
  | string (some name) => some (name, none)
  | object [(some name, value)] => some (name, some value)
  | _ => none

/-- Reads a name that stands for a value by itself. -/
def readNamed? (ofName? : String → Option α) (j : Json) : Option α :=
  match readName? j with
  | some (name, none) | some (name, some null) => ofName? name
  | _ => none

end Json

end DataDictionary
