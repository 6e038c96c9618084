import DataDictionary.Number.Numeral

/-!
# JSON values

The form in which dictionaries and diagnostics are exchanged as data. Numbers keep the digits they
are written with, and objects keep the order and the repetition of their members, so that nothing
is decided before it is known what a value is meant to be.

A string may be written with half of a surrogate pair. It is then no text and has no value, but
it can still be passed over where nobody looks at it.
-/

namespace DataDictionary

/-- A JSON value. The contents of a string are missing if it is no text. -/
inductive Json where
  | null
  | bool (value : Bool)
  | number (value : Numeral)
  | string (value : Option String)
  | array (items : List Json)
  | object (members : List (Option String × Json))

namespace Json

/-- A string that is a text. -/
def text (s : String) : Json := string (some s)

/-- A whole number. -/
def nat (n : Nat) : Json := number { whole := Text.digits n }

/-- A value that may be missing. -/
def optional {α : Type} (toJson : α → Json) : Option α → Json
  | none => null
  | some a => toJson a

/-- A list of values. -/
def list {α : Type} (toJson : α → Json) (as : List α) : Json := array (as.map toJson)

end Json

end DataDictionary
