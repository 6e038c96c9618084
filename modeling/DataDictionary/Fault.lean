import DataDictionary.Text.Quoted
import DataDictionary.Number.Writing
import DataDictionary.Field.Sentinel

/-!
# Faults

The ways in which an operation can fail outright: a source that cannot be had, or a value that a
field does not accept. Each fault carries its cause, and `message` gives the wording. Problems in
what a dictionary says are not faults: they are collected as diagnostics while reading goes on.
-/

namespace DataDictionary

/-- Why the text of a source cannot be had. -/
inductive SourceFault where
  | notFound (name : String)
  | unreadable (name reason : String)
  /-- A source includes itself; the chain leads from the outermost source back to it. -/
  | cycle (chain : List String)
  | tooDeep (name : String) (depth : Nat)
  deriving DecidableEq

def SourceFault.message : SourceFault → String
  | .notFound name => "dictionary source not found: " ++ name
  | .unreadable name reason => "dictionary source " ++ name ++ " unreadable: " ++ reason
  | .cycle chain => "include cycle: " ++ String.intercalate " -> " chain
  | .tooDeep name depth =>
    "include depth " ++ Text.decimal depth ++ " exceeded while loading " ++ name

/-- Why a field does not accept a value. -/
inductive ValueFault where
  | required (field : String)
  | notAnInteger (field value : String)
  | notANumber (field value : String)
  /-- The bound is given as it is written for a minimum. -/
  | belowMinimum (field : String) (value : Binary64) (bound : String)
  /-- The bound is given as it is written for a maximum. -/
  | aboveMaximum (field : String) (value : Binary64) (bound : String)
  | notAKey (field value : String)
  | sentinelNotAllowed (field : String) (which : Sentinel)
  deriving DecidableEq

def ValueFault.message : ValueFault → String
  | .required field => "field " ++ field ++ " is required"
  | .notAnInteger field value =>
    "field " ++ field ++ " expects an integer, got " ++ Text.quote value
  | .notANumber field value => "field " ++ field ++ " expects a number, got " ++ Text.quote value
  | .belowMinimum field value bound =>
    "field " ++ field ++ " value " ++ Number.toText value ++ " is below minimum " ++ bound
  | .aboveMaximum field value bound =>
    "field " ++ field ++ " value " ++ Number.toText value ++ " is above maximum " ++ bound
  | .notAKey field value => "field " ++ field ++ " does not accept " ++ Text.quote value
  | .sentinelNotAllowed field which => "field " ++ field ++ " is not " ++ which.flag

/-- What is said of a text that is no field marker. -/
def invalidFieldId (text : String) : String := "not a field marker: " ++ Text.quote text

/-- What is said of a text that is no keyword of a field kind. -/
def unknownFieldKind (text : String) : String := "unknown field type: " ++ text

end DataDictionary
