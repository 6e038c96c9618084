import DataDictionary.Field.Basic
import DataDictionary.Fault

/-!
# Checking values

A value is checked as it would stand in a model file, without the blanks around it. An empty value
is fine unless the field is required. A numeric field takes a number within its bounds, or a
sentinel it has the flag for; a choice takes one of its keys; every other kind takes any text. Of
several rules a value breaks, the one that comes first here is reported.
-/

namespace DataDictionary

namespace Field

/-- Reads the value of a numeric field. An integer is compared as the nearest binary64 number. -/
def readNumber (f : Field) (value : String) : Except ValueFault Binary64 :=
  if f.kind = .integer then
    match Number.readInteger? value with
    | some n => .ok (.ofInt n)
    | none => .error (.notAnInteger f.label value)
  else
    match Number.ofText? value with
    | some x => .ok x
    | none => .error (.notANumber f.label value)

/-- Checks a number against the bounds of the field, the minimum first. -/
def checkBounds (f : Field) (x : Binary64) : Except ValueFault Unit :=
  match f.minimum.filter (!·.admitsAbove x) with
  | some b => .error (.belowMinimum f.label x b.renderMinimum)
  | none =>
    match f.maximum.filter (!·.admitsBelow x) with
    | some b => .error (.aboveMaximum f.label x b.renderMaximum)
    | none => .ok ()

/-- Checks a value that is not empty against a numeric field. -/
def validateNumeric (f : Field) (value : String) : Except ValueFault Unit :=
  match Sentinel.ofWord? value with
  | some s => if f.allows s then .ok () else .error (.sentinelNotAllowed f.label s)
  | none =>
    match f.readNumber value with
    | .ok x => f.checkBounds x
    | .error fault => .error fault

/-- Checks a value against the field. -/
def validate (f : Field) (text : String) : Except ValueFault Unit :=
  let value := Text.strip text
  if value = "" then
    if f.required then .error (.required f.label) else .ok ()
  else if f.kind.isNumeric then f.validateNumeric value
  else if f.kind = .choice then
    if f.hasKey value then .ok () else .error (.notAKey f.label value)
  else .ok ()

end Field

end DataDictionary
