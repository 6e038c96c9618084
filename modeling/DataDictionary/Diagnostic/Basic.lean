import DataDictionary.Text.Digits

/-!
# Diagnostics

Reading a dictionary never stops at a problem. Every problem is recorded as a diagnostic, which
says how serious it is, what it is about, where it was found, and what there is to say about it.
An **error** means that something malformed was left out; a **warning**, that the dictionary
contradicts itself; an **info**, that something was passed over.
-/

namespace DataDictionary

/-- How serious a diagnostic is. -/
inductive Severity where
  | info
  | warning
  | error
  deriving DecidableEq

namespace Severity

def all : List Severity := [.info, .warning, .error]

/-- The severities in order, `info` being the least. -/
def rank : Severity → Nat
  | .info => 0
  | .warning => 1
  | .error => 2

/-- The label of a severity in a message. -/
def label : Severity → String
  | .info => "info"
  | .warning => "warning"
  | .error => "error"

/-- The name of a severity where diagnostics are written out as data. -/
def name : Severity → String
  | .info => "Info"
  | .warning => "Warning"
  | .error => "Error"

def ofLabel? (s : String) : Option Severity := all.find? (·.label == s)

def ofName? (s : String) : Option Severity := all.find? (·.name == s)

theorem mem_all (s : Severity) : s ∈ all := by cases s <;> decide

theorem ofName?_name (s : Severity) : ofName? s.name = some s := by cases s <;> decide +kernel

end Severity

/-- What a diagnostic is about. -/
inductive DiagnosticKind where
  | unterminatedObject
  | conflictingBounds
  | duplicateObject
  | mergeConflict
  | includeFailed
  | includeCycle
  | fieldOutsideObject
  | directiveOutsideObject
  | unrecognizedDirective
  | duplicateKey
  | duplicateFieldId
  | minFieldsExceedsFieldCount
  | extensibleMismatch
  | invertedBounds
  | invalidNumber
  | unknownRemoval
  | strayContent
  | sentinelWithoutFlag
  | includeSkipped
  deriving DecidableEq

namespace DiagnosticKind

def all : List DiagnosticKind :=
  [.unterminatedObject, .conflictingBounds, .duplicateObject, .mergeConflict, .includeFailed,
   .includeCycle, .fieldOutsideObject, .directiveOutsideObject, .unrecognizedDirective,
   .duplicateKey, .duplicateFieldId, .minFieldsExceedsFieldCount, .extensibleMismatch,
   .invertedBounds, .invalidNumber, .unknownRemoval, .strayContent, .sentinelWithoutFlag,
   .includeSkipped]

/-- The code of a kind in a message. -/
def code : DiagnosticKind → String
  | .unterminatedObject => "unterminated-object"
  | .conflictingBounds => "conflicting-bounds"
  | .duplicateObject => "duplicate-object"
  | .mergeConflict => "merge-conflict"
  | .includeFailed => "include-failed"
  | .includeCycle => "include-cycle"
  | .fieldOutsideObject => "field-outside-object"
  | .directiveOutsideObject => "directive-outside-object"
  | .unrecognizedDirective => "unrecognized-directive"
  | .duplicateKey => "duplicate-key"
  | .duplicateFieldId => "duplicate-field-id"
  | .minFieldsExceedsFieldCount => "min-fields-exceeds-field-count"
  | .extensibleMismatch => "extensible-mismatch"
  | .invertedBounds => "inverted-bounds"
  | .invalidNumber => "invalid-number"
  | .unknownRemoval => "unknown-removal"
  | .strayContent => "stray-content"
  | .sentinelWithoutFlag => "sentinel-without-flag"
  | .includeSkipped => "include-skipped"

/-- The name of a kind where diagnostics are written out as data. -/
def name : DiagnosticKind → String
  | .unterminatedObject => "UnterminatedObject"
  | .conflictingBounds => "ConflictingBounds"
  | .duplicateObject => "DuplicateObject"
  | .mergeConflict => "MergeConflict"
  | .includeFailed => "IncludeFailed"
  | .includeCycle => "IncludeCycle"
  | .fieldOutsideObject => "FieldOutsideObject"
  | .directiveOutsideObject => "DirectiveOutsideObject"
  | .unrecognizedDirective => "UnrecognizedDirective"
  | .duplicateKey => "DuplicateKey"
  | .duplicateFieldId => "DuplicateFieldId"
  | .minFieldsExceedsFieldCount => "MinFieldsExceedsFieldCount"
  | .extensibleMismatch => "ExtensibleMismatch"
  | .invertedBounds => "InvertedBounds"
  | .invalidNumber => "InvalidNumber"
  | .unknownRemoval => "UnknownRemoval"
  | .strayContent => "StrayContent"
  | .sentinelWithoutFlag => "SentinelWithoutFlag"
  | .includeSkipped => "IncludeSkipped"

def ofCode? (s : String) : Option DiagnosticKind := all.find? (·.code == s)

def ofName? (s : String) : Option DiagnosticKind := all.find? (·.name == s)

theorem mem_all (k : DiagnosticKind) : k ∈ all := by cases k <;> decide

theorem ofName?_name (k : DiagnosticKind) : ofName? k.name = some k := by
  cases k <;> decide +kernel

end DiagnosticKind

/-- Where a diagnostic was raised: the name of the source, if it has one, and a line counted from
one. -/
structure Location where
  source : Option String
  line : Nat
  deriving DecidableEq

def Location.render (loc : Location) : String :=
  match loc.source with
  | some source => source ++ ":" ++ Text.decimal loc.line
  | none => "line " ++ Text.decimal loc.line

/-- One problem found in a dictionary. -/
structure Diagnostic where
  severity : Severity
  kind : DiagnosticKind
  location : Location
  message : String
  deriving DecidableEq

namespace Diagnostic

def isError (d : Diagnostic) : Bool := d.severity == .error

def isWarning (d : Diagnostic) : Bool := d.severity == .warning

/-- The diagnostic on one line: severity, code, place and message. -/
def render (d : Diagnostic) : String :=
  d.severity.label ++ "[" ++ d.kind.code ++ "] " ++ d.location.render ++ ": " ++ d.message

end Diagnostic

/-- Diagnostics in the order in which they were raised. -/
abbrev Diagnostics := List Diagnostic

namespace Diagnostics

def errors (ds : Diagnostics) : Diagnostics := ds.filter (·.isError)

def warnings (ds : Diagnostics) : Diagnostics := ds.filter (·.isWarning)

def ofKind (ds : Diagnostics) (kind : DiagnosticKind) : Diagnostics := ds.filter (·.kind == kind)

def hasErrors (ds : Diagnostics) : Bool := ds.any (·.isError)

def hasWarnings (ds : Diagnostics) : Bool := ds.any (·.isWarning)

/-- The errors and warnings. -/
def problems (ds : Diagnostics) : Diagnostics := ds.filter fun d => d.isError || d.isWarning

/-- The worst severity among the diagnostics. -/
def worst? (ds : Diagnostics) : Option Severity := (ds.map (·.severity)).maxOn? Severity.rank

/-- The diagnostics with repeated ones left out. -/
def distinct (ds : Diagnostics) : Diagnostics := ds.eraseDups

/-- What is said of diagnostics that make a dictionary unacceptable. -/
def malformedMessage (ds : Diagnostics) : String :=
  Text.decimal ds.length ++ " problem(s), first: " ++ (ds.head?.map (·.render)).getD ""

end Diagnostics

end DataDictionary
