import DataDictionary.Json.Number
import DataDictionary.Json.Reader
import DataDictionary.Json.Printer
import DataDictionary.Json.Record
import DataDictionary.Diagnostic.Basic

/-!
# Diagnostics as JSON

A report is the list of its diagnostics, each a record.
-/

namespace DataDictionary

open Json

namespace Location

def jsonKeys : List String := ["source", "line"]

def toJson (loc : Location) : Json := record jsonKeys [optional text loc.source, nat loc.line]

def ofJson? (j : Json) : Option Location := do
  let [source, line] ← values? jsonKeys j | none
  let source ← readOptional? readText? source
  let line ← readRequired? (readNatBelow? UInt64.size) line
  some ⟨source, line⟩

end Location

namespace Diagnostic

def jsonKeys : List String := ["severity", "kind", "location", "message"]

def toJson (d : Diagnostic) : Json :=
  record jsonKeys [text d.severity.name, text d.kind.name, d.location.toJson, text d.message]

def ofJson? (j : Json) : Option Diagnostic := do
  let [severity, kind, location, message] ← values? jsonKeys j | none
  let severity ← readRequired? (readNamed? Severity.ofName?) severity
  let kind ← readRequired? (readNamed? DiagnosticKind.ofName?) kind
  let location ← readRequired? Location.ofJson? location
  let message ← readRequired? readText? message
  some ⟨severity, kind, location, message⟩

end Diagnostic

namespace Diagnostics

/-- The diagnostics as JSON text. -/
def renderJson (ds : Diagnostics) : String := (Json.list Diagnostic.toJson ds).render

/-- Reads diagnostics from JSON text. -/
def parseJson? (s : String) : Option Diagnostics :=
  (Json.parse? s).bind (readList? Diagnostic.ofJson?)

end Diagnostics

end DataDictionary
