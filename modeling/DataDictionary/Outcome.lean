import DataDictionary.Assembly
import DataDictionary.Failure

/-!
# Outcomes

Reading a dictionary always gives a dictionary, together with everything there was to report. Who
wants all or nothing asks for the strict result.
-/

namespace DataDictionary

/-- A dictionary and what was reported while it was read. -/
structure Outcome where
  dictionary : Dictionary
  diagnostics : Diagnostics

namespace Outcome

/-- What the outermost source is called when it has no name. -/
def anonymous : String := "<input>"

/-- Reads a dictionary from its text. The loader gives the sources it includes. -/
def ofText (settings : Settings) (loader : Option Loader) (text : String) : Outcome :=
  let source := Source.ofText text
  let resolver : Resolver := ⟨loader, settings⟩
  let chain := [settings.sourceName.getD anonymous]
  let (merged, found) :=
    resolver.resolve settings.maxIncludeDepth settings.sourceName chain source
  let (dictionary, diagnostics) := assemble settings source.header merged
  ⟨dictionary, found ++ diagnostics⟩

/-- Reads the dictionary of the given name. In diagnostics it goes by that name, unless the settings
have another one for it. -/
def load (settings : Settings) (loader : Option Loader) (name : String) :
    Except SourceFault Outcome :=
  match loader with
  | none => .error (.notFound name)
  | some load =>
    match load name with
    | .error fault => .error fault
    | .ok text =>
      let settings := { settings with sourceName := settings.sourceName.or (some name) }
      .ok (ofText settings loader text)

/-- Whether nothing worse than an info was reported. -/
def isClean (o : Outcome) : Bool := !o.diagnostics.hasErrors && !o.diagnostics.hasWarnings

def hasErrors (o : Outcome) : Bool := o.diagnostics.hasErrors

/-- The dictionary, if the given diagnostics leave nothing to object to. -/
def accept (o : Outcome) (objections : Diagnostics) : Except Failure Dictionary :=
  if objections = [] then .ok o.dictionary else .error (.malformed objections)

/-- The dictionary, if no errors were reported. -/
def strict (o : Outcome) : Except Failure Dictionary := o.accept o.diagnostics.errors

/-- The dictionary, if neither errors nor warnings were reported. -/
def strictWithWarnings (o : Outcome) : Except Failure Dictionary :=
  o.accept o.diagnostics.problems

end Outcome

end DataDictionary
