import DataDictionary.Diagnostic.Basic
import DataDictionary.Fault

/-!
# Failures

Whatever can go wrong as a whole, under one roof: a source that cannot be had, a dictionary that
is not accepted as it is, and a value that does not suit a field.
-/

namespace DataDictionary

/-- A failure of any kind. -/
inductive Failure where
  | source (fault : SourceFault)
  /-- The diagnostics that make a dictionary unacceptable. -/
  | malformed (diagnostics : Diagnostics)
  | value (fault : ValueFault)
  deriving DecidableEq

namespace Failure

/-- What there is to say about the cause. -/
def cause : Failure → String
  | .source fault => fault.message
  | .malformed diagnostics => diagnostics.malformedMessage
  | .value fault => fault.message

/-- What was going on when it happened. -/
def area : Failure → String
  | .source _ => "source error"
  | .malformed _ => "malformed dictionary"
  | .value _ => "invalid value"

def message (f : Failure) : String := f.area ++ ": " ++ f.cause

end Failure

end DataDictionary
