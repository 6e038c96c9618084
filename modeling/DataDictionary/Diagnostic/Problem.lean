import DataDictionary.Diagnostic.Basic
import DataDictionary.Field.Basic
import DataDictionary.Fault

/-!
# Problems

What can be wrong with a dictionary, by cause. A problem carries what its message will mention and
nothing about where it arose; put at a location it becomes a diagnostic. Its severity, its kind
and its wording follow from the cause alone.
-/

namespace DataDictionary

/-- The two ends at which a field may bound its values. -/
inductive Side where
  | minimum
  | maximum
  deriving DecidableEq

def Side.word : Side → String
  | .minimum => "minimum"
  | .maximum => "maximum"

/-- The directives of an object that take a count. -/
inductive CountOf where
  | extensible
  | minFields
  | maxFields
  deriving DecidableEq

def CountOf.word : CountOf → String
  | .extensible => "extensible"
  | .minFields => "min-fields"
  | .maxFields => "max-fields"

/-- Something wrong with a dictionary. -/
inductive Problem where
  /-- Text in the header of an object that is neither a field nor the end of the object. -/
  | strayText (text object : String)
  /-- A directive that belongs to an object or a field, outside of all objects. -/
  | outsideObject (directive : String)
  | unrecognized (directive : String)
  /-- A removal that follows no inclusion. -/
  | looseRemoval (name : String)
  | fieldOutsideObject (id : FieldId)
  | unterminated (object : String)
  /-- An object of the same name stands earlier in the same source. -/
  | repeatedObject (object : String)
  | conflictingBounds (id : FieldId) (side : Side)
  | badBound (text : String) (id : FieldId)
  | badCount (what : CountOf) (text : String)
  | repeatedKey (key : String) (id : FieldId)
  | invertedBounds (id : FieldId) (minimum maximum : Bound)
  | missingFlag (id : FieldId) (which : Sentinel)
  | repeatedField (id : FieldId) (object : String)
  | tooFewFields (object : String) (declared count : Nat)
  /-- The repeating group is larger than the object. -/
  | groupTooLarge (object : String) (size count : Nat)
  /-- The fields from the mark on do not make up whole groups. -/
  | groupUneven (object : String) (count size : Nat)
  /-- A field is marked, but the object declares no group. -/
  | groupUndeclared (object : String)
  | inclusionDisabled (source : String)
  | inclusionWithoutLoader (source : String)
  /-- The chain leads from the outermost source back to a source that is on it already. -/
  | inclusionCycle (chain : List String)
  | inclusionFailed (fault : SourceFault)
  | removalUnknown (source name : String)
  /-- An included object has the name of one that is already there. -/
  | mergeConflict (object source : String)
  deriving DecidableEq

namespace Problem

def severity : Problem → Severity
  | strayText .. | unrecognized .. | inclusionDisabled .. | inclusionWithoutLoader .. => .info
  | outsideObject .. | looseRemoval .. | badBound .. | badCount .. | repeatedKey ..
  | invertedBounds .. | missingFlag .. | repeatedField .. | tooFewFields .. | groupTooLarge ..
  | groupUneven .. | groupUndeclared .. | removalUnknown .. => .warning
  | fieldOutsideObject .. | unterminated .. | repeatedObject .. | conflictingBounds ..
  | inclusionCycle .. | inclusionFailed .. | mergeConflict .. => .error

def kind : Problem → DiagnosticKind
  | strayText .. => .strayContent
  | outsideObject .. | looseRemoval .. => .directiveOutsideObject
  | unrecognized .. => .unrecognizedDirective
  | fieldOutsideObject .. => .fieldOutsideObject
  | unterminated .. => .unterminatedObject
  | repeatedObject .. => .duplicateObject
  | conflictingBounds .. => .conflictingBounds
  | badBound .. | badCount .. => .invalidNumber
  | repeatedKey .. => .duplicateKey
  | invertedBounds .. => .invertedBounds
  | missingFlag .. => .sentinelWithoutFlag
  | repeatedField .. => .duplicateFieldId
  | tooFewFields .. => .minFieldsExceedsFieldCount
  | groupTooLarge .. | groupUneven .. | groupUndeclared .. => .extensibleMismatch
  | inclusionDisabled .. | inclusionWithoutLoader .. => .includeSkipped
  | inclusionCycle .. => .includeCycle
  | inclusionFailed .. => .includeFailed
  | removalUnknown .. => .unknownRemoval
  | mergeConflict .. => .mergeConflict

def message : Problem → String
  | strayText text object =>
    Text.quote text ++ " in the header of " ++ object ++ " treated as commentary"
  | outsideObject directive => "\\" ++ directive ++ " appears outside any object"
  | unrecognized directive => "\\" ++ directive ++ " is not recognized here"
  | looseRemoval name => "\\remove-object " ++ name ++ " does not follow an \\include-file"
  | fieldOutsideObject id => "field " ++ id.render ++ " is not inside an object"
  | unterminated object => "object " ++ object ++ " is not terminated by ';'"
  | repeatedObject object => "object " ++ object ++ " is already defined"
  | conflictingBounds id side =>
    "field " ++ id.render ++ " declares both inclusive and exclusive " ++ side.word
  | badBound text id =>
    "bound " ++ Text.quote text ++ " on field " ++ id.render ++ " is not a number"
  | badCount what text =>
    "\\" ++ what.word ++ " argument " ++ Text.quote text ++ " is not a count"
  | repeatedKey key id =>
    "key " ++ Text.quote key ++ " is declared twice on field " ++ id.render
  | invertedBounds id minimum maximum =>
    "field " ++ id.render ++ " minimum " ++ minimum.renderMinimum ++ " is not below maximum " ++
      maximum.renderMaximum
  | missingFlag id which =>
    "field " ++ id.render ++ " has a sentinel default but is not " ++ which.flag
  | repeatedField id object => "field " ++ id.render ++ " is declared twice in " ++ object
  | tooFewFields object declared count =>
    object ++ " declares min-fields " ++ Text.decimal declared ++ " but has " ++
      Text.decimal count ++ " fields"
  | groupTooLarge object size count =>
    object ++ " declares extensible:" ++ Text.decimal size ++ " but has " ++
      Text.decimal count ++ " fields"
  | groupUneven object count size =>
    object ++ " has " ++ Text.decimal count ++
      " fields from begin-extensible, not a multiple of " ++ Text.decimal size
  | groupUndeclared object => object ++ " marks begin-extensible without extensible:N"
  | inclusionDisabled source => "include of " ++ source ++ " skipped by configuration"
  | inclusionWithoutLoader source => "include of " ++ source ++ " skipped, no source loader"
  | inclusionCycle chain => (SourceFault.cycle chain).message
  | inclusionFailed fault => fault.message
  | removalUnknown source name => source ++ " does not define " ++ name
  | mergeConflict object source =>
    "object " ++ object ++ " from " ++ source ++ " is already defined"

/-- The diagnostic of a problem found at a place. -/
def report (p : Problem) (location : Location) : Diagnostic :=
  ⟨p.severity, p.kind, location, p.message⟩

end Problem

/-- A problem found on a line of one source. -/
structure Finding where
  line : Nat
  problem : Problem
  deriving DecidableEq

/-- The diagnostic of a finding in a source of the given name. -/
def Finding.report (f : Finding) (source : Option String) : Diagnostic :=
  f.problem.report ⟨source, f.line⟩

end DataDictionary
