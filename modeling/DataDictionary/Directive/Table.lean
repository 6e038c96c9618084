import DataDictionary.Directive.Pattern

/-!
# The directives

Every directive belongs to the file, to an object or to a field, and which ones are understood
depends on the place: those of the file are understood everywhere, those of an object only in its
header, those of a field only behind its marker. Two keywords, `note` and `begin-extensible`, exist
for objects and for fields.

A keyword may be the beginning of another one. The tables are ordered so that the longer one comes
first, and the first pattern that fits decides.
-/

namespace DataDictionary

/-- The directives of the file. -/
inductive FileKeyword where
  | group
  | includeFile
  | removeObject
  deriving DecidableEq

/-- The directives of an object. -/
inductive ObjectKeyword where
  | memo
  | note
  | uniqueObject
  | requiredObject
  | obsolete
  | urlObject
  | extensible
  | format
  | minFields
  | maxFields
  | beginExtensible
  deriving DecidableEq

/-- The directives of a field. -/
inductive FieldKeyword where
  | field
  | requiredField
  | autosizable
  | autocalculatable
  | retaincase
  | unitsBasedOnField
  | units
  | ipUnits
  | minimumExclusive
  | minimumInclusive
  | maximumExclusive
  | maximumInclusive
  | deprecated
  | default
  | kind
  | key
  | objectList
  | externalList
  | referenceClassName
  | reference
  | note
  | beginExtensible
  deriving DecidableEq

/-- A keyword of any of the three tables. -/
inductive Keyword where
  | file (k : FileKeyword)
  | object (k : ObjectKeyword)
  | field (k : FieldKeyword)
  deriving DecidableEq

/-- The place a directive stands in. -/
inductive Scope where
  /-- Outside of all objects. -/
  | file
  /-- Behind the name of an object, before its first field. -/
  | object
  /-- Behind a field marker. -/
  | field
  deriving DecidableEq

/-- A row of a table. -/
structure Rule where
  keyword : Keyword
  pattern : Pattern
  deriving DecidableEq

namespace Rule

def ofFile (k : FileKeyword) (word : String) (form : ArgumentForm) : Rule :=
  ⟨.file k, .capitals word, form⟩

def ofObject (k : ObjectKeyword) (word : String) (form : ArgumentForm) : Rule :=
  ⟨.object k, .capitals word, form⟩

def ofField (k : FieldKeyword) (word : String) (form : ArgumentForm) : Rule :=
  ⟨.field k, .capitals word, form⟩

/-- The directives of the file. -/
def fileRules : List Rule :=
  [ofFile .group "Group" .restOfLine,
   ofFile .includeFile "Include-File" .restOfLine,
   ofFile .removeObject "Remove-Object" .restOfLine]

/-- The directives of an object. -/
def objectRules : List Rule :=
  [ofObject .memo "Memo" .restOfLine,
   ofObject .note "Note" .restOfLine,
   ofObject .uniqueObject "Unique-Object" .flag,
   ofObject .requiredObject "Required-Object" .flag,
   ofObject .obsolete "Obsolete" .restOfLine,
   ⟨.object .urlObject, .anyCase "url-object", .flag⟩,
   ofObject .extensible "Extensible" .groupSize,
   ofObject .format "Format" .untilComment,
   ofObject .minFields "Min-Fields" .count,
   ofObject .maxFields "Max-Fields" .count,
   ofObject .beginExtensible "Begin-Extensible" .flag]

/-- The directives of a field. -/
def fieldRules : List Rule :=
  [ofField .field "Field" .untilComment,
   ofField .requiredField "Required-Field" .flag,
   ofField .autosizable "Autosizable" .flag,
   ofField .autocalculatable "Autocalculatable" .flag,
   ofField .retaincase "Retaincase" .flag,
   ofField .unitsBasedOnField "UnitsBasedOnField" .untilComment,
   ofField .units "Units" .untilComment,
   ofField .ipUnits "IP-Units" .untilComment,
   ofField .minimumExclusive "Minimum" (.afterMark '>'),
   ofField .minimumInclusive "Minimum" (.beforeMark '>'),
   ofField .maximumExclusive "Maximum" (.afterMark '<'),
   ofField .maximumInclusive "Maximum" (.beforeMark '<'),
   ofField .deprecated "Deprecated" .restOfLine,
   ofField .default "Default" .untilComment,
   ⟨.field .kind, .anyCase "type", .fieldKind⟩,
   ofField .key "Key" .restOfLine,
   ofField .objectList "Object-List" .untilComment,
   ofField .externalList "External-List" .untilComment,
   ofField .referenceClassName "Reference-Class-Name" .untilComment,
   ofField .reference "Reference" .untilComment,
   ofField .note "Note" .restOfLine,
   ofField .beginExtensible "Begin-Extensible" .flag]

/-- The argument that a text has under this rule, if the rule fits. -/
def argument? (r : Rule) (cs : List Char) : Option String := r.pattern.match? cs

end Rule

/-- The rules for directives in a scope, in the order in which they are tried. -/
def Scope.rules : Scope → List Rule
  | .file => Rule.fileRules
  | .object => Rule.fileRules ++ Rule.objectRules
  | .field => Rule.fileRules ++ Rule.fieldRules

/-- A directive that has been understood. -/
structure Directive where
  keyword : Keyword
  /-- The argument without the blanks around it; empty if the directive takes none. -/
  argument : String
  deriving DecidableEq

namespace Directive

/-- Reads a directive by the first rule that fits. -/
def classify? (scope : Scope) (text : String) : Option Directive :=
  let cs := Text.trimStart text.toList
  scope.rules.findSome? fun rule => (rule.argument? cs).map fun argument => ⟨rule.keyword, argument⟩

/-- Whether a directive would be understood in some object or some field. -/
def isKnown (text : String) : Bool :=
  let cs := Text.trimStart text.toList
  (Rule.objectRules ++ Rule.fieldRules).any fun rule => (rule.argument? cs).isSome

example : classify? .field "Minimum > 0.5 " = some ⟨.field .minimumExclusive, "0.5"⟩ ∧
    classify? .field "minimum 0>1" = some ⟨.field .minimumInclusive, "0"⟩ ∧
    classify? .object "extensible : 3 rest" = some ⟨.object .extensible, "3"⟩ ∧
    classify? .object "extensible:0" = none ∧
    classify? .file "memo text" = none := by decide +kernel

end Directive

end DataDictionary
