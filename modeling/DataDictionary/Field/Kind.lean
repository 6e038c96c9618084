import DataDictionary.Field.Id
import DataDictionary.Text.Letters

/-!
# Field kinds

What the values of a field are: numbers, free text, one of a list of keys, or the name of
something defined elsewhere. A kind has the keyword that stands for it in a dictionary and a name
of its own, which is used where the dictionary is written out as data.
-/

namespace DataDictionary

inductive FieldKind where
  | integer
  | real
  | alpha
  | choice
  | node
  | objectList
  | externalList
  | url
  | handle
  deriving DecidableEq

namespace FieldKind

def all : List FieldKind :=
  [.integer, .real, .alpha, .choice, .node, .objectList, .externalList, .url, .handle]

/-- The keyword of a kind in a dictionary. -/
def keyword : FieldKind → String
  | .integer => "integer"
  | .real => "real"
  | .alpha => "alpha"
  | .choice => "choice"
  | .node => "node"
  | .objectList => "object-list"
  | .externalList => "external-list"
  | .url => "url"
  | .handle => "handle"

/-- The name of a kind where the dictionary is written out as data. -/
def name : FieldKind → String
  | .integer => "Integer"
  | .real => "Real"
  | .alpha => "Alpha"
  | .choice => "Choice"
  | .node => "Node"
  | .objectList => "ObjectList"
  | .externalList => "ExternalList"
  | .url => "Url"
  | .handle => "Handle"

def isNumeric : FieldKind → Bool
  | .integer | .real => true
  | _ => false

/-- The kind of a field that declares none. -/
def ofTrack : Track → FieldKind
  | .alpha => .alpha
  | .numeric => .real

/-- Reads the keyword of a kind, with blanks around it and in any case. -/
def parse? (s : String) : Option FieldKind :=
  let word := Text.lowerLatin (Text.strip s)
  all.find? fun kind => kind.keyword == word

/-- Reads the name of a kind, exactly as written. -/
def ofName? (s : String) : Option FieldKind := all.find? fun kind => kind.name == s

theorem mem_all (kind : FieldKind) : kind ∈ all := by cases kind <;> decide

theorem parse?_keyword (kind : FieldKind) : parse? kind.keyword = some kind := by
  cases kind <;> decide +kernel

theorem ofName?_name (kind : FieldKind) : ofName? kind.name = some kind := by
  cases kind <;> decide +kernel

end FieldKind

end DataDictionary
