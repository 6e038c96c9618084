import DataDictionary.Source.Basic
import DataDictionary.Source.Object
import DataDictionary.Text.Lowercase

/-!
# Reading a source

A source is read token by token. Which directives are understood depends on what is open: nothing,
the header of an object, or a field. The state says so by itself, since an object that is being
read carries the field that is being read.

An object is kept when it is complete at its end: closed by a semicolon, not failed, and of a name
that no object kept before it has, blanks and case aside. Otherwise it is dropped, and nothing of
it remains but what was found wrong with it.

Reading a token gives the next state together with the findings it brought up, in their order.
-/

namespace DataDictionary

/-- The state of reading a source. -/
structure State where
  /-- The name of the group in force. -/
  group : Option String := none
  /-- What has been declared so far. -/
  items : List Item := []
  /-- The lookup keys of the objects among the items. -/
  keys : List String := []
  /-- The object that is being read. -/
  current : Option OpenObject := none
  /-- Whether a removal would belong to the last item. -/
  includeOpen : Bool := false
  deriving DecidableEq

namespace State

/-- The place in which the next directive stands. -/
def scope (s : State) : Scope :=
  match s.current with
  | none => .file
  | some o => if o.field.isSome then .field else .object

/-- Begins an object. -/
def startObject (s : State) (name : String) (ending : Option Separator) (line : Nat) : State :=
  { s with
    current := some (.start name s.group (ending == some .semicolon) line)
    includeOpen := false }

/-- Ends an object whose fields are finished: it is kept if it is complete. -/
def keep (s : State) (o : OpenObject) : State × List Finding :=
  let key := Text.lookupKey o.object.name
  if !o.closed then (s, [⟨o.line, .unterminated o.object.name⟩])
  else if o.failed then (s, [])
  else if s.keys.contains key then (s, [⟨o.line, .repeatedObject o.object.name⟩])
  else ({ s with items := s.items ++ [.object o.object o.line], keys := s.keys ++ [key] }, [])

/-- Ends the object that is being read, if there is one. -/
def endObject (s : State) : State × List Finding :=
  match s.current with
  | none => (s, [])
  | some o =>
    let (o, found) := o.finishField
    let (s, findings) := { s with current := none }.keep o
    (s, found ++ findings)

/-- Ends the object that is being read and begins another. -/
def nextObject (s : State) (name : String) (ending : Option Separator) (line : Nat) :
    State × List Finding :=
  let (s, findings) := s.endObject
  (s.startObject name ending line, findings)

/-- Closes the object that is being read where a semicolon says so. -/
def closeIf (s : State) (ending : Option Separator) : State :=
  { s with current := s.current.map (·.closeIf ending) }

/-- Reads a field marker. -/
def onMarker (s : State) (id : FieldId) (ending : Option Separator) (line : Nat) :
    State × List Finding :=
  match s.current with
  | none => (s, [⟨line, .fieldOutsideObject id⟩])
  | some o =>
    let (o, findings) := o.openField id ending line
    ({ s with current := some o }, findings)

/-- Reads text that is no field marker. In the header of an object that is not closed it is
commentary; anywhere else it is the name of the next object. -/
def onText (s : State) (text : String) (ending : Option Separator) (line : Nat) :
    State × List Finding :=
  match s.current with
  | none => (s.startObject text ending line, [])
  | some o =>
    if o.field.isNone && !o.closed then
      (s.closeIf ending, [⟨line, .strayText text o.object.name⟩])
    else s.nextObject text ending line

/-- Reads content. Without any text it only closes what is open. -/
def onContent (s : State) (text : String) (ending : Option Separator) (line : Nat) :
    State × List Finding :=
  match FieldId.parse? text with
  | some id => s.onMarker id ending line
  | none => if text = "" then (s.closeIf ending, []) else s.onText text ending line

/-- Adds an object to those that the last inclusion leaves out. -/
def removeFromLast (name : String) : List Item → Option (List Item)
  | [] => none
  | [.inclusion d] => some [.inclusion { d with removed := d.removed ++ [name] }]
  | [_] => none
  | item :: rest => (removeFromLast name rest).map (item :: ·)

/-- Reads a directive of the file, which ends the object before it. -/
def onFileDirective (s : State) (k : FileKeyword) (name : String) (line : Nat) :
    State × List Finding :=
  let (s, findings) := s.endObject
  match k with
  | .group =>
    ({ s with group := some name, items := s.items ++ [.group name], includeOpen := false },
     findings)
  | .includeFile =>
    ({ s with items := s.items ++ [.inclusion { source := name, line }], includeOpen := true },
     findings)
  | .removeObject =>
    match if s.includeOpen then removeFromLast name s.items else none with
    | some items => ({ s with items }, findings)
    | none => (s, findings ++ [⟨line, .looseRemoval name⟩])

/-- Applies a directive of the header to the object that is being read. -/
def onObjectDirective (s : State) (k : ObjectKeyword) (argument : String) (line : Nat) :
    State × List Finding :=
  match s.current with
  | none => (s, [])
  | some o =>
    let (o, problems) := o.apply k argument
    ({ s with current := some o }, problems.map fun problem => ⟨line, problem⟩)

/-- Applies a directive to the field that is being read. -/
def onFieldDirective (s : State) (k : FieldKeyword) (argument : String) (line : Nat) :
    State × List Finding :=
  match s.current with
  | none => (s, [])
  | some o =>
    match o.field with
    | none => (s, [])
    | some f =>
      let (o, problems) := o.applyToField f k argument
      ({ s with current := some o }, problems.map fun problem => ⟨line, problem⟩)

/-- What is found at a directive that is not understood where it stands. -/
def strange (s : State) (text : String) : Problem :=
  if s.current.isNone && Directive.isKnown text then .outsideObject text else .unrecognized text

/-- Reads a directive, whatever may end it. -/
def onDirective (s : State) (text : String) (line : Nat) : State × List Finding :=
  match Directive.classify? s.scope text with
  | none => (s, [⟨line, s.strange text⟩])
  | some ⟨.file k, argument⟩ => s.onFileDirective k argument line
  | some ⟨.object k, argument⟩ => s.onObjectDirective k argument line
  | some ⟨.field k, argument⟩ => s.onFieldDirective k argument line

/-- Reads a token. Comments say nothing. -/
def step (s : State) (t : Token) : State × List Finding :=
  match t.body with
  | .content text ending => s.onContent text ending t.line
  | .directive text ending =>
    let (s, findings) := s.onDirective text t.line
    (s.closeIf ending, findings)
  | .comment _ => (s, [])

/-- Reads tokens. -/
def run (s : State) : List Token → State × List Finding
  | [] => (s, [])
  | t :: ts =>
    let (s, found) := s.step t
    let (s, findings) := s.run ts
    (s, found ++ findings)

end State

/-- Reads tokens to the end, where the last object ends as well. -/
def readTokens (ts : List Token) : List Item × List Finding :=
  let (s, found) := State.run {} ts
  let (s, findings) := s.endObject
  (s.items, found ++ findings)

/-- Reads a source. -/
def Source.ofText (text : String) : Source :=
  let (items, findings) := readTokens (Token.ofText text)
  { header := .ofText text, items, findings }

end DataDictionary
