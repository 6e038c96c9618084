import DataDictionary.Text.Blank
import DataDictionary.Text.Lines

/-!
# Tokens

A dictionary is read line by line. On a line, everything from the first `!` on is a comment. What
is left is **content** up to the first backslash and **directives** from there on, one for each
backslash. Content falls into segments that end with a comma or a semicolon.

A directive that follows content on its line may end with such a separator too, as in
`Zone,\memo a zone;`. On a line of its own the text of a directive is kept as it stands, since
notes are free to end with a semicolon.

The comment of a line goes with its last token; a line without any other token is a token of its
own, provided it has a comment.
-/

namespace DataDictionary

open Text

/-- The character that ends a piece of a declaration. -/
inductive Separator where
  /-- The declaration goes on. -/
  | comma
  /-- The declaration is complete. -/
  | semicolon
  deriving DecidableEq

namespace Separator

def char : Separator → Char
  | .comma => ','
  | .semicolon => ';'

def ofChar? : Char → Option Separator
  | ',' => some .comma
  | ';' => some .semicolon
  | _ => none

end Separator

/-- A piece of a line and the separator that ends it, if one does. -/
structure Segment where
  text : List Char
  ending : Option Separator
  deriving DecidableEq

namespace Segment

/-- A piece that holds nothing but blanks and ends with no separator carries no information. -/
def isVoid (s : Segment) : Bool := trim s.text == [] && s.ending.isNone

/-- The segments of a text, each up to and without its separator. The last one has none. -/
def ofText : List Char → List Segment
  | [] => [⟨[], none⟩]
  | c :: cs =>
    match Separator.ofChar? c with
    | some e => ⟨[], some e⟩ :: ofText cs
    | none =>
      match ofText cs with
      | [] => [⟨[c], none⟩]
      | s :: rest => ⟨c :: s.text, s.ending⟩ :: rest

/-- A text as one segment, whose separator is its last character if that is one. -/
def ofEnding (text : List Char) : Segment :=
  match (trim text).reverse with
  | [] => ⟨[], none⟩
  | c :: rest =>
    match Separator.ofChar? c with
    | some e => ⟨rest.reverse, some e⟩
    | none => ⟨text, none⟩

end Segment

/-- What a token carries. -/
inductive TokenBody where
  /-- A field marker, the name of an object, or some other text. -/
  | content (text : String) (ending : Option Separator)
  /-- A directive without its backslash. -/
  | directive (text : String) (ending : Option Separator)
  /-- The comment of a line that has nothing else. -/
  | comment (text : String)
  deriving DecidableEq

/-- A token and the line it stands on, counted from one. -/
structure Token where
  body : TokenBody
  line : Nat
  /-- The comment of the line, if this is the last token on it. -/
  comment : Option String := none
  deriving DecidableEq

namespace Token

/-- The token bodies made from segments by `make`, without the void ones. -/
def bodies (make : String → Option Separator → TokenBody) (segments : List Segment) :
    List TokenBody :=
  (segments.filter (!·.isVoid)).map fun s => make (String.ofList (trim s.text)) s.ending

/-- The directives of a text that begins after a backslash. Only those that follow content on
their line may end with a separator. -/
def directives (afterContent : Bool) (text : List Char) : List TokenBody :=
  bodies .directive <| (cutAt '\\' text).map fun piece =>
    if afterContent then Segment.ofEnding piece else ⟨piece, none⟩

/-- The token bodies of a line without its comment. -/
def bodiesOfCode (code : List Char) : List TokenBody :=
  let content := bodies .content (Segment.ofText (code.takeWhile (· ≠ '\\')))
  match code.dropWhile (· ≠ '\\') with
  | [] => content
  | _ :: run => content ++ directives (content ≠ []) run

/-- The part of a line in front of its comment. -/
def codeOf (line : List Char) : List Char := line.takeWhile (· ≠ '!')

/-- The comment of a line, without the mark. -/
def commentOf? (line : List Char) : Option String :=
  match line.dropWhile (· ≠ '!') with
  | [] => none
  | _ :: comment => some (String.ofList comment)

/-- Puts token bodies on a line and gives its comment to the last of them. -/
def place (line : Nat) (comment : Option String) : List TokenBody → List Token
  | [] => (comment.map fun text => ⟨.comment text, line, none⟩).toList
  | [body] => [⟨body, line, comment⟩]
  | body :: rest => ⟨body, line, none⟩ :: place line comment rest

/-- The tokens of one line. -/
def ofLine (line : List Char) (number : Nat) : List Token :=
  place number (commentOf? line) (bodiesOfCode (codeOf line))

/-- The tokens of lines counted from `number`. -/
def ofLines : (number : Nat) → List (List Char) → List Token
  | _, [] => []
  | number, l :: ls => ofLine l number ++ ofLines (number + 1) ls

/-- The tokens of a text. -/
def ofText (text : String) : List Token := ofLines 1 (lines text.toList)

example : ofText "Zone,\\memo a; zone;\n  ! note" =
    [⟨.content "Zone" (some .comma), 1, none⟩,
     ⟨.directive "memo a; zone" (some .semicolon), 1, none⟩,
     ⟨.comment " note", 2, none⟩] := by decide +kernel

example : ofText " ; A1 \\memo a;" =
    [⟨.content "" (some .semicolon), 1, none⟩, ⟨.content "A1" none, 1, none⟩,
     ⟨.directive "memo a" (some .semicolon), 1, none⟩] := by decide +kernel

end Token

end DataDictionary
