import DataDictionary.Token

/-!
# The header

A dictionary opens with a run of lines that hold nothing but a comment. They are kept as they are,
and two of them are looked into: the one that states the version of the dictionary and the one
that states its build. Of several such lines the first counts.
-/

namespace DataDictionary

open Text

/-- What the header of a dictionary says. -/
structure Header where
  /-- The lines of the header, with line feeds between them. -/
  text : String := ""
  version : Option String := none
  build : Option String := none
  deriving DecidableEq

namespace Header

/-- Whether a line holds nothing but a comment. -/
def isCommentLine (line : List Char) : Bool := (trimStart line).head? == some '!'

/-- The longest run of characters of one class behind a fixed beginning, if there is at least one.
-/
def valueAfter? (beginning : String) (isPart : Char → Bool) (line : List Char) : Option String :=
  if beginning.toList.isPrefixOf line then
    match (line.drop beginning.length).takeWhile isPart with
    | [] => none
    | value => some (String.ofList value)
  else none

/-- The version that a line states: digits and points. -/
def version? (line : List Char) : Option String :=
  valueAfter? "!IDD_Version " (fun c => c.isDigit || c == '.') line

/-- The build that a line states: anything up to the next blank. -/
def build? (line : List Char) : Option String := valueAfter? "!IDD_BUILD " (!isBlank ·) line

/-- The lines of the header. -/
def linesOf (text : String) : List (List Char) := (lines text.toList).takeWhile isCommentLine

/-- The header of a text. -/
def ofText (text : String) : Header :=
  let header := linesOf text
  { text := "\n".intercalate (header.map String.ofList)
    version := header.findSome? fun line => version? (trimStart line)
    build := header.findSome? fun line => build? (trimStart line) }

example : ofText " !IDD_Version 1.2 x\n!IDD_BUILD ab c\n!\nZone;\n!late" =
    ⟨" !IDD_Version 1.2 x\n!IDD_BUILD ab c\n!", some "1.2", some "ab"⟩ := by decide +kernel

end Header

end DataDictionary
