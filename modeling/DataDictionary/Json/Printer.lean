import DataDictionary.Json.Value
import DataDictionary.Text.Quoted

/-!
# Writing JSON

Values are written without any blanks. In strings, quotes and backslashes are escaped, the controls
that have short names get them, and the remaining ones are given by their numbers; everything else
stands for itself. A string that is no text is written as half of a surrogate pair.
-/

namespace DataDictionary

namespace Json

/-- A number below 256 as four hexadecimal digits. -/
def fourHex (n : Nat) : List Char :=
  ['0', '0', Text.hexDigit (n / 16), Text.hexDigit (n % 16)]

/-- A character as it stands in a string. -/
def escape (c : Char) : List Char :=
  if c = '"' then ['\\', '"']
  else if c = '\\' then ['\\', '\\']
  else if c = '\x08' then ['\\', 'b']
  else if c = '\x0c' then ['\\', 'f']
  else if c = '\n' then ['\\', 'n']
  else if c = '\r' then ['\\', 'r']
  else if c = '\t' then ['\\', 't']
  else if c.toNat < 32 then '\\' :: 'u' :: fourHex c.toNat
  else [c]

/-- A string between its quotes. -/
def printString : Option String → List Char
  | some s => '"' :: s.toList.flatMap escape ++ ['"']
  | none => "\"\\ud800\"".toList

mutual

/-- A value. -/
def print : Json → List Char
  | null => "null".toList
  | bool true => "true".toList
  | bool false => "false".toList
  | number n => n.render
  | string s => printString s
  | array [] => ['[', ']']
  | array (item :: items) => '[' :: print item ++ printItems items
  | object [] => ['\x7b', '\x7d']
  | object (member :: members) => '\x7b' :: printMember member ++ printMembers members

/-- The items after the first one and the end of the array. -/
def printItems : List Json → List Char
  | [] => [']']
  | item :: items => ',' :: print item ++ printItems items

/-- The members after the first one and the end of the object. -/
def printMembers : List (Option String × Json) → List Char
  | [] => ['\x7d']
  | member :: members => ',' :: printMember member ++ printMembers members

/-- One member. -/
def printMember : Option String × Json → List Char
  | (key, value) => printString key ++ ':' :: print value

end

/-- The text of a value. -/
def render (j : Json) : String := String.ofList (print j)

end Json

end DataDictionary
