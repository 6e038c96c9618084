import DataDictionary.Text.Blank
import DataDictionary.Text.Letters
import DataDictionary.Field.Kind

/-!
# Patterns of directives

A directive begins with a keyword, and what follows the keyword is its argument. Keywords are
strict about case: a letter that is a capital in the spelling used here may be written large or
small, and any other must be written small, so `Unique-Object` stands for `unique-object` and
`Unique-Object` but not for `UNIQUE-OBJECT`. Two keywords ignore case altogether.

Nothing has to separate a keyword from its argument, and a keyword that takes no argument may be
followed by anything.
-/

namespace DataDictionary

open Text

/-- How the letters of a keyword are matched. -/
inductive Spelling where
  /-- A capital stands for either case, a small letter only for itself. -/
  | capitals (word : String)
  /-- Every letter stands for either case; the word is given in small letters. -/
  | anyCase (word : String)
  deriving DecidableEq

/-- What follows `word` at the front of a text, where a capital in `word` stands for either case.
-/
def afterCapitals? : (word : List Char) → List Char → Option (List Char)
  | [], cs => some cs
  | _ :: _, [] => none
  | w :: ws, c :: cs => if c = w ∨ c = w.toLower then afterCapitals? ws cs else none

/-- What follows a keyword at the front of a text, if the text begins with it. -/
def Spelling.after? : Spelling → List Char → Option (List Char)
  | .capitals word, cs => afterCapitals? word.toList cs
  | .anyCase word, cs => afterWord? word.toList cs

/-- The forms that the argument of a directive can take. -/
inductive ArgumentForm where
  /-- No argument. -/
  | flag
  /-- Everything up to the end of the line. -/
  | restOfLine
  /-- Everything up to a comment mark. -/
  | untilComment
  /-- What follows a mark, up to a comment mark. -/
  | afterMark (mark : Char)
  /-- Everything up to a mark or a comment mark. -/
  | beforeMark (mark : Char)
  /-- Digits. -/
  | count
  /-- A colon and digits that do not begin with a zero. -/
  | groupSize
  /-- The keyword of a field kind. -/
  | fieldKind
  deriving DecidableEq

/-- Digits at the front of a text, as many as there are. -/
def leadingDigits? (cs : List Char) : Option (List Char) :=
  match cs.takeWhile Char.isDigit with
  | [] => none
  | ds => some ds

/-- What follows a mark at the front of a text, with blanks allowed in front of it. -/
def afterMark? (mark : Char) (cs : List Char) : Option (List Char) :=
  match trimStart cs with
  | c :: rest => if c = mark then some rest else none
  | [] => none

/-- The text of the first keyword of a field kind that stands at the front, in any case. -/
def leadingKind? (cs : List Char) : Option (List Char) :=
  FieldKind.all.findSome? fun kind =>
    let word := kind.keyword.toList
    (afterWord? word cs).map fun _ => cs.take word.length

/-- The argument at the front of the text behind a keyword. Without an argument of the right form
the directive is not this one. -/
def ArgumentForm.read? : ArgumentForm → List Char → Option (List Char)
  | .flag, _ => some []
  | .restOfLine, cs => some (cs.takeWhile (· ≠ '\n'))
  | .untilComment, cs => some (cs.takeWhile (· ≠ '!'))
  | .afterMark mark, cs => (afterMark? mark cs).map (·.takeWhile (· ≠ '!'))
  | .beforeMark mark, cs => some (cs.takeWhile fun c => c ≠ mark && c ≠ '!')
  | .count, cs => leadingDigits? (trimStart cs)
  | .groupSize, cs => do
    let rest ← afterMark? ':' cs
    let ds ← leadingDigits? (trimStart rest)
    if ds.head? = some '0' then none else some ds
  | .fieldKind, cs => leadingKind? (trimStart cs)

/-- A keyword together with the form of its argument. -/
structure Pattern where
  spelling : Spelling
  form : ArgumentForm
  deriving DecidableEq

/-- The argument of a directive that has this pattern, without the blanks around it. -/
def Pattern.match? (p : Pattern) (cs : List Char) : Option String := do
  let rest ← p.spelling.after? cs
  let argument ← p.form.read? rest
  some (String.ofList (trim argument))

end DataDictionary
