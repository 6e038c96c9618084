import DataDictionary.Text.CaseTable
import DataDictionary.Text.Blank

/-!
# Small letters

The full lower-case mapping of Unicode. Two capitals are not simply exchanged for one small
letter: the dotted `İ` becomes an `i` with a combining dot, and a capital sigma becomes the final
form `ς` at the end of a word and `σ` elsewhere. A sigma ends a word when a cased character stands
before it and none after it, where characters that case ignores, such as accents and apostrophes,
are looked through on both sides.
-/

namespace DataDictionary.Text

def isCased (c : Char) : Bool := inRanges casedRanges c.toNat

def isCaseIgnorable (c : Char) : Bool := inRanges caseIgnorableRanges c.toNat

/-- The small form that the rows of a table give to a code point; itself if none of them does. The
rows must ascend. -/
def smallFormIn : (rows : List (Nat × Nat × Nat × Nat)) → Nat → Nat
  | [], n => n
  | (first, last, step, small) :: rest, n =>
    if n < first then n
    else if n ≤ last && (n - first) % step == 0 then small + (n - first)
    else smallFormIn rest n

/-- The small form of a capital that has one character as its small form; any other character
itself. -/
def smallForm (c : Char) : Char := Char.ofNat (smallFormIn smallForms c.toNat)

/-- The small form of a character other than the capital sigma. -/
def small (c : Char) : List Char :=
  if c = 'İ' then ['i', '\u0307'] else [smallForm c]

/-- Whether the next character that case does not ignore is a cased one. -/
def continuesWord (cs : List Char) : Bool :=
  match cs.dropWhile isCaseIgnorable with
  | [] => false
  | c :: _ => isCased c

/-- The small form of a text of which the part in front has been dealt with; `inWord` tells
whether the last character there that case does not ignore was a cased one. -/
def lowercaseFrom (inWord : Bool) : List Char → List Char
  | [] => []
  | c :: cs =>
    let inWord' := if isCaseIgnorable c then inWord else isCased c
    if c = 'Σ' then
      (if inWord && !continuesWord cs then 'ς' else 'σ') :: lowercaseFrom inWord' cs
    else small c ++ lowercaseFrom inWord' cs

/-- The text in small letters. -/
def lowercase (cs : List Char) : List Char := lowercaseFrom false cs

/-- What the name of an object is looked up by: the name without the blanks at its ends, in small
letters. -/
def lookupKey (name : String) : String := String.ofList (lowercase (trim name.toList))

example : lookupKey " Coil:DX\t" = "coil:dx" ∧ lookupKey "ΑΣ ΣΑ" = "ας σα" := by decide +kernel

example : lookupKey "İ" = "i\u0307" ∧ lookupKey "ÉÄ" = "éä" := by decide +kernel

end DataDictionary.Text
