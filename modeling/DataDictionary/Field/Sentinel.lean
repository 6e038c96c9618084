import DataDictionary.Text.Letters
import DataDictionary.Text.Lines

/-!
# Sentinels

Two words may stand for a number that is worked out later, `autosize` and `autocalculate`. As a
value a sentinel is the word and nothing else. In a declared default it is enough that the word
occurs somewhere, so `autosizeThenSome` declares the autosize sentinel; when several occur on a
line the last one counts, and the first line that has one decides.
-/

namespace DataDictionary

/-- The two words that may stand for a number which is worked out later. -/
inductive Sentinel where
  | autosize
  | autocalculate
  deriving DecidableEq

namespace Sentinel

/-- The word as it is written in a value. -/
def word : Sentinel → String
  | .autosize => "autosize"
  | .autocalculate => "autocalculate"

/-- The name of the flag that allows the sentinel on a field. -/
def flag : Sentinel → String
  | .autosize => "autosizable"
  | .autocalculate => "autocalculatable"

/-- The sentinel that a value spells out, in any case. -/
def ofWord? (value : String) : Option Sentinel :=
  if Text.sameWord value autosize.word then some .autosize
  else if Text.sameWord value autocalculate.word then some .autocalculate
  else none

/-- The sentinel whose word the text begins with, in any case. A long s may stand in the word
`autosize` to find it, but only the letters of the word itself make it the autosize sentinel. -/
def atStart? (cs : List Char) : Option Sentinel :=
  if (Text.afterWord? autocalculate.word.toList cs).isSome then some .autocalculate
  else if (Text.afterWord? autosize.word.toList cs).isSome then
    if Text.sameWord (String.ofList (cs.take autosize.word.length)) autosize.word then
      some .autosize
    else some .autocalculate
  else none

/-- The last sentinel that occurs in a text. -/
def last? : List Char → Option Sentinel
  | [] => none
  | c :: cs => (last? cs).or (atStart? (c :: cs))

/-- The sentinel that a declared default stands for, if any. -/
def inDefault? (text : String) : Option Sentinel :=
  (Text.cutAt '\n' text.toList).findSome? last?

example : inDefault? "autosize or AutoCalculate later" = some .autocalculate ∧
    inDefault? "autosizeThenSome" = some .autosize ∧ inDefault? "0.5" = none := by decide +kernel

end Sentinel

end DataDictionary
