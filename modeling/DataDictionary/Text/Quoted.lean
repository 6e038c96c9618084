import DataDictionary.Text.PrintTable
import DataDictionary.Text.CaseTable

/-!
# Quoted text

Texts taken from a dictionary are quoted in messages, so that a blank at the end or a character
that cannot be seen still shows. A quoted text stands between double quotes. Quotes and
backslashes in it are escaped, the common controls have their usual short names, and every
character that would be invisible, or would merge with the one in front of it, is given by its
number.
-/

namespace DataDictionary.Text

/-- The digit, a small letter from ten on, that stands for a number below sixteen. -/
def hexDigit (n : Nat) : Char := if n < 10 then Char.ofNat (48 + n) else Char.ofNat (87 + n)

/-- The hexadecimal digits of a number, the last one first; `fuel` bounds their count. -/
def hexBackward : (fuel : Nat) → Nat → List Char
  | 0, _ => []
  | fuel + 1, n => hexDigit (n % 16) :: (if n < 16 then [] else hexBackward fuel (n / 16))

/-- The hexadecimal numeral of a number, without leading zeros. -/
def hex (n : Nat) : List Char := (hexBackward (n.log2 / 4 + 1) n).reverse

/-- Whether a character is drawn by itself and can be seen, or is the plain space. -/
def isPrintable (c : Char) : Bool :=
  !inRanges extendingMarkRanges c.toNat && !inRanges unprintableRanges c.toNat

/-- A character as it stands in a quoted text. -/
def quoteChar (c : Char) : List Char :=
  if c = '"' then ['\\', '"']
  else if c = '\\' then ['\\', '\\']
  else if c = '\x00' then ['\\', '0']
  else if c = '\t' then ['\\', 't']
  else if c = '\r' then ['\\', 'r']
  else if c = '\n' then ['\\', 'n']
  else if isPrintable c then [c]
  else ['\\', 'u', '\x7b'] ++ hex c.toNat ++ ['\x7d']

/-- The text between double quotes, with everything in it made visible. -/
def quote (s : String) : String :=
  String.ofList ('"' :: s.toList.flatMap quoteChar ++ ['"'])

example : quote "a\"\\\t\u200Bé" = "\"a\\\"\\\\\\t\\u\x7b200b\x7dé\"" := by decide +kernel

example : quote "\u3164\uFF76\uFF9E" = "\"\\u\x7b3164\x7d\uFF76\uFF9E\"" := by decide +kernel

end DataDictionary.Text
