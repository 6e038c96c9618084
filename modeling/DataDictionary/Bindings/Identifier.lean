import DataDictionary.Dictionary

/-!
# Identifiers

Names in a dictionary are free text; in generated code they have to become identifiers of ASCII
letters, digits and underscores. The name of an object keeps its letters as they are, with one
underscore for whatever stands between them. The name of a field has its words run together, each
with a capital in front.

Different names may give the same identifier. Among the objects of a dictionary a number is added
to the later one, as far as the numbers go, which are counted in 32 bits; among the fields of an
object, the identifier of the field is.
-/

namespace DataDictionary

namespace Bindings

/-- The letters and digits that an identifier may hold. -/
def isWordChar (c : Char) : Bool := c.isAlphanum

/-- Makes a valid identifier: not empty, not beginning with a digit, and not the keyword `Self`.
-/
def repair (digitGuard : String) (s : String) : String :=
  match s.toList with
  | [] => "Unnamed"
  | c :: _ => if c.isDigit then digitGuard ++ s else if s = "Self" then "Self_" else s

/-- The letters and digits of a text, with one underscore for each run of other characters;
`pending` tells that the last character written was an underscore. -/
def underscored (pending : Bool) : List Char → List Char
  | [] => []
  | c :: cs =>
    if isWordChar c then c :: underscored false cs
    else if pending then underscored true cs
    else '_' :: underscored true cs

/-- A text without the underscores at its end. -/
def dropUnderscores (cs : List Char) : List Char := (cs.reverse.dropWhile (· = '_')).reverse

/-- The identifier of an object, from its name. -/
def objectIdent (name : String) : String :=
  repair "_" (String.ofList (dropUnderscores (underscored false (Text.trim name.toList))))

/-- The words of a text run together, each with a capital in front; `atWord` tells whether a word
begins here. -/
def capitalized (atWord : Bool) : List Char → List Char
  | [] => []
  | c :: cs =>
    if isWordChar c then (if atWord then c.toUpper else c) :: capitalized false cs
    else capitalized true cs

/-- The identifier of a field, from its name, or from its number if the name gives none. -/
def fieldIdent (f : Field) : String :=
  let name := String.ofList (capitalized true f.name.toList)
  if name = "" then f.id.render else repair "Field" name

/-- An identifier with a number added to it. -/
def withNumber (base : String) (n : Nat) : String := base ++ "_" ++ Text.decimal n

/-- The counter of numbered identifiers goes up by one wherever it can go up at all. -/
theorem toInt_add_one {n : Int32} (h : n ≠ Int32.maxValue) : (n + 1).toInt = n.toInt + 1 := by
  have hne : n.toInt ≠ 2 ^ 31 - 1 :=
    fun heq => h (Int32.toInt_inj.mp (heq.trans Int32.toInt_maxValue.symm))
  have hlt := n.toInt_lt
  have hle := n.le_toInt
  rw [Int32.toInt_add, Int32.toInt_one]
  exact Int.bmod_eq_of_le (by omega) (by omega)

/-- The search for an identifier that is not in use. When `ident` is tried, `n` is the number to be
tried next. The counter goes up as soon as that is taken from it, and there is no answer if it
cannot. -/
def search? (used : List String) (base ident : String) (n : Int32) : Option String :=
  if used.contains ident then
    if n = Int32.maxValue then none
    else search? used base (withNumber base n.toNatClampNeg) (n + 1)
  else some ident
termination_by (Int32.maxValue.toInt - n.toInt).toNat
decreasing_by
  next h =>
  have hnext := toInt_add_one h
  have hle := (n + 1).toInt_le
  omega

/-- An identifier that is not in use: the given one, or else that with the least number from two on
which makes it new. -/
def fresh? (used : List String) (base : String) : Option String := search? used base base 2

/-- New identifiers for all that want one, in order. -/
def freshAll? (used : List String) : List String → Option (List String)
  | [] => some []
  | base :: rest => do
    let ident ← fresh? used base
    let idents ← freshAll? (ident :: used) rest
    some (ident :: idents)

/-- The identifiers of the objects of a dictionary, in order. -/
def objectIdents? (d : Dictionary) : Option (List String) :=
  freshAll? [] (d.objects.map fun o => objectIdent o.name)

/-- The identifiers of fields, in order. One that is in use gets the number of its field added. -/
def fieldIdentsFrom (used : List String) : List Field → List String
  | [] => []
  | f :: rest =>
    let ident := fieldIdent f
    let ident := if used.contains ident then ident ++ f.id.render else ident
    ident :: fieldIdentsFrom (ident :: used) rest

/-- The identifiers of the fields of one enumeration. -/
def fieldIdents (fields : List Field) : List String := fieldIdentsFrom [] fields

example : objectIdent "3D View: (x)" = "_3D_View_x" ∧ objectIdent " :: " = "Unnamed" := by
  decide +kernel

end Bindings

end DataDictionary
