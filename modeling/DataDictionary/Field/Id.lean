import DataDictionary.Text.Blank
import DataDictionary.Text.Digits

/-!
# Field identifiers

The fields of an object are numbered on two tracks of their own: alpha fields are `A1`, `A2` and
so on, numeric ones `N1`, `N2`. A text that reads as an identifier is a **field marker**; in a
dictionary this alone tells a field from the name of an object.
-/

namespace DataDictionary

/-- The two tracks on which the fields of an object are numbered. -/
inductive Track where
  | alpha
  | numeric
  deriving DecidableEq

namespace Track

def letter : Track → Char
  | .alpha => 'A'
  | .numeric => 'N'

/-- Only the capitals mark a field. -/
def ofLetter? : Char → Option Track
  | 'A' => some .alpha
  | 'N' => some .numeric
  | _ => none

theorem ofLetter?_letter (t : Track) : ofLetter? t.letter = some t := by cases t <;> rfl

theorem letter_of_ofLetter? {c : Char} {t : Track} (h : ofLetter? c = some t) : c = t.letter := by
  unfold ofLetter? at h
  split at h
  · cases h; rfl
  · cases h; rfl
  · cases h

end Track

/-- A field identifier: a track and a 32-bit number on it. -/
structure FieldId where
  track : Track
  number : UInt32
  deriving DecidableEq

namespace FieldId

/-- The identifier as it is written: the letter of the track and the number. -/
def render (id : FieldId) : String :=
  String.ofList (id.track.letter :: Text.digits id.number.toNat)

/-- Reads a field marker: the letter of a track and the digits of a 32-bit number, with blanks
allowed around the whole. -/
def parse? (s : String) : Option FieldId :=
  match Text.trim s.toList with
  | [] => none
  | c :: ds => do
    let track ← Track.ofLetter? c
    let number ← (Text.readNat? ds).filter (· < UInt32.size)
    some ⟨track, UInt32.ofNat number⟩

/-- Identifiers are ordered by track, alpha first, and then by number. -/
def le (a b : FieldId) : Bool :=
  match a.track, b.track with
  | .alpha, .numeric => true
  | .numeric, .alpha => false
  | _, _ => a.number ≤ b.number

/-- The identifiers in order. -/
def sort (ids : List FieldId) : List FieldId := ids.mergeSort le

example : (parse? " N012 ").map render = some "N12" ∧ parse? "a1" = none ∧ parse? "A" = none ∧
    parse? "A4294967296" = none := by decide +kernel

end FieldId

end DataDictionary
