import DataDictionary.Number.Writing

/-!
# Bounds

A field may bound its values from below and from above. A bound is **inclusive** when the bounding
number itself is allowed, and **exclusive** when it is not.
-/

namespace DataDictionary

/-- A numeric bound, to be used as a minimum or as a maximum. -/
structure Bound where
  value : Binary64
  inclusive : Bool
  deriving DecidableEq

namespace Bound

/-- Whether a number satisfies the bound as a minimum. -/
def admitsAbove (b : Bound) (x : Binary64) : Bool :=
  if b.inclusive then b.value.le x else b.value.lt x

/-- Whether a number satisfies the bound as a maximum. -/
def admitsBelow (b : Bound) (x : Binary64) : Bool :=
  if b.inclusive then x.le b.value else x.lt b.value

/-- The bound as a minimum: `0`, or `>0` when it is exclusive. -/
def renderMinimum (b : Bound) : String :=
  if b.inclusive then Number.toText b.value else ">" ++ Number.toText b.value

/-- The bound as a maximum: `100`, or `<100` when it is exclusive. -/
def renderMaximum (b : Bound) : String :=
  if b.inclusive then Number.toText b.value else "<" ++ Number.toText b.value

/-- Whether a minimum and a maximum leave room for a value. Only two inclusive bounds may meet in
one number. -/
def consistent (minimum maximum : Bound) : Bool :=
  if minimum.inclusive && maximum.inclusive then minimum.value.le maximum.value
  else minimum.value.lt maximum.value

end Bound

end DataDictionary
