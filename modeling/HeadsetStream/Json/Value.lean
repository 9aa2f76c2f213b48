/-!
# JSON values

A number keeps how it was written: whether it has a point or an exponent decides what it can be read
as. A string keeps its text, or none if one of its escapes names half of a surrogate pair without
the other half; such a string has no text, but it may stand where no one reads it.
-/

namespace HeadsetStream.Json

/-- The number `coefficient * 10 ^ exponent` or its negative. The coefficient is a word of 64 bits:
digits that it has no room for are left out. A plain number is written without a point and without
an exponent, and none of its digits is left out. -/
structure Number where
  negative : Bool
  coefficient : Nat
  exponent : Int
  plain : Bool
  deriving DecidableEq, Repr, Inhabited

/-- The text of a string, if it has one. -/
abbrev Text := Option String

inductive Value where
  | null
  | bool (value : Bool)
  | number (value : Number)
  | string (text : Text)
  | array (items : List Value)
  | object (members : List (Text × Value))
  deriving Repr, Inhabited

/-- The parts that a text is made of, blanks apart. -/
inductive Token where
  | openArray
  | closeArray
  | openObject
  | closeObject
  | comma
  | colon
  | null
  | bool (value : Bool)
  | number (value : Number)
  | string (text : Text)
  deriving DecidableEq, Repr, Inhabited

end HeadsetStream.Json
