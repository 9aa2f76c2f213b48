import HeadsetStream.Json.Value

/-!
# Reading records and tables

A record is an object, whose members may come in any order and among members that no one knows, or
an array of the fields in their order. No known member may be given twice, and an array may not be
longer than the fields. A table is an object whose names are free; of a name given twice the last
one holds.
-/

namespace HeadsetStream.Json

/-- The fields of a record that are given; `byName` tells an object from an array. -/
structure Record where
  byName : Bool
  given : List (String × Value)
  deriving Repr, Inhabited

/-- The members of an object if all their names have text. -/
def named? (members : List (Text × Value)) : Option (List (String × Value)) :=
  members.mapM fun (name, value) => name.map (·, value)

namespace Record

/-- Reads a record with these fields. -/
def of? (fields : List String) : Value → Option Record
  | .object members => do
    let known := (← named? members).filter (fields.contains ·.1)
    if (known.map (·.1)).Nodup then return ⟨true, known⟩ else none
  | .array items =>
    if items.length ≤ fields.length then some ⟨false, fields.zip items⟩ else none
  | _ => none

variable {α : Type}

/-- A field that has to be given. -/
def get? (record : Record) (name : String) (read : Value → Option α) : Option α :=
  (record.given.lookup name).bind read

/-- A field that stands for `default` if it is not given. -/
def getD? (record : Record) (name : String) (read : Value → Option α) (default : α) : Option α :=
  match record.given.lookup name with
  | some value => read value
  | none => some default

/-- A field that may be null; an object may leave it out. -/
def getNullable? (record : Record) (name : String) (read : Value → Option α) :
    Option (Option α) :=
  match record.given.lookup name with
  | some .null => some none
  | some value => (read value).map some
  | none => if record.byName then some none else none

end Record

/-- The entries of a table in the order they are written. -/
def Value.entries? {α : Type} (read : Value → Option α) : Value → Option (List (String × α))
  | .object members => do (← named? members).mapM fun (name, value) => (read value).map (name, ·)
  | _ => none

/-- Null, or a value. -/
def Value.orNull? {α : Type} (read : Value → Option α) : Value → Option (Option α)
  | .null => some none
  | value => (read value).map some

end HeadsetStream.Json
