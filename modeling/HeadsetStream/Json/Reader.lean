import HeadsetStream.Json.Token

/-!
# Reading JSON

The reader takes one token after the other and keeps the containers that are still open on a stack,
so a text may nest to any depth. `Value.ofText` reads a text that is one value and nothing else.
-/

namespace HeadsetStream.Json

/-- An open container with what it holds so far, last first. An object waits for the value of a
name. -/
inductive Frame where
  | array (items : List Value)
  | object (members : List (Text × Value)) (name : Text)
  deriving Repr

/-- Where the reader stands; `outer` are the open containers, innermost first. -/
inductive State where
  /-- A value comes next. -/
  | value (outer : List Frame)
  /-- An array was just opened. -/
  | arrayStart (outer : List Frame)
  /-- An object was just opened. -/
  | objectStart (outer : List Frame)
  /-- A name comes next. -/
  | member (members : List (Text × Value)) (outer : List Frame)
  /-- A colon comes next. -/
  | colon (members : List (Text × Value)) (name : Text) (outer : List Frame)
  /-- A value is complete. -/
  | complete (value : Value) (outer : List Frame)
  deriving Repr

namespace State

/-- The state after the first token of a value. -/
def start (outer : List Frame) : Token → Option State
  | .openArray => some (.arrayStart outer)
  | .openObject => some (.objectStart outer)
  | .null => some (.complete .null outer)
  | .bool b => some (.complete (.bool b) outer)
  | .number n => some (.complete (.number n) outer)
  | .string text => some (.complete (.string text) outer)
  | .closeArray | .closeObject | .comma | .colon => none

/-- The state after a token, if the token may stand here. -/
def step : State → Token → Option State
  | .value outer, token => start outer token
  | .arrayStart outer, .closeArray => some (.complete (.array []) outer)
  | .arrayStart outer, token => start (.array [] :: outer) token
  | .objectStart outer, .closeObject => some (.complete (.object []) outer)
  | .objectStart outer, .string name => some (.colon [] name outer)
  | .member members outer, .string name => some (.colon members name outer)
  | .colon members name outer, .colon => some (.value (.object members name :: outer))
  | .complete v (.array items :: outer), .comma => some (.value (.array (v :: items) :: outer))
  | .complete v (.array items :: outer), .closeArray =>
    some (.complete (.array (v :: items).reverse) outer)
  | .complete v (.object members name :: outer), .comma =>
    some (.member ((name, v) :: members) outer)
  | .complete v (.object members name :: outer), .closeObject =>
    some (.complete (.object ((name, v) :: members).reverse) outer)
  | _, _ => none

/-- The value read, if the text may end here. -/
def finish : State → Option Value
  | .complete v [] => some v
  | _ => none

end State

/-- Reads on from a state. A token takes at least one character, so as many steps as there are
characters are enough. -/
def readFrom : (steps : Nat) → State → List Char → Option Value
  | 0, _, _ => none
  | steps + 1, state, text =>
    match front text with
    | .finished => state.finish
    | .bad => none
    | .token token rest =>
      match state.step token with
      | some state => readFrom steps state rest
      | none => none

/-- The value that a text writes. -/
def Value.ofText (text : String) : Option Value :=
  let chars := text.toList
  readFrom (chars.length + 1) (.value []) chars

end HeadsetStream.Json
