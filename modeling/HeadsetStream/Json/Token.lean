import HeadsetStream.Json.Value

/-!
# Cutting a text into tokens

`Token.next` skips blanks and takes one token off the front of a text. What follows a token may be
anything: that two values do not stand side by side is for the reader of values to see.
-/

namespace HeadsetStream.Json

def isBlank (c : Char) : Bool := c == ' ' || c == '\n' || c == '\t' || c == '\r'

/-- The value of a hexadecimal digit. -/
def hexDigit? (c : Char) : Option Nat :=
  if '0' ≤ c ∧ c ≤ '9' then some (c.toNat - '0'.toNat)
  else if 'a' ≤ c ∧ c ≤ 'f' then some (c.toNat - 'a'.toNat + 10)
  else if 'A' ≤ c ∧ c ≤ 'F' then some (c.toNat - 'A'.toNat + 10)
  else none

/-- The number that four hexadecimal digits write. -/
def hex4? (a b c d : Char) : Option Nat := do
  return ((← hexDigit? a) * 16 + (← hexDigit? b)) * 256 + ((← hexDigit? c) * 16 + (← hexDigit? d))

/-- The character that an escape of one letter stands for. -/
def escape? : Char → Option Char
  | '"' => some '"'
  | '\\' => some '\\'
  | '/' => some '/'
  | 'b' => some '\x08'
  | 'f' => some '\x0c'
  | 'n' => some '\n'
  | 'r' => some '\r'
  | 't' => some '\t'
  | _ => none

def isHighSurrogate (unit : Nat) : Bool := 0xD800 ≤ unit && unit < 0xDC00

def isLowSurrogate (unit : Nat) : Bool := 0xDC00 ≤ unit && unit < 0xE000

/-- The characters that a string's units stand for: a high surrogate and the low one behind it are
one character, and a surrogate without its other half is none. -/
def joinSurrogates : List Nat → Option (List Char)
  | [] => some []
  | [unit] =>
    if isHighSurrogate unit || isLowSurrogate unit then none else some [Char.ofNat unit]
  | unit :: next :: rest =>
    if isHighSurrogate unit then
      if isLowSurrogate next then
        (joinSurrogates rest).map
          (Char.ofNat ((unit - 0xD800) * 0x400 + (next - 0xDC00) + 0x10000) :: ·)
      else none
    else if isLowSurrogate unit then none
    else (joinSurrogates (next :: rest)).map (Char.ofNat unit :: ·)

/-- The text whose units, last first, are `units`. -/
def textOf (units : List Nat) : Text :=
  (joinSurrogates units.reverse).map String.ofList

/-- The rest of a string whose units so far, last first, are `units`: its text and what follows the
closing quote. -/
def scanString (units : List Nat) : List Char → Option (Text × List Char)
  | [] => none
  | '"' :: rest => some (textOf units, rest)
  | '\\' :: 'u' :: a :: b :: c :: d :: rest =>
    match hex4? a b c d with
    | some unit => scanString (unit :: units) rest
    | none => none
  | '\\' :: e :: rest =>
    match escape? e with
    | some c => scanString (c.toNat :: units) rest
    | none => none
  | c :: rest => if c < ' ' || c == '\\' then none else scanString (c.toNat :: units) rest

/-- What a run of digits has become: the coefficient, how many digits have gone into it, and how
many were left out for want of room. -/
structure Digits where
  coefficient : Nat
  taken : Nat := 0
  dropped : Nat := 0
  deriving DecidableEq, Repr

namespace Digits

/-- One more digit. It goes into the coefficient if that stays a word of 64 bits; once a digit has
been left out all further ones are. -/
def push (digits : Digits) (digit : Nat) : Digits :=
  let longer := digits.coefficient * 10 + digit
  if digits.dropped = 0 && longer < 0x10000000000000000 then
    { digits with coefficient := longer, taken := digits.taken + 1 }
  else { digits with dropped := digits.dropped + 1 }

/-- Whether there was no digit. -/
def isEmpty (digits : Digits) : Bool := digits.taken == 0 && digits.dropped == 0

/-- Takes the digits at the front of a text. -/
def scan (digits : Digits) : List Char → Digits × List Char
  | [] => (digits, [])
  | c :: rest =>
    if c.isDigit then scan (digits.push (c.toNat - '0'.toNat)) rest else (digits, c :: rest)

end Digits

/-- The number that the digits at the front write behind `value`, how many they are, and the
rest. -/
def scanNat (value count : Nat) : List Char → Nat × Nat × List Char
  | [] => (value, count, [])
  | c :: rest =>
    if c.isDigit then scanNat (value * 10 + (c.toNat - '0'.toNat)) (count + 1) rest
    else (value, count, c :: rest)

/-- A point with at least one digit behind it, or nothing: the coefficient with the digits behind
the point, how many of them went into it, and whether there was a point. -/
def scanFraction (coefficient : Nat) : List Char → Option (Nat × Nat × Bool × List Char)
  | '.' :: rest =>
    let (digits, rest) := Digits.scan { coefficient } rest
    if digits.isEmpty then none else some (digits.coefficient, digits.taken, true, rest)
  | rest => some (coefficient, 0, false, rest)

/-- An exponent with at least one digit, or nothing, and whether there was one. -/
def scanExponent : List Char → Option (Int × Bool × List Char)
  | c :: rest =>
    if c == 'e' || c == 'E' then
      let (negative, rest) := match rest with
        | '-' :: rest => (true, rest)
        | '+' :: rest => (false, rest)
        | rest => (false, rest)
      match scanNat 0 0 rest with
      | (_, 0, _) => none
      | (n, _, rest) => some (if negative then -(n : Int) else n, true, rest)
    else some (0, false, c :: rest)
  | [] => some (0, false, [])

/-- A number without its sign. Only a lone zero may open with a zero. A digit of the whole part that
was left out counts as a power of ten. -/
def scanNumber (negative : Bool) : List Char → Option (Number × List Char)
  | [] => none
  | c :: rest =>
    if c.isDigit then do
      let (whole, rest) :=
        if c = '0' then ({ coefficient := 0 }, rest)
        else Digits.scan { coefficient := 0 } (c :: rest)
      let (coefficient, places, point, rest) ← scanFraction whole.coefficient rest
      let (exponent, written, rest) ← scanExponent rest
      let plain := !point && !written && whole.dropped == 0
      return (⟨negative, coefficient, exponent + whole.dropped - places, plain⟩, rest)
    else none

/-- What stands at the front of a text. -/
inductive Front where
  | finished
  | bad
  | token (token : Token) (rest : List Char)
  deriving Repr

def Front.ofNumber : Option (Number × List Char) → Front
  | some (n, rest) => .token (.number n) rest
  | none => .bad

def Front.ofString : Option (Text × List Char) → Front
  | some (text, rest) => .token (.string text) rest
  | none => .bad

/-- The first token of a text, blanks skipped. -/
def front : List Char → Front
  | [] => .finished
  | '[' :: rest => .token .openArray rest
  | ']' :: rest => .token .closeArray rest
  | '{' :: rest => .token .openObject rest
  | '}' :: rest => .token .closeObject rest
  | ',' :: rest => .token .comma rest
  | ':' :: rest => .token .colon rest
  | '"' :: rest => .ofString (scanString [] rest)
  | '-' :: rest => .ofNumber (scanNumber true rest)
  | 'n' :: 'u' :: 'l' :: 'l' :: rest => .token .null rest
  | 't' :: 'r' :: 'u' :: 'e' :: rest => .token (.bool true) rest
  | 'f' :: 'a' :: 'l' :: 's' :: 'e' :: rest => .token (.bool false) rest
  | c :: rest => if isBlank c then front rest else .ofNumber (scanNumber false (c :: rest))

end HeadsetStream.Json
