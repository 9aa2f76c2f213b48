import HeadsetStream.Json.Reader
import Mathlib.Data.Nat.Find
import Mathlib.Tactic.Common

/-!
# The texts of a value

What a text may look like to write a value: its tokens one after the other, with any blanks between
them, a string's characters escaped or not, a number with or without a fraction and an exponent.
`Value.ofText_of_spelledBy` says that the reader understands all of these.
-/

namespace HeadsetStream.Json

/-! ## Numbers -/

/-- One digit or more. -/
structure DigitRun where
  chars : List Char
  ne_nil : chars ≠ []
  isDigit : ∀ c ∈ chars, c.isDigit

/-- How the sign of an exponent is written. -/
inductive ExponentSign where
  | none
  | plus
  | minus
  deriving DecidableEq, Repr

def ExponentSign.chars : ExponentSign → List Char
  | .none => []
  | .plus => ['+']
  | .minus => ['-']

structure Exponent where
  capital : Bool := false
  sign : ExponentSign := .none
  digits : DigitRun

/-- How a number is written. -/
structure Numeral where
  negative : Bool := false
  whole : DigitRun
  fraction : Option DigitRun := none
  exponent : Option Exponent := none
  /-- Only a lone zero opens with a zero. -/
  lone_zero : whole.chars.head? = some '0' → whole.chars = ['0']

/-- How many digits there is room for behind a number, so that a word of 64 bits holds them. -/
def room (start : Nat) (chars : List Char) : Nat :=
  Nat.findGreatest (fun k => Nat.ofDigitChars 10 (chars.take k) start < 0x10000000000000000)
    chars.length

/-- A number and behind it the digits that there is room for. -/
def heldDigits (start : Nat) (chars : List Char) : Nat :=
  Nat.ofDigitChars 10 (chars.take (room start chars)) start

def Exponent.chars (exponent : Exponent) : List Char :=
  (if exponent.capital then 'E' else 'e') :: (exponent.sign.chars ++ exponent.digits.chars)

def Exponent.value (exponent : Exponent) : Int :=
  let n := Nat.ofDigitChars 10 exponent.digits.chars 0
  if exponent.sign = .minus then -(n : Int) else n

namespace Numeral

variable (numeral : Numeral)

def fractionChars : List Char := numeral.fraction.elim [] ('.' :: ·.chars)

def exponentChars : List Char := numeral.exponent.elim [] (·.chars)

def chars : List Char :=
  (if numeral.negative then ['-'] else []) ++
    (numeral.whole.chars ++ (numeral.fractionChars ++ numeral.exponentChars))

def fractionDigits : List Char := numeral.fraction.elim [] (·.chars)

/-- The number that is written. A digit of the whole part that there is no room for counts as a
power of ten, and one of the fraction is left out. -/
def number : Number where
  negative := numeral.negative
  coefficient := heldDigits (heldDigits 0 numeral.whole.chars) numeral.fractionDigits
  exponent := numeral.exponent.elim 0 (·.value) +
    (numeral.whole.chars.length - room 0 numeral.whole.chars : Nat) -
    room (heldDigits 0 numeral.whole.chars) numeral.fractionDigits
  plain := numeral.fraction.isNone && numeral.exponent.isNone &&
    room 0 numeral.whole.chars == numeral.whole.chars.length

end Numeral

/-! ## Tokens -/

/-- The letters that may stand behind a backslash, and what they stand for. -/
def escapes : List (Char × Char) :=
  [('"', '"'), ('\\', '\\'), ('/', '/'), ('b', '\x08'), ('f', '\x0c'), ('n', '\n'), ('r', '\r'),
    ('t', '\t')]

/-- A hexadecimal digit, small or capital. -/
def IsHexDigit (v : Nat) (c : Char) : Prop :=
  v < 16 ∧ (c = v.digitChar ∨ c = v.digitChar.toUpper)

/-- The characters between the quotes of a string, and the units that they stand for. -/
inductive StringBody : List Char → List Nat → Prop where
  | nil : StringBody [] []
  | plain {c : Char} {chars : List Char} {units : List Nat} (visible : ¬ c < ' ')
      (not_quote : c ≠ '"') (not_escape : c ≠ '\\') (rest : StringBody chars units) :
      StringBody (c :: chars) (c.toNat :: units)
  | escape {e c : Char} {chars : List Char} {units : List Nat} (escaped : (e, c) ∈ escapes)
      (rest : StringBody chars units) : StringBody ('\\' :: e :: chars) (c.toNat :: units)
  | unicode {a b c d : Char} {w x y z : Nat} {chars : List Char} {units : List Nat}
      (ha : IsHexDigit w a) (hb : IsHexDigit x b) (hc : IsHexDigit y c) (hd : IsHexDigit z d)
      (rest : StringBody chars units) :
      StringBody ('\\' :: 'u' :: a :: b :: c :: d :: chars)
        ((((w * 16 + x) * 16 + y) * 16 + z) :: units)

/-- The units of a text: each character is one, and those beyond 16 bits may be two, a high
surrogate and a low one. -/
inductive UnitsOf : List Char → List Nat → Prop where
  | nil : UnitsOf [] []
  | one (c : Char) {chars : List Char} {units : List Nat} (rest : UnitsOf chars units) :
      UnitsOf (c :: chars) (c.toNat :: units)
  | two (c : Char) {chars : List Char} {units : List Nat} (large : 0x10000 ≤ c.toNat)
      (rest : UnitsOf chars units) :
      UnitsOf (c :: chars) ((0xD800 + (c.toNat - 0x10000) / 0x400) ::
        (0xDC00 + (c.toNat - 0x10000) % 0x400) :: units)

/-- What a token looks like. A string whose units are those of no text has none. -/
inductive Token.SpelledBy : Token → List Char → Prop where
  | openArray : SpelledBy .openArray ['[']
  | closeArray : SpelledBy .closeArray [']']
  | openObject : SpelledBy .openObject ['\x7b']
  | closeObject : SpelledBy .closeObject ['\x7d']
  | comma : SpelledBy .comma [',']
  | colon : SpelledBy .colon [':']
  | null : SpelledBy .null ['n', 'u', 'l', 'l']
  | true : SpelledBy (.bool true) ['t', 'r', 'u', 'e']
  | false : SpelledBy (.bool false) ['f', 'a', 'l', 's', 'e']
  | number (numeral : Numeral) : SpelledBy (.number numeral.number) numeral.chars
  | string {text : String} {chars : List Char} {units : List Nat} (body : StringBody chars units)
      (of_text : UnitsOf text.toList units) :
      SpelledBy (.string (some text)) ('"' :: (chars ++ ['"']))
  | noText {chars : List Char} {units : List Nat} (body : StringBody chars units)
      (of_none : ∀ text, ¬ UnitsOf text units) : SpelledBy (.string none) ('"' :: (chars ++ ['"']))

def Blank (chars : List Char) : Prop := ∀ c ∈ chars, c ∈ [' ', '\n', '\t', '\r']

/-- Tokens one after the other, with blanks wherever one likes. -/
inductive Spelled : List Token → List Char → Prop where
  | nil {blanks : List Char} (blank : Blank blanks) : Spelled [] blanks
  | cons {blanks chars text : List Char} {token : Token} {rest : List Token}
      (blank : Blank blanks) (spelled : token.SpelledBy chars) (tail : Spelled rest text) :
      Spelled (token :: rest) (blanks ++ (chars ++ text))

/-! ## Values -/

mutual

/-- The tokens of a value. -/
def Value.tokens : Value → List Token
  | .null => [.null]
  | .bool b => [.bool b]
  | .number n => [.number n]
  | .string text => [.string text]
  | .array [] => [.openArray, .closeArray]
  | .array (item :: rest) => .openArray :: (item.tokens ++ moreItems rest)
  | .object [] => [.openObject, .closeObject]
  | .object ((name, value) :: rest) =>
    .openObject :: .string name :: .colon :: (value.tokens ++ moreMembers rest)

/-- What follows an item of an array. -/
def moreItems : List Value → List Token
  | [] => [.closeArray]
  | item :: rest => .comma :: (item.tokens ++ moreItems rest)

/-- What follows a member of an object. -/
def moreMembers : List (Text × Value) → List Token
  | [] => [.closeObject]
  | (name, value) :: rest =>
    .comma :: .string name :: .colon :: (value.tokens ++ moreMembers rest)

end

/-- The text writes the value and nothing else. -/
def Value.SpelledBy (value : Value) (text : String) : Prop := Spelled value.tokens text.toList

/-! ## Integers and plain strings -/

theorem heldDigits_lt {start : Nat} (hstart : start < 0x10000000000000000) (chars : List Char) :
    heldDigits start chars < 0x10000000000000000 :=
  Nat.findGreatest_spec
    (P := fun k => Nat.ofDigitChars 10 (chars.take k) start < 0x10000000000000000)
    (Nat.zero_le _) hstart

private theorem room_eq_length {start : Nat} {chars : List Char}
    (h : Nat.ofDigitChars 10 chars start < 0x10000000000000000) :
    room start chars = chars.length :=
  Nat.findGreatest_eq (by rwa [List.take_length])

/-- The whole number that digits write, without a point and an exponent, is read off as it is if it
is a word of 64 bits. -/
private theorem Numeral.number_of_lt {numeral : Numeral} (hfraction : numeral.fraction = none)
    (hexponent : numeral.exponent = none)
    (h : Nat.ofDigitChars 10 numeral.whole.chars 0 < 0x10000000000000000) :
    numeral.number =
      ⟨numeral.negative, Nat.ofDigitChars 10 numeral.whole.chars 0, 0, true⟩ := by
  have hroom := room_eq_length h
  have hnone (start : Nat) : room start [] = 0 := rfl
  simp [number, fractionDigits, hfraction, hexponent, hroom, heldDigits, hnone]

theorem UnitsOf.map_toNat : (chars : List Char) → UnitsOf chars (chars.map Char.toNat)
  | [] => .nil
  | c :: chars => .one c (map_toNat chars)

private theorem StringBody.of_plain {chars : List Char}
    (h : ∀ c ∈ chars, ¬ c < ' ' ∧ c ≠ '"' ∧ c ≠ '\\') :
    StringBody chars (chars.map Char.toNat) := by
  induction chars with
  | nil => exact .nil
  | cons c rest ih =>
    obtain ⟨⟨hvisible, hquote, hescape⟩, hrest⟩ := List.forall_mem_cons.mp h
    exact .plain hvisible hquote hescape (ih hrest)

/-- A string may be written as it is if none of its characters has to be escaped. -/
theorem spelledBy_text (text : String)
    (h : ∀ c ∈ text.toList, ¬ c < ' ' ∧ c ≠ '"' ∧ c ≠ '\\') :
    Token.SpelledBy (.string (some text)) ('"' :: (text.toList ++ ['"'])) :=
  .string (.of_plain h) (.map_toNat text.toList)

/-- No integer but zero has digits that open with a zero. -/
private theorem toDigits_eq_of_head?_zero (n : Nat) (h : (Nat.toDigits 10 n).head? = some '0') :
    Nat.toDigits 10 n = ['0'] := by
  induction n using Nat.strongRecOn with
  | ind n ih =>
    by_cases hn : n < 10
    · rw [Nat.toDigits_of_lt_base hn] at h ⊢
      exact congrArg ([·]) (Option.some.inj h)
    · have hsplit : Nat.toDigits 10 n = Nat.toDigits 10 (n / 10) ++ [(n % 10).digitChar] :=
        Nat.toDigits_of_base_le (by decide) (Nat.not_lt.mp hn)
      have hhead : (Nat.toDigits 10 (n / 10)).head? = some '0' := by
        obtain ⟨c, tail, hdigits⟩ := List.exists_cons_of_ne_nil
          (Nat.toDigits_ne_nil : Nat.toDigits 10 (n / 10) ≠ [])
        rw [hsplit, hdigits] at h
        rw [hdigits]
        exact h
      have hzero := ih (n / 10) (by omega) hhead
      have hvalue := congrArg (Nat.ofDigitChars 10 · 0) hzero
      rw [Nat.ofDigitChars_ten_toDigits] at hvalue
      have hquotient : n / 10 = 0 := hvalue
      omega

/-- An integer in decimal digits. -/
def Numeral.ofInt (i : Int) : Numeral where
  negative := i < 0
  whole := {
    chars := Nat.toDigits 10 i.natAbs
    ne_nil := Nat.toDigits_ne_nil
    isDigit := fun _ hc => Nat.isDigit_of_mem_toDigits (by decide) (by decide) hc }
  lone_zero := toDigits_eq_of_head?_zero _

private theorem Numeral.number_ofInt {i : Int} (h : i.natAbs < 0x10000000000000000) :
    (ofInt i).number = ⟨i < 0, i.natAbs, 0, true⟩ := by
  have hdigits : Nat.ofDigitChars 10 (ofInt i).whole.chars 0 = i.natAbs :=
    Nat.ofDigitChars_ten_toDigits
  rw [number_of_lt rfl rfl (by rwa [hdigits]), hdigits]
  rfl

/-- An integer of 64 bits may be written in decimal digits. -/
theorem spelledBy_integer (i : Int) (h : i.natAbs < 0x10000000000000000) :
    Token.SpelledBy (.number ⟨i < 0, i.natAbs, 0, true⟩) (Numeral.ofInt i).chars := by
  rw [← Numeral.number_ofInt h]
  exact .number _

/-! ## Reading numbers -/

def NoDigit (rest : List Char) : Prop := ∀ c ∈ rest.head?, c.isDigit = false

/-- What may follow a number: nothing that would go on with it. -/
def Closed (rest : List Char) : Prop :=
  ∀ c ∈ rest.head?, c.isDigit = false ∧ c ≠ '.' ∧ c ≠ 'e' ∧ c ≠ 'E'

private theorem Closed.noDigit {rest : List Char} (h : Closed rest) : NoDigit rest :=
  fun c hc => (h c hc).1

/-- The digits once those of a text are in. -/
def Digits.pushAll (digits : Digits) (chars : List Char) : Digits :=
  chars.foldl (fun digits c => digits.push (c.toNat - '0'.toNat)) digits

namespace Digits

/-- Digits that write a word of 64 bits are all taken. -/
private theorem pushAll_of_lt (digits : Digits) (hdropped : digits.dropped = 0) (chars : List Char)
    (h : Nat.ofDigitChars 10 chars digits.coefficient < 0x10000000000000000) :
    digits.pushAll chars =
      ⟨Nat.ofDigitChars 10 chars digits.coefficient, digits.taken + chars.length, 0⟩ := by
  induction chars generalizing digits with
  | nil =>
    cases digits
    cases hdropped
    rfl
  | cons c chars ih =>
    have hle : 10 * digits.coefficient + (c.toNat - '0'.toNat) ≤
        Nat.ofDigitChars 10 chars (10 * digits.coefficient + (c.toNat - '0'.toNat)) := by
      have hpow : 0 < 10 ^ chars.length := Nat.pow_pos (by decide)
      rw [Nat.ofDigitChars_eq_ofDigitChars_zero]
      exact Nat.le_add_right_of_le (Nat.le_mul_of_pos_left _ hpow)
    rw [Nat.ofDigitChars_cons] at h ⊢
    have hpush : digits.push (c.toNat - '0'.toNat) =
        ⟨10 * digits.coefficient + (c.toNat - '0'.toNat), digits.taken + 1, 0⟩ := by
      have hroom : digits.coefficient * 10 + (c.toNat - '0'.toNat) < 0x10000000000000000 := by
        omega
      simp only [push, hdropped, hroom, decide_true, Bool.and_self, if_true, Nat.mul_comm 10]
    rw [pushAll, List.foldl_cons, ← pushAll, hpush, ih _ rfl h]
    simp only [List.length_cons]
    congr 1
    omega

/-- Once a digit was left out, no further one is taken. -/
private theorem pushAll_of_dropped (digits : Digits) (hdropped : digits.dropped ≠ 0)
    (chars : List Char) :
    digits.pushAll chars = { digits with dropped := digits.dropped + chars.length } := by
  induction chars generalizing digits with
  | nil => rfl
  | cons c chars ih =>
    have hpush : digits.push (c.toNat - '0'.toNat) =
        { digits with dropped := digits.dropped + 1 } := by
      simp [push, hdropped]
    rw [pushAll, List.foldl_cons, ← pushAll, hpush, ih _ (Nat.succ_ne_zero _), List.length_cons]
    simp only
    congr 1
    omega

/-- As many digits are taken as there is room for. -/
theorem pushAll_eq {start : Nat} (hstart : start < 0x10000000000000000) (chars : List Char) :
    pushAll { coefficient := start } chars =
      ⟨heldDigits start chars, room start chars, chars.length - room start chars⟩ := by
  have hle : room start chars ≤ chars.length := Nat.findGreatest_le _
  have hheld := heldDigits_lt hstart chars
  have htaken := pushAll_of_lt { coefficient := start } rfl (chars.take (room start chars)) hheld
  rw [List.length_take_of_le hle] at htaken
  have hsplit := List.take_append_drop (room start chars) chars
  have hmore : pushAll { coefficient := start } chars =
      (pushAll { coefficient := start } (chars.take (room start chars))).pushAll
        (chars.drop (room start chars)) := by
    rw [pushAll, ← hsplit, List.foldl_append, hsplit]
    rfl
  rw [hmore, htaken]
  cases hdrop : chars.drop (room start chars) with
  | nil =>
    have hall := List.drop_eq_nil_iff.mp hdrop
    simp only [pushAll, List.foldl_nil]
    congr 1 <;> omega
  | cons c tail =>
    have hlength := congrArg List.length hdrop
    rw [List.length_drop, List.length_cons] at hlength
    have hfull : ¬ 10 * heldDigits start chars + (c.toNat - '0'.toNat) < 0x10000000000000000 := by
      have hnext := Nat.findGreatest_is_greatest (Nat.lt_add_one (room start chars)) (by omega)
      rw [List.take_add, hdrop, Nat.ofDigitChars_append] at hnext
      exact hnext
    have hpush : push ⟨heldDigits start chars, room start chars, 0⟩ (c.toNat - '0'.toNat) =
        ⟨heldDigits start chars, room start chars, 1⟩ := by
      rw [Nat.mul_comm] at hfull
      simp only [push, decide_eq_false hfull, Bool.and_false]
      rfl
    have hstart : (⟨Nat.ofDigitChars 10 (chars.take (room start chars)) start,
        0 + room start chars, 0⟩ : Digits) = ⟨heldDigits start chars, room start chars, 0⟩ := by
      rw [Nat.zero_add, heldDigits]
    rw [hstart, pushAll, List.foldl_cons, ← pushAll, hpush, pushAll_of_dropped _ Nat.one_ne_zero,
      hlength, Nat.add_comm]

end Digits

variable {chars rest : List Char}

theorem Digits.scan_append (hchars : ∀ c ∈ chars, c.isDigit) (hrest : NoDigit rest)
    (digits : Digits) : digits.scan (chars ++ rest) = (digits.pushAll chars, rest) := by
  induction chars generalizing digits with
  | nil =>
    cases rest with
    | nil => rfl
    | cons c rest => simp [scan, pushAll, hrest c rfl]
  | cons c chars ih =>
    obtain ⟨hc, hchars⟩ := List.forall_mem_cons.mp hchars
    simp [scan, pushAll, hc, ih hchars]

private theorem scanNat_append (hchars : ∀ c ∈ chars, c.isDigit) (hrest : NoDigit rest)
    (value count : Nat) :
    scanNat value count (chars ++ rest) =
      (Nat.ofDigitChars 10 chars value, count + chars.length, rest) := by
  induction chars generalizing value count with
  | nil =>
    cases rest with
    | nil => rfl
    | cons c rest => simp [scanNat, hrest c rfl]
  | cons c chars ih =>
    obtain ⟨hc, hchars⟩ := List.forall_mem_cons.mp hchars
    rw [Nat.ofDigitChars_cons, Nat.mul_comm, List.length_cons, Nat.add_comm chars.length,
      ← Nat.add_assoc]
    simpa [scanNat, hc] using ih hchars _ (count + 1)

/-- Every digit is taken or dropped. -/
private theorem Digits.count_pushAll (digits : Digits) (chars : List Char) :
    (digits.pushAll chars).taken + (digits.pushAll chars).dropped =
      digits.taken + digits.dropped + chars.length := by
  induction chars generalizing digits with
  | nil => rfl
  | cons c chars ih =>
    have hpush : ∀ digit, (digits.push digit).taken + (digits.push digit).dropped =
        digits.taken + digits.dropped + 1 := by
      intro digit
      simp only [push]
      split <;> simp only <;> omega
    rw [pushAll, List.foldl_cons, ← pushAll, ih, hpush, List.length_cons]
    omega

private theorem DigitRun.isEmpty_pushAll (run : DigitRun) (digits : Digits) :
    (digits.pushAll run.chars).isEmpty = false := by
  have hcount := digits.count_pushAll run.chars
  have hlength := List.length_pos_iff.mpr run.ne_nil
  rw [Digits.isEmpty, Bool.and_eq_false_iff, beq_eq_false_iff_ne, beq_eq_false_iff_ne]
  omega

theorem DigitRun.exists_cons (run : DigitRun) :
    ∃ c tail, run.chars = c :: tail ∧ c.isDigit = true := by
  obtain ⟨c, tail, hchars⟩ := List.exists_cons_of_ne_nil run.ne_nil
  exact ⟨c, tail, hchars, run.isDigit c (by simp [hchars])⟩

theorem ne_of_isDigit {c other : Char} (hc : c.isDigit = true) (hother : other.isDigit = false) :
    c ≠ other := by
  rintro rfl
  rw [hc] at hother
  exact nomatch hother

/-- The sign of an exponent is told from its digits. -/
private theorem scanExponent_append (exponent : Exponent) (hrest : NoDigit rest) :
    scanExponent (exponent.chars ++ rest) = some (exponent.value, true, rest) := by
  obtain ⟨capital, sign, run⟩ := exponent
  have hletter : ((if capital then 'E' else 'e') == 'e' || (if capital then 'E' else 'e') == 'E') =
      true := by cases capital <;> rfl
  have hscan := scanNat_append run.isDigit hrest 0 0
  obtain ⟨c, tail, hrun, hc⟩ := run.exists_cons
  simp only [Exponent.chars, List.cons_append, List.append_assoc, scanExponent, hletter, if_true]
  rw [hrun, List.cons_append, List.length_cons, ← hrun] at hscan
  rw [hrun]
  cases sign with
  | minus => simp [ExponentSign.chars, hscan, Exponent.value]
  | plus => simp [ExponentSign.chars, hscan, Exponent.value]
  | none =>
    have hminus : c ≠ '-' := ne_of_isDigit hc rfl
    have hplus : c ≠ '+' := ne_of_isDigit hc rfl
    simp [ExponentSign.chars, hscan, hminus, hplus, Exponent.value]

namespace Numeral

variable (numeral : Numeral)

/-- The digits of the whole part, as they are scanned. -/
def wholeDigits : Digits := Digits.pushAll { coefficient := 0 } numeral.whole.chars

/-- The digits of the fraction, behind those of the whole part. -/
def allDigits : Digits :=
  Digits.pushAll { coefficient := numeral.wholeDigits.coefficient } numeral.fractionDigits

theorem number_eq : numeral.number =
    ⟨numeral.negative, numeral.allDigits.coefficient,
      numeral.exponent.elim 0 (·.value) + numeral.wholeDigits.dropped - numeral.allDigits.taken,
      numeral.fraction.isNone && numeral.exponent.isNone && numeral.wholeDigits.dropped == 0⟩ := by
  have hheld : heldDigits 0 numeral.whole.chars < 0x10000000000000000 :=
    heldDigits_lt (by decide) numeral.whole.chars
  have hle : room 0 numeral.whole.chars ≤ numeral.whole.chars.length := Nat.findGreatest_le _
  have hall : (numeral.whole.chars.length - room 0 numeral.whole.chars == 0) =
      (room 0 numeral.whole.chars == numeral.whole.chars.length) := by
    rw [Bool.eq_iff_iff, beq_iff_eq, beq_iff_eq]
    omega
  simp only [number, allDigits, wholeDigits, Digits.pushAll_eq (by decide : 0 < _),
    Digits.pushAll_eq hheld, hall]

private theorem scanExponent_exponentChars (hrest : Closed rest) :
    scanExponent (numeral.exponentChars ++ rest) =
      some (numeral.exponent.elim 0 (·.value), numeral.exponent.isSome, rest) := by
  unfold exponentChars
  cases numeral.exponent with
  | some exponent => exact scanExponent_append exponent hrest.noDigit
  | none =>
    cases rest with
    | nil => rfl
    | cons c rest =>
      obtain ⟨-, -, hsmall, hcapital⟩ := hrest c rfl
      simp [scanExponent, hsmall, hcapital]

/-- Behind the digits there is the exponent, or what follows the number. -/
theorem closed_exponentChars (hrest : Closed rest) :
    ∀ c ∈ (numeral.exponentChars ++ rest).head?, c.isDigit = false ∧ c ≠ '.' := by
  unfold exponentChars
  cases numeral.exponent with
  | some exponent =>
    rintro c ⟨⟩
    cases exponent.capital <;> decide
  | none =>
    intro c hc
    obtain ⟨hdigit, hpoint, -⟩ := hrest c hc
    exact ⟨hdigit, hpoint⟩

private theorem noDigit_fractionChars (hrest : Closed rest) :
    NoDigit (numeral.fractionChars ++ (numeral.exponentChars ++ rest)) := by
  unfold fractionChars
  cases numeral.fraction with
  | some run =>
    rintro c ⟨⟩
    rfl
  | none => exact fun c hc => (numeral.closed_exponentChars hrest c hc).1

private theorem scanFraction_fractionChars (hrest : Closed rest) :
    scanFraction numeral.wholeDigits.coefficient
        (numeral.fractionChars ++ (numeral.exponentChars ++ rest)) =
      some (numeral.allDigits.coefficient, numeral.allDigits.taken,
        numeral.fraction.isSome, numeral.exponentChars ++ rest) := by
  have hbehind := numeral.closed_exponentChars hrest
  unfold fractionChars allDigits fractionDigits
  cases numeral.fraction with
  | some run =>
    have hscan := Digits.scan_append run.isDigit (fun c hc => (hbehind c hc).1)
      { coefficient := numeral.wholeDigits.coefficient }
    simp [scanFraction, hscan, run.isEmpty_pushAll]
  | none =>
    cases hexponent : numeral.exponentChars ++ rest with
    | nil => rfl
    | cons c tail =>
      rw [hexponent] at hbehind
      have hpoint : c ≠ '.' := (hbehind c rfl).2
      simp [scanFraction, hpoint, Digits.pushAll]

/-- The whole part is scanned as such, though a zero is not scanned for further digits. -/
theorem scanNumber_append (hrest : Closed rest) :
    scanNumber numeral.negative
        (numeral.whole.chars ++ (numeral.fractionChars ++ (numeral.exponentChars ++ rest))) =
      some (numeral.number, rest) := by
  have hfraction := numeral.scanFraction_fractionChars hrest
  have hexponent := numeral.scanExponent_exponentChars hrest
  have hscan := Digits.scan_append numeral.whole.isDigit (numeral.noDigit_fractionChars hrest)
    { coefficient := 0 }
  obtain ⟨c, tail, hwhole, hc⟩ := numeral.whole.exists_cons
  by_cases hzero : c = '0'
  · subst hzero
    have hlone : numeral.whole.chars = ['0'] := numeral.lone_zero (by rw [hwhole]; rfl)
    have hdigits : numeral.wholeDigits = { coefficient := 0, taken := 1 } := by
      rw [wholeDigits, hlone]
      rfl
    rw [hdigits] at hfraction
    rw [hlone]
    simp [scanNumber, hfraction, hexponent, number_eq, hdigits]
  · rw [hwhole, List.cons_append, ← hwhole] at hscan
    rw [hwhole]
    simp only [wholeDigits] at hfraction
    simp [scanNumber, hc, hzero, hscan, hfraction, hexponent, number_eq, wholeDigits]

end Numeral

/-! ## Reading tokens -/

theorem toNat_lt (c : Char) : c.toNat < 0xD800 ∨ 0xDFFF < c.toNat ∧ c.toNat < 0x110000 := c.valid

private theorem joinSurrogates_of_unitsOf {chars : List Char} {units : List Nat}
    (h : UnitsOf chars units) :
    joinSurrogates units = some chars := by
  induction h with
  | nil => rfl
  | one c rest ih =>
    have hvalid := toNat_lt c
    have hhigh : isHighSurrogate c.toNat = false := by
      rw [isHighSurrogate, Bool.and_eq_false_iff, decide_eq_false_iff_not, decide_eq_false_iff_not]
      omega
    have hlow : isLowSurrogate c.toNat = false := by
      rw [isLowSurrogate, Bool.and_eq_false_iff, decide_eq_false_iff_not, decide_eq_false_iff_not]
      omega
    cases rest <;> simp_all [joinSurrogates]
  | two c large rest ih =>
    have hvalid := toNat_lt c
    have hhigh : isHighSurrogate (0xD800 + (c.toNat - 0x10000) / 0x400) = true := by
      rw [isHighSurrogate, Bool.and_eq_true, decide_eq_true_eq, decide_eq_true_eq]
      omega
    have hlow : isLowSurrogate (0xDC00 + (c.toNat - 0x10000) % 0x400) = true := by
      rw [isLowSurrogate, Bool.and_eq_true, decide_eq_true_eq, decide_eq_true_eq]
      omega
    have hjoin : (0xD800 + (c.toNat - 0x10000) / 0x400 - 0xD800) * 0x400 +
        (0xDC00 + (c.toNat - 0x10000) % 0x400 - 0xDC00) + 0x10000 = c.toNat := by omega
    rw [joinSurrogates, if_pos hhigh, if_pos hlow, ih, hjoin, Option.map_some, Char.ofNat_toNat]

theorem toNat_ofNat {unit : Nat} (hlt : unit < 0x110000) (hhigh : ¬ isHighSurrogate unit)
    (hlow : ¬ isLowSurrogate unit) : (Char.ofNat unit).toNat = unit := by
  simp only [isHighSurrogate, isLowSurrogate, Bool.and_eq_true, decide_eq_true_eq] at hhigh hlow
  have hvalid : unit.isValidChar := by
    unfold Nat.isValidChar
    omega
  rw [Char.ofNat, dif_pos hvalid]
  rfl

theorem UnitsOf.ofNat {unit : Nat} (hlt : unit < 0x110000) (hhigh : ¬ isHighSurrogate unit)
    (hlow : ¬ isLowSurrogate unit) {chars : List Char} {units : List Nat}
    (rest : UnitsOf chars units) : UnitsOf (Char.ofNat unit :: chars) (unit :: units) := by
  have hone := UnitsOf.one (Char.ofNat unit) rest
  rwa [toNat_ofNat hlt hhigh hlow] at hone

theorem UnitsOf.joined {high low : Nat} (hhigh : isHighSurrogate high) (hlow : isLowSurrogate low)
    {chars : List Char} {units : List Nat} (rest : UnitsOf chars units) :
    UnitsOf (Char.ofNat ((high - 0xD800) * 0x400 + (low - 0xDC00) + 0x10000) :: chars)
      (high :: low :: units) := by
  rw [isHighSurrogate, Bool.and_eq_true, decide_eq_true_eq, decide_eq_true_eq] at hhigh
  rw [isLowSurrogate, Bool.and_eq_true, decide_eq_true_eq, decide_eq_true_eq] at hlow
  let joined := (high - 0xD800) * 0x400 + (low - 0xDC00) + 0x10000
  have hjoined : (Char.ofNat joined).toNat = joined := by
    refine toNat_ofNat (by omega) ?_ ?_
    · simp only [isHighSurrogate, Bool.and_eq_true, decide_eq_true_eq]
      omega
    · simp only [isLowSurrogate, Bool.and_eq_true, decide_eq_true_eq]
      omega
  have htwo := UnitsOf.two (Char.ofNat joined) (by omega) rest
  have hfirst : 0xD800 + (joined - 0x10000) / 0x400 = high := by omega
  have hsecond : 0xDC00 + (joined - 0x10000) % 0x400 = low := by omega
  rwa [hjoined, hfirst, hsecond] at htwo

private theorem unitsOf_of_joinSurrogates {chars : List Char} {units : List Nat}
    (hunits : ∀ unit ∈ units, unit < 0x110000) (h : joinSurrogates units = some chars) :
    UnitsOf chars units := by
  fun_induction joinSurrogates units generalizing chars with
  | case1 =>
    obtain rfl := Option.some.inj h
    exact .nil
  | case2 | case5 | case6 => exact nomatch h
  | case3 unit hnone =>
    obtain rfl := Option.some.inj h
    rw [Bool.or_eq_true, not_or] at hnone
    exact .ofNat (hunits unit List.mem_cons_self) hnone.1 hnone.2 .nil
  | case4 high low rest hhigh hlow ih =>
    obtain ⟨chars, hrest, rfl⟩ := Option.map_eq_some_iff.mp h
    have hmore := (List.forall_mem_cons.mp (List.forall_mem_cons.mp hunits).2).2
    exact .joined hhigh hlow (ih hmore hrest)
  | case7 unit next rest hhigh hlow ih =>
    obtain ⟨chars, hrest, rfl⟩ := Option.map_eq_some_iff.mp h
    obtain ⟨hunit, hmore⟩ := List.forall_mem_cons.mp hunits
    exact .ofNat hunit hhigh hlow (ih hmore hrest)

theorem StringBody.lt {units : List Nat} (body : StringBody chars units) :
    ∀ unit ∈ units, unit < 0x110000 := by
  induction body with
  | nil => exact nofun
  | @plain c _ _ _ _ _ _ ih | @escape _ c _ _ _ _ ih =>
    have hvalid := toNat_lt c
    exact List.forall_mem_cons.mpr ⟨by omega, ih⟩
  | unicode ha hb hc hd _ ih =>
    have ha := ha.1
    have hb := hb.1
    have hc := hc.1
    have hd := hd.1
    exact List.forall_mem_cons.mpr ⟨by omega, ih⟩

private theorem joinSurrogates_eq_none {units : List Nat} (body : StringBody chars units)
    (h : ∀ text, ¬ UnitsOf text units) : joinSurrogates units = none := by
  rw [Option.eq_none_iff_forall_ne_some]
  exact fun text htext => h text (unitsOf_of_joinSurrogates body.lt htext)

private theorem escape?_of_mem {e c : Char} (h : (e, c) ∈ escapes) : escape? e = some c := by
  simp only [escapes, List.mem_cons, Prod.mk.injEq, List.not_mem_nil, or_false] at h
  obtain ⟨rfl, rfl⟩ | ⟨rfl, rfl⟩ | ⟨rfl, rfl⟩ | ⟨rfl, rfl⟩ | ⟨rfl, rfl⟩ | ⟨rfl, rfl⟩ | ⟨rfl, rfl⟩ |
    ⟨rfl, rfl⟩ := h <;> rfl

theorem IsHexDigit.value {v : Nat} {c : Char} (h : IsHexDigit v c) : hexDigit? c = some v := by
  have hall : ∀ v < 16, hexDigit? v.digitChar = some v ∧
      hexDigit? v.digitChar.toUpper = some v := by decide
  obtain ⟨hv, rfl | rfl⟩ := h
  · exact (hall v hv).1
  · exact (hall v hv).2

theorem scanString_append {units : List Nat} (body : StringBody chars units) (before : List Nat)
    (rest : List Char) :
    scanString before (chars ++ '"' :: rest) = some (textOf (units.reverse ++ before), rest) := by
  induction body generalizing before with
  | nil => simp [scanString]
  | plain visible _ not_escape _ ih => simp [scanString, visible, not_escape, ih]
  | @escape e _ _ _ escaped _ ih =>
    have hescape := escape?_of_mem escaped
    have hletter : e ≠ 'u' := by
      rintro rfl
      exact nomatch hescape
    simp [scanString, hletter, hescape, ih]
  | @unicode _ _ _ _ w x y z _ _ ha hb hc hd _ ih =>
    have hvalue : (w * 16 + x) * 256 + (y * 16 + z) = ((w * 16 + x) * 16 + y) * 16 + z := by omega
    simp [scanString, hex4?, ha.value, hb.value, hc.value, hd.value, hvalue, ih]

private theorem front_blank {c : Char} (hc : c ∈ [' ', '\n', '\t', '\r']) (text : List Char) :
    front (c :: text) = front text := by
  simp only [List.mem_cons, List.not_mem_nil, or_false] at hc
  obtain rfl | rfl | rfl | rfl := hc <;> rfl

theorem front_append_blank {blanks : List Char} (blank : Blank blanks) (text : List Char) :
    front (blanks ++ text) = front text := by
  induction blanks with
  | nil => rfl
  | cons c blanks ih =>
    obtain ⟨hc, hblanks⟩ := List.forall_mem_cons.mp blank
    rw [List.cons_append, front_blank hc, ih hblanks]

private theorem front_of_isDigit {c : Char} (hc : c.isDigit = true) (rest : List Char) :
    front (c :: rest) = .ofNumber (scanNumber false (c :: rest)) := by
  have hblank : isBlank c = false := by
    simp [isBlank, ne_of_isDigit hc]
  rw [front.eq_def]
  split <;> simp_all

/-- A token is the first one of the text that it opens. A number may not be gone on with. -/
private theorem front_append {token : Token} (spelled : token.SpelledBy chars)
    (hclosed : ∀ n, token = .number n → Closed rest) :
    front (chars ++ rest) = .token token rest := by
  cases spelled with
  | number numeral =>
    have hscan := numeral.scanNumber_append (hclosed _ rfl)
    obtain ⟨c, tail, hwhole, hc⟩ := numeral.whole.exists_cons
    simp only [Numeral.chars, List.append_assoc]
    cases hnegative : numeral.negative with
    | true =>
      rw [hnegative] at hscan
      exact congrArg Front.ofNumber hscan
    | false =>
      rw [hnegative, hwhole] at hscan
      rw [hwhole]
      exact (front_of_isDigit hc _).trans (congrArg Front.ofNumber hscan)
  | string body of_text =>
    have hscan := scanString_append body [] rest
    simp [front, hscan, Front.ofString, textOf, joinSurrogates_of_unitsOf of_text]
  | noText body of_none =>
    have hscan := scanString_append body [] rest
    have hnone := joinSurrogates_eq_none body of_none
    simp [front, hscan, Front.ofString, textOf, hnone]
  | _ => rfl

theorem Token.SpelledBy.ne_nil {token : Token} (spelled : token.SpelledBy chars) : chars ≠ [] := by
  cases spelled with
  | number numeral => simp [Numeral.chars, numeral.whole.ne_nil]
  | _ => exact List.cons_ne_nil _ _

/-! ## Reading values -/

namespace State

/-- The state after tokens, if they may stand there. -/
def run (state : State) (tokens : List Token) : Option State := tokens.foldlM step state

theorem run_cons (state : State) (token : Token) (rest : List Token) :
    state.run (token :: rest) = (state.step token).bind (·.run rest) :=
  List.foldlM_cons ..

/-- An item may open an array as it may stand in one. -/
private theorem run_arrayStart (item : Value) (outer : List Frame) (rest : List Token) :
    (arrayStart outer).run (item.tokens ++ rest) =
      (value (.array [] :: outer)).run (item.tokens ++ rest) := by
  obtain _ | _ | _ | _ | (_ | ⟨_, _⟩) | (_ | ⟨⟨_, _⟩, _⟩) := item <;> rfl

/-- What may stand behind a value does not go on with a number. -/
private theorem closed_of_step_complete {token : Token} {value : Value} {outer : List Frame}
    {next : State} {chars : List Char} (hstep : (complete value outer).step token = some next)
    (spelled : token.SpelledBy chars) (rest : List Char) : Closed (chars ++ rest) := by
  cases spelled with
  | comma | closeArray | closeObject =>
    rintro c ⟨⟩
    decide
  | _ => obtain _ | ⟨_ | _, _⟩ := outer <;> exact nomatch hstep

/-- Behind a value a comma comes or a container is closed, so that no number is gone on with. -/
private theorem closed_of_run_complete {tokens : List Token} {text : List Char} {value : Value}
    {outer : List Frame} {last : State} (spelled : Spelled tokens text)
    (hrun : (complete value outer).run tokens = some last) : Closed text := by
  have hblank : ∀ c ∈ [' ', '\n', '\t', '\r'],
      c.isDigit = false ∧ c ≠ '.' ∧ c ≠ 'e' ∧ c ≠ 'E' := by simp
  cases spelled with
  | nil blank => exact fun c hc => hblank c (blank c (List.mem_of_mem_head? hc))
  | @cons blanks _ _ _ _ blank spelled tail =>
    cases blanks with
    | nil =>
      rw [run_cons, Option.bind_eq_some_iff] at hrun
      obtain ⟨next, hstep, -⟩ := hrun
      exact closed_of_step_complete hstep spelled _
    | cons c blanks =>
      rintro _ ⟨⟩
      exact hblank c (blank c List.mem_cons_self)

/-- A number completes a value. -/
private theorem complete_of_step_number {state next : State} {n : Number}
    (h : state.step (.number n) = some next) : ∃ value outer, next = .complete value outer := by
  cases state with
  | value outer | arrayStart outer => exact ⟨_, _, (Option.some.inj h).symm⟩
  | objectStart outer | member members outer | colon members name outer => exact nomatch h
  | complete value outer => obtain _ | ⟨_ | _, _⟩ := outer <;> exact nomatch h

end State

/-- The reader gets from its state to where the tokens lead. -/
theorem readFrom_spelled {tokens : List Token} {text : List Char} (spelled : Spelled tokens text)
    {steps : Nat} {state last : State} (hrun : state.run tokens = some last)
    (hsteps : text.length < steps) : readFrom steps state text = last.finish := by
  induction spelled generalizing steps state with
  | @nil blanks blank =>
    obtain ⟨steps, rfl⟩ := Nat.exists_eq_add_of_lt hsteps
    obtain rfl := Option.some.inj hrun
    have hfront : front blanks = .finished := by
      rw [← blanks.append_nil, front_append_blank blank]
      rfl
    rw [readFrom, hfront]
  | @cons blanks chars text token rest blank spelled tail ih =>
    rw [State.run_cons, Option.bind_eq_some_iff] at hrun
    obtain ⟨next, hstep, hrun⟩ := hrun
    have hclosed : ∀ n, token = .number n → Closed text := by
      rintro n rfl
      obtain ⟨value, outer, rfl⟩ := State.complete_of_step_number hstep
      exact State.closed_of_run_complete tail hrun
    have hfront : front (blanks ++ (chars ++ text)) = .token token text := by
      rw [front_append_blank blank, front_append spelled hclosed]
    have hpos := List.length_pos_iff.mpr spelled.ne_nil
    simp only [List.length_append] at hsteps
    obtain ⟨steps, rfl⟩ := Nat.exists_eq_add_of_lt hsteps
    rw [readFrom, hfront]
    simp only [hstep]
    exact ih hrun (by omega)

mutual

/-- Where a value may stand, its tokens complete it. -/
theorem run_tokens : (value : Value) → (outer : List Frame) → (rest : List Token) →
    (State.value outer).run (value.tokens ++ rest) = (State.complete value outer).run rest
  | .null, _, _ | .bool _, _, _ | .number _, _, _ | .string _, _, _ | .array [], _, _
  | .object [], _, _ => rfl
  | .array (item :: items), outer, rest => by
    have hitem := run_tokens item (.array [] :: outer) (moreItems items ++ rest)
    have hmore := run_moreItems items [] item outer rest
    rw [← State.run_arrayStart] at hitem
    simpa [Value.tokens, State.run_cons, State.step, State.start] using hitem.trans hmore
  | .object ((name, value) :: members), outer, rest => by
    have hvalue := run_tokens value (.object [] name :: outer) (moreMembers members ++ rest)
    have hmore := run_moreMembers members [] name value outer rest
    simpa [Value.tokens, State.run_cons, State.step, State.start] using hvalue.trans hmore

theorem run_moreItems : (items before : List Value) → (last : Value) →
    (outer : List Frame) → (rest : List Token) →
    (State.complete last (.array before :: outer)).run (moreItems items ++ rest) =
      (State.complete (.array ((last :: before).reverse ++ items)) outer).run rest
  | [], before, last, outer, rest => by simp [moreItems, State.run_cons, State.step]
  | item :: items, before, last, outer, rest => by
    have hitem := run_tokens item (.array (last :: before) :: outer) (moreItems items ++ rest)
    have hmore := run_moreItems items (last :: before) item outer rest
    simpa [moreItems, State.run_cons, State.step] using hitem.trans hmore

theorem run_moreMembers : (members before : List (Text × Value)) → (name : Text) →
    (last : Value) → (outer : List Frame) → (rest : List Token) →
    (State.complete last (.object before name :: outer)).run (moreMembers members ++ rest) =
      (State.complete (.object (((name, last) :: before).reverse ++ members)) outer).run rest
  | [], before, name, last, outer, rest => by simp [moreMembers, State.run_cons, State.step]
  | (next, value) :: members, before, name, last, outer, rest => by
    have hvalue := run_tokens value (.object ((name, last) :: before) next :: outer)
      (moreMembers members ++ rest)
    have hmore := run_moreMembers members ((name, last) :: before) next value outer rest
    simpa [moreMembers, State.run_cons, State.step] using hvalue.trans hmore

end

/-- Whatever text spells a value, the reader reads the value from it. -/
theorem Value.ofText_of_spelledBy {value : Value} {text : String} (h : value.SpelledBy text) :
    Value.ofText text = some value := by
  have hrun := run_tokens value [] []
  rw [List.append_nil] at hrun
  exact readFrom_spelled h hrun (Nat.lt_succ_self _)

end HeadsetStream.Json
