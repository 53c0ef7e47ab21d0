/-
The compact text of JSON values.

  There are no blanks, members stand in the order in which the object holds them,
  and only the quote, the backslash and the control characters are escaped.  A
  floating point number has the fewest digits that read back, and always a point
  or an exponent, so that it is told from an integer.
-/

import GitTransport.Json.Basic

namespace GitTransport.Json

/-! ## Numbers -/

/-- How the text of a floating point number is laid out. -/
structure FloatLayout where
  /-- The least power of ten whose numbers are written without an exponent. -/
  leastPlain : Int
  /-- The greatest power of ten whose numbers are written without an exponent. -/
  greatestPlain : Int

/-- Numbers from `1e-5` up to `1e16` are written without an exponent. -/
def floatLayout : FloatLayout := ⟨-5, 15⟩

/-- Zeros. -/
def zeros (n : Nat) : List Char := List.replicate n '0'

/-- The text of `digits * 10 ^ exponent`. -/
def decimalText (layout : FloatLayout) (value : Binary64.Decimal) : List Char :=
  let digits := Nat.toDigits 10 value.digits
  let power : Int := value.exponent + digits.length - 1
  if layout.leastPlain ≤ power ∧ power ≤ layout.greatestPlain then
    if 0 ≤ value.exponent then digits ++ zeros value.exponent.toNat ++ ['.', '0']
    else if 0 ≤ power then
      digits.take (power.toNat + 1) ++ '.' :: digits.drop (power.toNat + 1)
    else ['0', '.'] ++ zeros (power.natAbs - 1) ++ digits
  else
    let mantissa := match digits with
      | [] => []
      | [d] => [d]
      | d :: rest => d :: '.' :: rest
    mantissa ++ 'e' :: (if power < 0 then '-' else '+') :: Nat.toDigits 10 power.natAbs

/-- The text of a floating point number. -/
def floatText (value : Binary64) : List Char :=
  let magnitude :=
    if value.ordinal = 0 then ['0', '.', '0']
    else decimalText floatLayout (Binary64.shortest value.ordinal)
  if value.negative then '-' :: magnitude else magnitude

/-- The text of a number. -/
def Number.text : Number → List Char
  | .integer value =>
    let digits := Nat.toDigits 10 value.natAbs
    if value < 0 then '-' :: digits else digits
  | .float value => floatText value

/-! ## Strings -/

/-- A digit of base sixteen. -/
def hexDigit (n : Nat) : Char := (Nat.digitChar n)

/-- One character of a string as it is written. -/
def escape (c : Char) : List Char :=
  if c = '"' then ['\\', '"']
  else if c = '\\' then ['\\', '\\']
  else if c = '\x08' then ['\\', 'b']
  else if c = '\x0c' then ['\\', 'f']
  else if c = '\n' then ['\\', 'n']
  else if c = '\r' then ['\\', 'r']
  else if c = '\t' then ['\\', 't']
  else if c.toNat < 0x20 then
    ['\\', 'u', '0', '0', hexDigit (c.toNat / 16), hexDigit (c.toNat % 16)]
  else [c]

/-- A string as it is written. -/
def quoted (text : String) : List Char := '"' :: text.toList.flatMap escape ++ ['"']

/-! ## Values -/

mutual

/-- The characters of the compact text. -/
def chars : Json → List Char
  | .null => ['n', 'u', 'l', 'l']
  | .bool true => ['t', 'r', 'u', 'e']
  | .bool false => ['f', 'a', 'l', 's', 'e']
  | .number value => value.text
  | .string text => quoted text
  | .array items => '[' :: itemChars items ++ [']']
  | .object members => '\x7b' :: memberChars members ++ ['\x7d']

/-- The items of an array with the commas between them. -/
def itemChars : List Json → List Char
  | [] => []
  | [item] => item.chars
  | item :: rest => item.chars ++ ',' :: itemChars rest

/-- The members of an object with the commas between them. -/
def memberChars : List (String × Json) → List Char
  | [] => []
  | [(name, value)] => quoted name ++ ':' :: value.chars
  | (name, value) :: rest => quoted name ++ ':' :: (value.chars ++ ',' :: memberChars rest)

end

/-- The compact text of a value. -/
def compact (value : Json) : String := String.ofList value.chars

end GitTransport.Json
