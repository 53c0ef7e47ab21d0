/-
Texts as bytes: the UTF-8 form of a text, and the reading of bytes that need not
be UTF-8.

  Reading never fails: the bytes up to the first one that cannot belong to a
  character give one replacement character, and reading goes on with that byte.
-/

namespace GitTransport.Text

/-- The UTF-8 form of a character. -/
def utf8Char (c : Char) : List UInt8 :=
  let n := c.toNat
  let tail (shift : Nat) : UInt8 := UInt8.ofNat (0x80 + (n >>> shift) % 64)
  if n < 0x80 then [UInt8.ofNat n]
  else if n < 0x800 then [UInt8.ofNat (0xc0 + n / 0x40), tail 0]
  else if n < 0x10000 then [UInt8.ofNat (0xe0 + n / 0x1000), tail 6, tail 0]
  else [UInt8.ofNat (0xf0 + n / 0x40000), tail 12, tail 6, tail 0]

/-- The UTF-8 form of a text. -/
def utf8 (text : List Char) : List UInt8 := text.flatMap utf8Char

/-- The character that stands for bytes that are no character. -/
def replacement : Char := '\ufffd'

/-- A character of which some bytes are still to come. -/
structure PartialChar where
  /-- The bits so far. -/
  bits : Nat
  /-- How many bytes are to come. -/
  owed : Nat
  /-- The least value of the next byte. -/
  low : Nat
  /-- The greatest value of the next byte. -/
  high : Nat

/-- What the first byte of a character says. -/
inductive Lead where
  | whole (c : Char)
  | first (p : PartialChar)
  | stray

/-- The first byte of a character.  The bounds on the second byte rule out longer
    forms than needed, surrogates and numbers beyond the last character. -/
def lead (b : UInt8) : Lead :=
  let n := b.toNat
  if n < 0x80 then .whole (Char.ofNat n)
  else if n < 0xc2 then .stray
  else if n < 0xe0 then .first ⟨n - 0xc0, 1, 0x80, 0xbf⟩
  else if n < 0xf0 then
    .first ⟨n - 0xe0, 2, if n = 0xe0 then 0xa0 else 0x80, if n = 0xed then 0x9f else 0xbf⟩
  else if n < 0xf5 then
    .first ⟨n - 0xf0, 3, if n = 0xf0 then 0x90 else 0x80, if n = 0xf4 then 0x8f else 0xbf⟩
  else .stray

/-- Read bytes, `pending` being a character that has begun. -/
def decodeUtf8From (pending : Option PartialChar) : List UInt8 → List Char
  | [] => if pending.isSome then [replacement] else []
  | b :: rest =>
    let fresh : List Char :=
      match lead b with
      | .whole c => c :: decodeUtf8From none rest
      | .first p => decodeUtf8From (some p) rest
      | .stray => replacement :: decodeUtf8From none rest
    match pending with
    | none => fresh
    | some p =>
      if p.low ≤ b.toNat ∧ b.toNat ≤ p.high then
        let bits := p.bits * 64 + b.toNat % 64
        if p.owed ≤ 1 then Char.ofNat bits :: decodeUtf8From none rest
        else decodeUtf8From (some ⟨bits, p.owed - 1, 0x80, 0xbf⟩) rest
      else replacement :: fresh

/-- The text that bytes stand for. -/
def decodeUtf8 (bytes : List UInt8) : List Char := decodeUtf8From none bytes

end GitTransport.Text
