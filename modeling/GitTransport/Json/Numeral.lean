/-
Numerals: the decimal texts of JSON numbers and the numbers that they denote.

  An integer of the machine's range stays exact.  Every other numeral becomes a
  number of 64 bits in three steps, each rounded by itself: as many leading digits
  as fit into 64 bits are read as one natural number, that number is rounded, and
  the rounded number is multiplied or divided by a power of ten.
-/

import GitTransport.Json.Basic

namespace GitTransport.Json

/-- The parts of a numeral, its digits the most significant first. -/
structure Numeral where
  negative : Bool
  whole : List Nat
  /-- The digits behind the point, when there is a point. -/
  fraction : Option (List Nat)
  /-- Whether the exponent is negative, and its digits, when there is a mark. -/
  exponent : Option (Bool × List Nat)
  deriving Repr

namespace Numeral

/-- The digits read so far: their value, and how many further digits did not fit. -/
structure Significand where
  value : Nat
  taken : Nat
  dropped : Nat
  deriving Repr

/-- Read one more digit.  The value stays below `2 ^ 64`, and once a digit did not
    fit all later ones are left out too. -/
def Significand.push (s : Significand) (digit : Nat) : Significand :=
  if s.dropped = 0 ∧ s.value * 10 + digit < 0x10000000000000000 then
    { s with value := s.value * 10 + digit, taken := s.taken + 1 }
  else { s with dropped := s.dropped + 1 }

/-- Read digits behind the ones that a value already stands for. -/
def readDigits (value : Nat) (digits : List Nat) : Significand :=
  digits.foldl Significand.push ⟨value, 0, 0⟩

/-- The greatest power of ten that is a number of 64 bits. -/
def greatestPower : Nat := 308

/-- `magnitude * 10 ^ exponent`, rounding at each step; `none` when that is too
    great.  A long way down leads over several quotients by the greatest power. -/
def scale (magnitude : Nat) (exponent : Int) : Option Nat :=
  if exponent.natAbs ≤ greatestPower then
    let power := Binary64.ofNat (Nat.pow 10 exponent.natAbs)
    if 0 ≤ exponent then
      let product := Binary64.mul magnitude power
      if product < Binary64.infinite then some product else none
    else some (Binary64.div magnitude power)
  else if magnitude = 0 then some 0
  else if 0 ≤ exponent then none
  else scale (Binary64.div magnitude (Binary64.ofNat (Nat.pow 10 greatestPower)))
    (exponent + greatestPower)
  termination_by exponent.natAbs
  decreasing_by
    simp only [greatestPower] at *
    omega

/-- The least exponent that is out of reach of the reader. -/
def exponentLimit : Nat := 0x80000000

/-- The number that a numeral denotes; `none` when it is too great for 64 bits. -/
def number? (n : Numeral) : Option Number :=
  let whole := readDigits 0 n.whole
  let digits := readDigits whole.value (n.fraction.getD [])
  let float (magnitude : Nat) : Number := .float ⟨n.negative, magnitude⟩
  let point : Int := whole.dropped - digits.taken
  match n.fraction, n.exponent with
  | none, none =>
    if whole.dropped = 0 ∧ !n.negative then some (.integer whole.value)
    else if whole.dropped = 0 ∧ 0 < whole.value ∧ whole.value ≤ 0x8000000000000000 then
      some (.integer (-whole.value))
    else (scale (Binary64.ofNat whole.value) point).map float
  | some _, none => (scale (Binary64.ofNat digits.value) point).map float
  | _, some (down, shift) =>
    let shift : Nat := shift.foldl (fun acc d => min (acc * 10 + d) exponentLimit) 0
    if shift = exponentLimit then
      if down || digits.value = 0 then some (float 0) else none
    else
      let shift : Int := if down then Int.neg shift else shift
      (scale (Binary64.ofNat digits.value) (point + shift)).map float

end Numeral

end GitTransport.Json
