/-
Binary floating point numbers of 64 bits, computed exactly on natural numbers.

  The nonnegative numbers of the format, zero, subnormal and normal, are counted
  from 0 upward; a number is kept as its place in that count (its `ordinal`,
  which is also its bit pattern) beside its sign.  Every operation works on the
  exact quotient of two naturals and rounds once, to the nearest number, a tie to
  the even ordinal.  The count goes on to `infinite`, where the format ends.
-/

namespace GitTransport

/-- A number of the format: a sign and a place among the nonnegative numbers. -/
structure Binary64 where
  negative : Bool
  ordinal : Nat
  deriving DecidableEq, Repr, Inhabited

namespace Binary64

/-- The significand of every power of two; it has 53 bits. -/
def hiddenBit : Nat := 0x10000000000000

/-- The first ordinal that stands for no finite number. -/
def infinite : Nat := 0x7ff * hiddenBit

/-- The magnitude with this ordinal is `significand * 2 ^ exponent`. -/
def magnitude (ordinal : Nat) : Nat × Int :=
  let field : Nat := ordinal / hiddenBit
  let fraction : Nat := ordinal % hiddenBit
  if field = 0 then (fraction, -1074) else (hiddenBit + fraction, (field : Int) - 1075)

/-- `numerator / denominator` rounded to a natural number, a tie to the even one. -/
def roundHalfEven (numerator denominator : Nat) : Nat :=
  let quotient := numerator / denominator
  let twice := 2 * (numerator % denominator)
  if twice < denominator then quotient
  else if denominator < twice then quotient + 1
  else quotient + quotient % 2

/-- Multiply a quotient by a power of two. -/
def shiftRatio (numerator denominator : Nat) : Int → Nat × Nat
  | .ofNat n => (numerator * Nat.pow 2 n, denominator)
  | .negSucc n => (numerator, denominator * Nat.pow 2 (n + 1))

/-- The ordinal of the number nearest to a quotient.  The exponent is chosen so
    that the significand has 53 bits, or is the smallest one; a significand that
    rounds up to `2 ^ 53` then counts on into the next exponent by itself. -/
def ofRatio (numerator denominator : Nat) : Nat :=
  if numerator = 0 then 0
  else
    let guess : Int := (numerator.log2 : Int) - denominator.log2
    let (n, d) := shiftRatio numerator denominator (-guess)
    let exponent := max (if d ≤ n then guess - 52 else guess - 53) (-1074)
    let (n, d) := shiftRatio numerator denominator (-exponent)
    min ((exponent + 1074).toNat * hiddenBit + roundHalfEven n d) infinite

/-- The number nearest to a natural number. -/
def ofNat (n : Nat) : Nat := ofRatio n 1

/-- The product of two magnitudes. -/
def mul (a b : Nat) : Nat :=
  let (m, e) := magnitude a
  let (n, f) := magnitude b
  let (numerator, denominator) := shiftRatio (m * n) 1 (e + f)
  ofRatio numerator denominator

/-- The quotient of two magnitudes, the second not zero. -/
def div (a b : Nat) : Nat :=
  let (m, e) := magnitude a
  let (n, f) := magnitude b
  let (numerator, denominator) := shiftRatio m n (e - f)
  ofRatio numerator denominator

/-- A magnitude as a quotient of two naturals. -/
def ratio (ordinal : Nat) : Nat × Nat :=
  let (m, e) := magnitude ordinal
  shiftRatio m 1 e

/-! ## Decimal digits -/

/-- `digits * 10 ^ exponent`. -/
structure Decimal where
  digits : Nat
  exponent : Int
  deriving DecidableEq, Repr

/-- Multiply a quotient by a power of ten. -/
def scaleRatio (numerator denominator : Nat) : Int → Nat × Nat
  | .ofNat n => (numerator * Nat.pow 10 n, denominator)
  | .negSucc n => (numerator, denominator * Nat.pow 10 (n + 1))

/-- The number nearest to a decimal.  The two bounds keep the powers of ten small:
    a decimal of `d` digits beyond them is infinite, or less than half of the
    least number. -/
def ofDecimal (value : Decimal) : Nat :=
  let places : Int := value.digits.log2
  if value.digits = 0 then 0
  else if value.exponent > 400 then infinite
  else if value.exponent + places < -400 then 0
  else
    let (n, d) := scaleRatio value.digits 1 value.exponent
    ofRatio n d

/-- The least power of ten above a quotient, as an exponent: `10 ^ (p - 1) ≤
    numerator / denominator < 10 ^ p`. -/
def decimalPlaces (numerator denominator : Nat) : Int :=
  if denominator ≤ numerator then
    (Nat.toDigits 10 (numerator / denominator)).length
  else
    -- below one, `denominator / numerator` tells how many zeros follow the point
    let zeros : Nat := (Nat.toDigits 10 ((denominator - 1) / numerator)).length - 1
    Int.neg zeros

/-- The reals that round to an ordinal, both ends in the unit of `denominator`;
    the ends belong to it exactly when the significand is even. -/
structure Interval where
  low : Nat
  value : Nat
  high : Nat
  denominator : Nat
  closed : Bool

/-- The interval of the reals that round to a nonzero ordinal.  Below a power of
    two the neighbour is half as far away as above it. -/
def rounding (ordinal : Nat) : Interval :=
  let (m, e) := magnitude ordinal
  let (unit, denominator) := shiftRatio 1 1 (e - 2)
  let below := if m = hiddenBit ∧ e ≠ -1074 then 1 else 2
  ⟨(4 * m - below) * unit, 4 * m * unit, (4 * m + 2) * unit, denominator, m % 2 = 0⟩

/-- Whether `digits * 10 ^ exponent` lies in the interval. -/
def Interval.contains (i : Interval) (candidate : Decimal) : Bool :=
  let (n, d) := scaleRatio candidate.digits 1 candidate.exponent
  let x := n * i.denominator
  if i.closed then i.low * d ≤ x ∧ x ≤ i.high * d else i.low * d < x ∧ x < i.high * d

/-- Of the two neighbours of the value on the grid of `10 ^ exponent`, the nearest
    one in the interval; a tie goes to the even one. -/
def Interval.onGrid? (i : Interval) (exponent : Int) : Option Decimal :=
  let (n, d) := scaleRatio i.value i.denominator (-exponent)
  let lower : Decimal := ⟨n / d, exponent⟩
  let upper : Decimal := ⟨n / d + 1, exponent⟩
  let nearest := if roundHalfEven n d = n / d then lower else upper
  let other := if nearest = lower then upper else lower
  if i.contains nearest then some nearest
  else if i.contains other then some other
  else none

/-- Drop the zeros at the end of the digits. -/
def Decimal.trim (value : Decimal) : Decimal :=
  if h : value.digits ≠ 0 ∧ value.digits % 10 = 0 then
    trim ⟨value.digits / 10, value.exponent + 1⟩
  else value
  termination_by value.digits
  decreasing_by exact Nat.div_lt_self (Nat.pos_of_ne_zero h.1) (by decide)

/-- The shortest decimal that rounds to an ordinal, the nearest among the
    shortest: the first grid with a point in the interval gives it, and seventeen
    digits always suffice. -/
def shortest (ordinal : Nat) : Decimal :=
  let i := rounding ordinal
  let places := decimalPlaces i.value i.denominator
  let grids := (List.range 17).map fun (n : Nat) => places - (n + 1)
  ((grids.findSome? i.onGrid?).getD ⟨0, 0⟩).trim

end Binary64

end GitTransport
