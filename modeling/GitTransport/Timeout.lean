/-
The time that a request may take.

  It is written in seconds, as a decimal with or without an exponent, is read to the
  nearest binary number and is kept in nanoseconds, a half going to the even one.
  Blanks around it do not count.
-/

import GitTransport.Binary64
import GitTransport.Text.Basic

namespace GitTransport

/-- A span of time. -/
structure Duration where
  seconds : Nat
  nanoseconds : Nat
  deriving DecidableEq, Repr

namespace Timeout

/-- Why a text is no timeout. -/
inductive Fault where
  /-- It is no positive number. -/
  | invalid (text : String)
  /-- It is a number of seconds beyond 64 bits. -/
  | tooLong
  deriving DecidableEq, Repr

/-- The variable of the environment that holds the timeout. -/
def variableName : String := "SAPCLI_HTTP_TIMEOUT"

/-- The timeout when there is no such variable. -/
def standard : Duration := ⟨900, 0⟩

/-! ## Decimals -/

/-- The exponent behind its letter: digits with or without a sign. -/
def exponent? (text : List Char) : Option Int :=
  let digits? (digits : List Char) : Option Nat :=
    if digits.isEmpty then none else Text.number? 10 digits
  match text with
  | '-' :: digits => (digits? digits).map fun n => -(n : Int)
  | '+' :: digits => (digits? digits).map fun n => (n : Int)
  | digits => (digits? digits).map fun n => (n : Int)

/-- Digits around a point, one of the two sides possibly empty. -/
def significand? (text : List Char) : Option Binary64.Decimal :=
  let whole := text.takeWhile (· ≠ '.')
  let fraction := (text.dropWhile (· ≠ '.')).drop 1
  if whole.isEmpty ∧ fraction.isEmpty then none
  else (Text.number? 10 (whole ++ fraction)).map fun digits => ⟨digits, -(fraction.length : Int)⟩

/-- A decimal without a minus sign. -/
def decimal? (text : List Char) : Option Binary64.Decimal :=
  let isMark (c : Char) : Bool := c = 'e' || c = 'E'
  let text := match text with
    | '+' :: rest => rest
    | _ => text
  match significand? (text.takeWhile (!isMark ·)), text.dropWhile (!isMark ·) with
  | some value, [] => some value
  | some value, _ :: rest =>
    (exponent? rest).map fun exponent => { value with exponent := value.exponent + exponent }
  | none, _ => none

/-! ## Seconds -/

/-- The nanoseconds of a number of seconds. -/
def nanosecondsOf (ordinal : Nat) : Nat :=
  let (numerator, denominator) := Binary64.ratio ordinal
  Binary64.roundHalfEven (numerator * 1000000000) denominator

/-- The span of a number of seconds, as long as the seconds have 64 bits. -/
def ofSeconds? (ordinal : Nat) : Option Duration :=
  let nanoseconds := nanosecondsOf ordinal
  let seconds := nanoseconds / 1000000000
  if seconds < 0x10000000000000000 then some ⟨seconds, nanoseconds % 1000000000⟩ else none

/-- The timeout that a text denotes. -/
def parse (text : String) : Except Fault Duration :=
  match decimal? (Text.trim text).toList with
  | none => .error (.invalid text)
  | some value =>
    let ordinal := Binary64.ofDecimal value
    if ordinal = 0 ∨ Binary64.infinite ≤ ordinal then .error (.invalid text)
    else match ofSeconds? ordinal with
      | some duration => .ok duration
      | none => .error .tooLong

/-- The timeout for what the variable holds. -/
def ofVariable : Option String → Except Fault Duration
  | some text => parse text
  | none => .ok standard

end Timeout

end GitTransport
