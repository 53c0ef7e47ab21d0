/-
Texts as letters, digits and hyphens of ASCII.

  The characters of ASCII come first, then a hyphen, and then the places and numbers
  of all other characters: these are taken in the order of their numbers, and each is
  written as the distance that a count over all places and numbers moves on from the
  one before, in base 36 with digits of a varying range.  The range follows the size of
  the distances so far.
-/

namespace GitTransport.Text.Bootstring

/-! ## Digits -/

/-- The letter or digit for a number below 36. -/
def digitChar (d : Nat) : Char :=
  if d < 26 then Char.ofNat ('a'.toNat + d) else Char.ofNat ('0'.toNat + (d - 26))

/-- The number of a letter or digit. -/
def digitValue? (c : Char) : Option Nat :=
  if 'a' ≤ c ∧ c ≤ 'z' then some (c.toNat - 'a'.toNat)
  else if 'A' ≤ c ∧ c ≤ 'Z' then some (c.toNat - 'A'.toNat)
  else if '0' ≤ c ∧ c ≤ '9' then some (c.toNat - '0'.toNat + 26)
  else none

/-- The least digit that is not the last one, `place` being 36, 72 and so on. -/
def threshold (bias place : Nat) : Nat := max 1 (min 26 (place - bias))

theorem threshold_pos (bias place : Nat) : 1 ≤ threshold bias place := Nat.le_max_left ..

/-- Reduce a distance to less than half of the range, counting the places. -/
def reduce (delta : Nat) : Nat × Nat :=
  if 455 < delta then
    let (rest, places) := reduce (delta / 35)
    (rest, places + 36)
  else (delta, 0)
  termination_by delta
  decreasing_by exact Nat.div_lt_self (by omega) (by decide)

/-- The bias after a distance, `count` being the number of characters then. -/
def adapt (delta count : Nat) (isFirst : Bool) : Nat :=
  let delta := if isFirst then delta / 700 else delta / 2
  let (delta, places) := reduce (delta + delta / count)
  places + 36 * delta / (delta + 38)

/-- The digits of a distance, the least significant first. -/
def digits (bias place distance : Nat) : List Char :=
  if distance < threshold bias place then [digitChar distance]
  else
    let t := threshold bias place
    digitChar (t + (distance - t) % (36 - t)) ::
      digits bias (place + 36) ((distance - t) / (36 - t))
  termination_by distance
  decreasing_by
    have := threshold_pos bias place
    have := Nat.div_le_self (distance - threshold bias place) (36 - threshold bias place)
    omega

/-! ## Writing -/

/-- How far a text has been written. -/
structure Writer where
  output : List Char
  delta : Nat
  bias : Nat
  written : Nat

/-- Pass one character of the text, `wanted` being the number that is written now. -/
def Writer.pass (basic wanted : Nat) (w : Writer) (c : Char) : Writer :=
  if c.toNat < wanted then { w with delta := w.delta + 1 }
  else if c.toNat = wanted then
    ⟨w.output ++ digits w.bias 36 w.delta, 0,
      adapt w.delta (w.written + 1) (w.written = basic), w.written + 1⟩
  else w

/-- Write the characters with the given numbers, the least number first. -/
def write (text : List Char) (basic : Nat) : List Nat → Nat → Writer → Writer
  | [], _, w => w
  | wanted :: rest, current, w =>
    let moved : Writer := { w with delta := w.delta + (wanted - current) * (w.written + 1) }
    let after := text.foldl (Writer.pass basic wanted) moved
    write text basic rest (wanted + 1) { after with delta := after.delta + 1 }

/-- Whether a character is one of ASCII. -/
def isBasic (c : Char) : Bool := c.toNat < 128

/-- The ASCII form of a text. -/
def encode (text : List Char) : List Char :=
  let basic := text.filter isBasic
  let numbers := ((text.filter (!isBasic ·)).map Char.toNat).eraseDups.mergeSort
  let start := if basic.isEmpty then [] else basic ++ ['-']
  (write text basic.length numbers 128 ⟨start, 0, 72, basic.length⟩).output

/-! ## Reading -/

/-- How far an ASCII form has been read. -/
structure Reader where
  text : List Char
  number : Nat := 128
  place : Nat := 0
  bias : Nat := 72
  /-- The place before the distance that is being read. -/
  start : Nat := 0
  weight : Nat := 1
  digitPlace : Nat := 36

/-- Whether a number is the one of a character. -/
def isCharacter (n : Nat) : Bool := n < 0xd800 || (0xdfff < n && n < 0x110000)

/-- Read one digit; the last digit of a distance puts a character into the text. -/
def Reader.push (r : Reader) (c : Char) : Option Reader := do
  let digit ← digitValue? c
  let place := r.place + digit * r.weight
  let t := threshold r.bias r.digitPlace
  if digit < t then
    let count := r.text.length + 1
    let number := r.number + place / count
    let place := place % count
    if !isCharacter number then failure
    return { text := r.text.take place ++ Char.ofNat number :: r.text.drop place
             number := number
             place := place + 1
             bias := adapt (r.place + digit * r.weight - r.start) count (r.start = 0)
             start := place + 1 }
  else
    return { r with place := place, weight := r.weight * (36 - t), digitPlace := r.digitPlace + 36 }

/-- The text with an ASCII form. -/
def decode? (encoded : List Char) : Option (List Char) := do
  let tail := (encoded.reverse.takeWhile (· ≠ '-')).reverse
  let basic := encoded.take (encoded.length - tail.length - 1)
  let reader ← tail.foldlM Reader.push { text := basic }
  if reader.digitPlace ≠ 36 then failure
  return reader.text

end GitTransport.Text.Bootstring
