/-
Characters of texts, and the pieces of texts: case, digits, blanks, and what stands
between breaks.

  Only the letters of ASCII have case here; every other character stands for
  itself, as in header names, schemes and the keywords of the service.

  The blanks are the characters with the White_Space property.  They are more than the
  blanks of ASCII, so a text of no-break spaces counts as empty.
-/

namespace GitTransport.Text

/-! ## Letters and digits -/

/-- A text with the capital letters of ASCII made small. -/
def lower (text : String) : String := String.ofList (text.toList.map Char.toLower)

/-- Equality that disregards the case of ASCII letters. -/
def sameLetters (a b : String) : Bool := lower a = lower b

/-- The value of a digit in a base of at most sixteen. -/
def digit? (base : Nat) (c : Char) : Option Nat :=
  let value? : Option Nat :=
    if '0' ≤ c ∧ c ≤ '9' then some (c.toNat - '0'.toNat)
    else if 'a' ≤ c ∧ c ≤ 'f' then some (c.toNat - 'a'.toNat + 10)
    else if 'A' ≤ c ∧ c ≤ 'F' then some (c.toNat - 'A'.toNat + 10)
    else none
  value?.filter (· < base)

/-- The number that digits of a base denote, the most significant first; `none`
    when another character stands among them. -/
def number? (base : Nat) (digits : List Char) : Option Nat :=
  digits.foldlM (fun acc c => (digit? base c).map (acc * base + ·)) 0

/-! ## Blanks -/

/-- The characters with the White_Space property. -/
def isBlank (c : Char) : Bool :=
  let n := c.toNat
  (9 ≤ n && n ≤ 13) || n = 0x20 || n = 0x85 || n = 0xa0 || n = 0x1680 ||
  (0x2000 ≤ n && n ≤ 0x200a) || n = 0x2028 || n = 0x2029 || n = 0x202f || n = 0x205f || n = 0x3000

/-- Leave out the last items of a list that satisfy a test. -/
def dropLastWhile {α : Type} (p : α → Bool) (items : List α) : List α :=
  (items.reverse.dropWhile p).reverse

/-- A text without the blanks at its end. -/
def trimEnd (text : String) : String := String.ofList (dropLastWhile isBlank text.toList)

/-- A text without the blanks at its two ends. -/
def trim (text : String) : String :=
  String.ofList (dropLastWhile isBlank (text.toList.dropWhile isBlank))

/-! ## Parts and pieces -/

/-- Whether `part` occurs in `text` without a gap. -/
def occursIn (part : List Char) : List Char → Bool
  | [] => part.isEmpty
  | c :: rest => part.isPrefixOf (c :: rest) || occursIn part rest

/-- The pieces of a list between the items that satisfy a test. -/
def splitAt {α : Type} (isBreak : α → Bool) : List α → List (List α)
  | [] => [[]]
  | c :: rest =>
    match isBreak c, splitAt isBreak rest with
    | true, pieces => [] :: pieces
    | false, [] => [[c]]
    | false, piece :: pieces => (c :: piece) :: pieces

theorem splitAt_ne_nil {α : Type} (isBreak : α → Bool) (items : List α) :
    splitAt isBreak items ≠ [] := by
  cases items with
  | nil => simp [splitAt]
  | cons c rest => simp only [splitAt]; split <;> simp

end GitTransport.Text
