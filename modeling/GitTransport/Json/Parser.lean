/-
The reader of JSON texts.

  The reader takes one character at a time.  Its state is what it is in the
  middle of (`Mode`) and the arrays and objects that are still open, the innermost
  first (`Frame`); so reading is a fold over the text.  The grammar is the strict
  one: nothing may follow the value, at most `depthLimit` arrays and objects are
  open at once, and surrogate escapes come in pairs.  Of two members with one
  name the later counts.  A text that ends in the middle of a value is
  `truncated`, every other refusal is `malformed`.
-/

import GitTransport.Json.Numeral
import GitTransport.Text.Basic

namespace GitTransport.Json

namespace Parser

/-- How far a numeral has been read. -/
inductive Stage where
  /-- Behind the minus sign: a digit must follow. -/
  | sign
  /-- Behind a leading zero: no digit may follow. -/
  | zero
  | whole
  /-- Behind the point: a digit must follow. -/
  | point
  | fraction
  /-- Behind the exponent mark: a sign or a digit must follow. -/
  | mark
  /-- Behind the sign of the exponent: a digit must follow. -/
  | markSign
  | exponent
  deriving DecidableEq, Repr

/-- Whether a numeral may end at this stage. -/
def Stage.complete : Stage → Bool
  | .zero | .whole | .fraction | .exponent => true
  | .sign | .point | .mark | .markSign => false

/-- A numeral in the middle of being read, its digits the last one first. -/
structure Digits where
  stage : Stage
  negative : Bool
  whole : List Nat
  fraction : Option (List Nat)
  exponent : Option (Bool × List Nat)
  deriving Repr

/-- The numeral read so far. -/
def Digits.numeral (d : Digits) : Numeral :=
  ⟨d.negative, d.whole.reverse, d.fraction.map List.reverse,
    d.exponent.map fun (down, digits) => (down, digits.reverse)⟩

/-- Go on with a numeral; `none` when the character does not belong to it. -/
def Digits.push (d : Digits) (c : Char) : Option Digits :=
  let digit := c.toNat - '0'.toNat
  let isMark := c = 'e' ∨ c = 'E'
  match d.stage with
  | .sign =>
    if c = '0' then some { d with stage := .zero, whole := [0] }
    else if c.isDigit then some { d with stage := .whole, whole := [digit] }
    else none
  | .zero =>
    if c = '.' then some { d with stage := .point, fraction := some [] }
    else if isMark then some { d with stage := .mark, exponent := some (false, []) }
    else none
  | .whole =>
    if c.isDigit then some { d with whole := digit :: d.whole }
    else if c = '.' then some { d with stage := .point, fraction := some [] }
    else if isMark then some { d with stage := .mark, exponent := some (false, []) }
    else none
  | .point | .fraction =>
    if c.isDigit then
      some { d with stage := .fraction, fraction := d.fraction.map (digit :: ·) }
    else if isMark ∧ d.stage = .fraction then
      some { d with stage := .mark, exponent := some (false, []) }
    else none
  | .mark | .markSign | .exponent =>
    if c.isDigit then
      some { d with
        stage := .exponent, exponent := d.exponent.map fun (down, l) => (down, digit :: l) }
    else if (c = '+' ∨ c = '-') ∧ d.stage = .mark then
      some { d with stage := .markSign, exponent := some (c = '-', []) }
    else none

/-- What the reader of a string is in the middle of. -/
inductive Escape where
  /-- Plain characters. -/
  | none
  /-- Behind a backslash. -/
  | backslash
  /-- In the four digits of an escape; `high` is the first half of a pair. -/
  | unit (high : Option Nat) (digits : List Char)
  /-- Behind the first half of a pair, which a second one must follow. -/
  | pair (high : Nat)
  | pairBackslash (high : Nat)
  /-- In four digits that are none; the text is refused when all have been seen. -/
  | broken (bytesLeft : Nat)
  deriving Repr

/-- An array or object that is still open. -/
inductive Frame where
  /-- The items read so far, the last one first. -/
  | array (items : List Json)
  /-- The members read so far, and the name whose value is being read. -/
  | object (members : Fields Json) (name : String)

/-- What the reader is in the middle of. -/
inductive Mode where
  /-- A value must begin. -/
  | value
  /-- Behind an opening bracket: a value or the closing bracket. -/
  | firstItem
  /-- Behind an opening brace: a name or the closing brace. -/
  | firstName
  /-- Behind the comma of an object: a name. -/
  | name
  /-- Behind a name: the colon. -/
  | colon
  /-- In one of the three words: the letters to come and the value. -/
  | word (rest : List Char) (value : Json)
  | numeral (digits : Digits)
  /-- In a string, its characters the last one first. -/
  | text (isName : Bool) (chars : List Char) (escape : Escape)
  /-- Behind a complete value. -/
  | after (value : Json)

/-- What the reader remembers; the innermost frame stands first. -/
structure State where
  mode : Mode
  frames : List Frame

/-- The number of arrays and objects that may be open at once. -/
def depthLimit : Nat := 127

/-- The blanks between the tokens. -/
def isBlank (c : Char) : Bool := c = ' ' || c = '\n' || c = '\t' || c = '\r'

/-- Open an array or object, unless too many are open. -/
def enter (s : State) (frame : Frame) (mode : Mode) : Except Fault State :=
  if s.frames.length < depthLimit then .ok ⟨mode, frame :: s.frames⟩ else .error .malformed

/-- The first character of a value. -/
def beginValue (s : State) (c : Char) : Except Fault State :=
  let digits (stage : Stage) (negative : Bool) (whole : List Nat) : Except Fault State :=
    .ok { s with mode := .numeral ⟨stage, negative, whole, none, none⟩ }
  if isBlank c then .ok s
  else if c = '"' then .ok { s with mode := .text false [] .none }
  else if c = '[' then enter s (.array []) .firstItem
  else if c = '\x7b' then enter s (.object [] "") .firstName
  else if c = 'n' then .ok { s with mode := .word ['u', 'l', 'l'] .null }
  else if c = 't' then .ok { s with mode := .word ['r', 'u', 'e'] (.bool true) }
  else if c = 'f' then .ok { s with mode := .word ['a', 'l', 's', 'e'] (.bool false) }
  else if c = '-' then digits .sign true []
  else if c = '0' then digits .zero false [0]
  else if c.isDigit then digits .whole false [c.toNat - '0'.toNat]
  else .error .malformed

/-- The character behind a complete value. -/
def afterValue (frames : List Frame) (value : Json) (c : Char) : Except Fault State :=
  if isBlank c then .ok ⟨.after value, frames⟩
  else
    match frames with
    | .array items :: rest =>
      if c = ',' then .ok ⟨.value, .array (value :: items) :: rest⟩
      else if c = ']' then .ok ⟨.after (.array (value :: items).reverse), rest⟩
      else .error .malformed
    | .object members name :: rest =>
      let members := Fields.insert name value members
      if c = ',' then .ok ⟨.name, .object members "" :: rest⟩
      else if c = '\x7d' then .ok ⟨.after (.object members), rest⟩
      else .error .malformed
    | [] => .error .malformed

/-- The state behind the closing brace of an object without members. -/
def closeEmpty (s : State) : State := ⟨.after (.object []), s.frames.tail⟩

/-- The state behind a complete string; a name goes into the innermost object. -/
def endText (frames : List Frame) (isName : Bool) (chars : List Char) : State :=
  let text := String.ofList chars.reverse
  match isName, frames with
  | true, .object members _ :: rest => ⟨.colon, .object members text :: rest⟩
  | _, _ => ⟨.after (.string text), frames⟩

/-- The character that a backslash and a letter stand for. -/
def escaped? (c : Char) : Option Char :=
  if c = '"' ∨ c = '\\' ∨ c = '/' then some c
  else if c = 'b' then some '\x08'
  else if c = 'f' then some '\x0c'
  else if c = 'n' then some '\n'
  else if c = 'r' then some '\r'
  else if c = 't' then some '\t'
  else none

/-- The character behind four complete digits, or the half of a pair. -/
def endUnit (high : Option Nat) (unit : Nat) (chars : List Char) :
    Except Fault (List Char × Escape) :=
  let isHigh := 0xd800 ≤ unit ∧ unit < 0xdc00
  let isLow := 0xdc00 ≤ unit ∧ unit < 0xe000
  match high with
  | none =>
    if isHigh then .ok (chars, .pair unit)
    else if isLow then .error .malformed
    else .ok (Char.ofNat unit :: chars, .none)
  | some high =>
    if isLow then
      .ok (Char.ofNat (0x10000 + (high - 0xd800) * 0x400 + (unit - 0xdc00)) :: chars, .none)
    else .error .malformed

/-- One character of a string, the closing quote apart. -/
def inText (chars : List Char) (escape : Escape) (c : Char) : Except Fault (List Char × Escape) :=
  match escape with
  | .none =>
    if c = '\\' then .ok (chars, .backslash)
    else if c.toNat < 0x20 then .error .malformed
    else .ok (c :: chars, .none)
  | .backslash =>
    if c = 'u' then .ok (chars, .unit none [])
    else match escaped? c with
      | some char => .ok (char :: chars, .none)
      | none => .error .malformed
  | .unit high digits =>
    match Text.digit? 16 c with
    | none =>
      -- four bytes are looked at before any of them is judged
      let seen := digits.length + c.utf8Size
      if 4 ≤ seen then .error .malformed else .ok (chars, .broken (4 - seen))
    | some _ =>
      match digits with
      | [c₁, c₂, c₃] =>
        match Text.number? 16 [c₁, c₂, c₃, c] with
        | some unit => endUnit high unit chars
        | none => .error .malformed
      | _ => .ok (chars, .unit high (digits ++ [c]))
  | .pair high => if c = '\\' then .ok (chars, .pairBackslash high) else .error .malformed
  | .pairBackslash high => if c = 'u' then .ok (chars, .unit (some high) []) else .error .malformed
  | .broken left =>
    if left ≤ c.utf8Size then .error .malformed else .ok (chars, .broken (left - c.utf8Size))

/-- Whether a quote would close a string here. -/
def Escape.closes : Escape → Bool
  | .none => true
  | _ => false

/-- The state behind a numeral that ends before `c`. -/
def endNumeral (frames : List Frame) (digits : Digits) (c : Char) : Except Fault State :=
  if digits.stage.complete ∧ ¬ (digits.stage = .zero ∧ c.isDigit) then
    match digits.numeral.number? with
    | some n => afterValue frames (.number n) c
    | none => .error .malformed
  else .error .malformed

/-- One character of the text. -/
def step (s : State) (c : Char) : Except Fault State :=
  match s.mode with
  | .value => beginValue s c
  | .firstItem =>
    if c = ']' then .ok ⟨.after (.array []), s.frames.tail⟩
    else if isBlank c then .ok s
    else beginValue s c
  | .firstName =>
    if isBlank c then .ok s
    else if c = '\x7d' then .ok (closeEmpty s)
    else if c = '"' then .ok { s with mode := .text true [] .none }
    else .error .malformed
  | .name =>
    if isBlank c then .ok s
    else if c = '"' then .ok { s with mode := .text true [] .none }
    else .error .malformed
  | .colon =>
    if isBlank c then .ok s
    else if c = ':' then .ok { s with mode := .value }
    else .error .malformed
  | .word rest value =>
    match rest with
    | [] => afterValue s.frames value c
    | [d] => if c = d then .ok { s with mode := .after value } else .error .malformed
    | d :: rest => if c = d then .ok { s with mode := .word rest value } else .error .malformed
  | .numeral digits =>
    match digits.push c with
    | some digits => .ok { s with mode := .numeral digits }
    | none => endNumeral s.frames digits c
  | .text isName chars escape =>
    if c = '"' ∧ escape.closes then .ok (endText s.frames isName chars)
    else (inText chars escape c).map fun (chars, escape) =>
      { s with mode := .text isName chars escape }
  | .after value => afterValue s.frames value c

/-- The value at the end of the text. -/
def finish (s : State) : Except Fault Json :=
  match s.mode with
  | .numeral digits =>
    if digits.stage.complete then
      match digits.numeral.number? with
      | some n => if s.frames.isEmpty then .ok (.number n) else .error .truncated
      | none => .error .malformed
    else .error .truncated
  | .after value => if s.frames.isEmpty then .ok value else .error .truncated
  | _ => .error .truncated

end Parser

/-- The value that a text denotes. -/
def parse (text : String) : Except Fault Json := do
  let s ← text.toList.foldlM Parser.step ⟨.value, []⟩
  Parser.finish s

end GitTransport.Json
