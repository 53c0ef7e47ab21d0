/-
Percent encoding: bytes written as a percent sign and two hexadecimal digits.

  Which characters of ASCII are written so depends on the part of the address;
  the sets below grow from the fragment to the user name.  Every other character
  beyond ASCII is always written as the bytes of its UTF-8 form.
-/

import GitTransport.Text.Utf8
import GitTransport.Text.Basic

namespace GitTransport.Url

/-! ## The sets of characters -/

/-- Control characters and everything beyond ASCII. -/
def inControls (c : Char) : Bool := c.toNat < 0x20 || 0x7e < c.toNat

/-- What a fragment encodes. -/
def inFragment (c : Char) : Bool := inControls c || [' ', '"', '<', '>', '`'].contains c

/-- What a query encodes. -/
def inQuery (c : Char) : Bool := inControls c || [' ', '"', '#', '<', '>'].contains c

/-- What the query of an address with a well-known scheme encodes. -/
def inSpecialQuery (c : Char) : Bool := inQuery c || c = '\''

/-- What a segment of a path encodes.  The percent sign stays, so that a path that
    is encoded already is not encoded again. -/
def inPath (c : Char) : Bool := inFragment c || ['#', '?', '\x7b', '\x7d'].contains c

/-- What a user name and a password encode. -/
def inUserinfo (c : Char) : Bool :=
  inPath c || ['/', ':', ';', '=', '@', '[', '\\', ']', '^', '|'].contains c

/-! ## Encoding -/

/-- A hexadecimal digit, the letters capital. -/
def hexDigit (n : Nat) : Char := (Nat.digitChar n).toUpper

/-- A byte as a percent sign and two digits. -/
def percentByte (b : UInt8) : List Char := ['%', hexDigit (b.toNat / 16), hexDigit (b.toNat % 16)]

/-- The encoded form of a character. -/
def percentChar (c : Char) : List Char := (Text.utf8Char c).flatMap percentByte

/-- Encode the characters of a set. -/
def percentEncode (encodes : Char → Bool) (text : List Char) : List Char :=
  text.flatMap fun c => if encodes c then percentChar c else [c]

/-! ## Decoding -/

/-- The value of a byte that is a hexadecimal digit. -/
def hexValue? (b : UInt8) : Option Nat := Text.digit? 16 (Char.ofNat b.toNat)

/-- Bytes with every percent sign that two digits follow replaced by the byte that
    they denote. -/
def percentDecodeBytes : List UInt8 → List UInt8
  | [] => []
  | b :: rest =>
    if b = 0x25 then
      match rest with
      | x :: y :: rest' =>
        match hexValue? x, hexValue? y with
        | some high, some low => UInt8.ofNat (high * 16 + low) :: percentDecodeBytes rest'
        | _, _ => b :: percentDecodeBytes (x :: y :: rest')
      | short => b :: short
    else b :: percentDecodeBytes rest

/-- The bytes that an encoded text stands for. -/
def percentDecode (text : List Char) : List UInt8 := percentDecodeBytes (Text.utf8 text)

/-- The text that an encoded text stands for. -/
def percentDecodeText (text : List Char) : List Char := Text.decodeUtf8 (percentDecode text)

/-! ## Queries as forms -/

/-- What a form leaves as it is. -/
def isFormPlain (c : Char) : Bool := c.isAlphanum || ['*', '-', '.', '_'].contains c

/-- A name or value of a form: a blank becomes a plus sign, and everything else
    that is not plain is encoded. -/
def formEncode (text : List Char) : List Char :=
  text.flatMap fun c =>
    if isFormPlain c then [c] else if c = ' ' then ['+'] else percentChar c

/-- A name or value read from a form. -/
def formDecode (text : List Char) : List Char :=
  Text.decodeUtf8 (percentDecode (text.map fun c => if c = '+' then ' ' else c))

/-- A pair of a form. -/
def formPair (pair : String × String) : List Char :=
  formEncode pair.1.toList ++ '=' :: formEncode pair.2.toList

/-- Add pairs to a query, an ampersand before each unless nothing stands there. -/
def appendPairs (query : List Char) (pairs : List (String × String)) : List Char :=
  pairs.foldl
    (fun acc pair => if acc.isEmpty then formPair pair else acc ++ '&' :: formPair pair) query

/-- The pairs of a query; a piece without an equals sign is a name with an empty
    value, and an empty piece is no pair. -/
def formPairs (query : List Char) : List (String × String) :=
  let pieces := (Text.splitAt (· = '&') query).filter fun piece => !piece.isEmpty
  pieces.map fun piece =>
    (String.ofList (formDecode (piece.takeWhile (· ≠ '='))),
      String.ofList (formDecode ((piece.dropWhile (· ≠ '=')).drop 1)))

end GitTransport.Url
