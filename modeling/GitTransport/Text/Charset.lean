/-
Reading bytes in a character set.

  The sets are UTF-8, the two orders of UTF-16 and the Western single-byte set that
  also stands for Latin 1 and ASCII.  A byte order mark at the front decides before
  any label does, and is not part of the text.

  The other sets that have a label on the web are not among them: the other single-byte
  sets (`iso-8859-15`, `windows-1251`, `koi8-r`) and those of East Asia (`shift_jis`,
  `euc-kr`, `gbk`).  An HTTP client reads bytes with such a label in that set; here they
  are read as UTF-8.
-/

import GitTransport.Text.Basic
import GitTransport.Text.Utf8

namespace GitTransport.Text

/-- A character set. -/
inductive Charset where
  | utf8
  | utf16 (bigEndian : Bool)
  | western
  deriving DecidableEq, Repr

namespace Charset

/-- The labels of the Western set. -/
def westernLabels : List String :=
  ["ansi_x3.4-1968", "ascii", "cp1252", "cp819", "csisolatin1", "ibm819", "iso-8859-1",
    "iso-ir-100", "iso8859-1", "iso88591", "iso_8859-1", "iso_8859-1:1987", "l1", "latin1",
    "us-ascii", "windows-1252", "x-cp1252"]

/-- The labels of UTF-16, the low byte first. -/
def utf16Labels : List String :=
  ["csunicode", "iso-10646-ucs-2", "ucs-2", "unicode", "unicodefeff", "utf-16", "utf-16le"]

/-- The set that a label names.  A label that names none of the sets here is as good as
    none, so that the bytes are read as UTF-8.  This is also so for the labels of the other
    sets that an HTTP client knows, which reads another text then. -/
def ofLabel (label : String) : Charset :=
  let label := lower (trim label)
  if westernLabels.contains label then .western
  else if utf16Labels.contains label then .utf16 false
  else if ["unicodefffe", "utf-16be"].contains label then .utf16 true
  else .utf8

/-- The characters of the Western set from 128 to 159. -/
def westernUpper : List Nat :=
  [0x20ac, 0x81, 0x201a, 0x192, 0x201e, 0x2026, 0x2020, 0x2021, 0x2c6, 0x2030, 0x160, 0x2039,
    0x152, 0x8d, 0x17d, 0x8f, 0x90, 0x2018, 0x2019, 0x201c, 0x201d, 0x2022, 0x2013, 0x2014,
    0x2dc, 0x2122, 0x161, 0x203a, 0x153, 0x9d, 0x17e, 0x178]

/-- The character that a byte is in the Western set. -/
def westernChar (b : UInt8) : Char :=
  let n := b.toNat
  Char.ofNat (if 128 ≤ n ∧ n < 160 then westernUpper.getD (n - 128) n else n)

/-- The units of sixteen bits, and whether a byte is left over. -/
def units (bigEndian : Bool) : List UInt8 → List Nat × Bool
  | a :: b :: rest =>
    let unit := if bigEndian then a.toNat * 256 + b.toNat else b.toNat * 256 + a.toNat
    let (more, odd) := units bigEndian rest
    (unit :: more, odd)
  | rest => ([], !rest.isEmpty)

/-- The characters of units; half of a pair that stands alone is replaced. -/
def ofUnits : List Nat → List Char
  | [] => []
  | high :: rest =>
    if 0xd800 ≤ high ∧ high < 0xdc00 then
      match rest with
      | low :: rest' =>
        if 0xdc00 ≤ low ∧ low < 0xe000 then
          Char.ofNat (0x10000 + (high - 0xd800) * 1024 + (low - 0xdc00)) :: ofUnits rest'
        else replacement :: ofUnits (low :: rest')
      | [] => [replacement]
    else if 0xdc00 ≤ high ∧ high < 0xe000 then replacement :: ofUnits rest
    else Char.ofNat high :: ofUnits rest

/-- The text that bytes are in a set. -/
def decode (charset : Charset) (bytes : List UInt8) : List Char :=
  match charset with
  | .utf8 => decodeUtf8 bytes
  | .western => bytes.map westernChar
  | .utf16 bigEndian =>
    let (units, odd) := units bigEndian bytes
    -- half a pair and half a unit at the very end are one defect
    let endsHigh := units.getLast?.any fun unit => 0xd800 ≤ unit ∧ unit < 0xdc00
    ofUnits units ++ (if odd ∧ !endsHigh then [replacement] else [])

/-- The text of bytes with a byte order mark, or else in the given set. -/
def read (charset : Charset) (bytes : List UInt8) : String :=
  String.ofList (match bytes with
    | 0xef :: 0xbb :: 0xbf :: rest => decode .utf8 rest
    | 0xfe :: 0xff :: rest => decode (.utf16 true) rest
    | 0xff :: 0xfe :: rest => decode (.utf16 false) rest
    | _ => decode charset bytes)

end Charset

end GitTransport.Text
