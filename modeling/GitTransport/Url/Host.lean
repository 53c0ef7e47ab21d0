/-
Reading the host of an address.

  Under a well-known scheme a host is decoded and brought to the form of a domain
  name first; when the result ends in a number it has to be the address of a
  machine, whose parts may be written in base eight, ten or sixteen and may be
  fewer than four.  In brackets stands an address of eight numbers.  Under another
  scheme a host is any text without the characters that end it.
-/

import GitTransport.Url.Basic
import GitTransport.Url.Domain

namespace GitTransport.Url

/-! ## Addresses of four numbers -/

/-- A part of an address: its base shows in its first characters. -/
def ipv4Part? (part : List Char) : Option Nat :=
  match part with
  | [] => none
  | '0' :: 'x' :: digits | '0' :: 'X' :: digits => Text.number? 16 digits
  | '0' :: d :: digits => Text.number? 8 (d :: digits)
  | digits => Text.number? 10 digits

/-- The parts between the points; a point at the end adds none. -/
def ipv4Parts (name : List Char) : List (List Char) :=
  let parts := Text.splitAt (· = '.') name
  if parts.length ≤ 1 then parts
  else if parts.getLast? = some [] then parts.dropLast else parts

/-- Whether a name can only be meant as an address of four numbers. -/
def endsInNumber (name : List Char) : Bool :=
  match (ipv4Parts name).getLast? with
  | none => false
  | some last => (!last.isEmpty && last.all Char.isDigit) || (ipv4Part? last).isSome

/-- The address that a name denotes: each part but the last is one byte, and the
    last one takes the bytes that remain. -/
def ipv4? (name : List Char) : Except Fault Nat :=
  let parts := ipv4Parts name
  match parts.mapM ipv4Part? with
  | none => .error .invalidIpv4
  | some numbers =>
    let leading := numbers.dropLast
    let last := numbers.getLast?.getD 0
    if 4 < numbers.length ∨ leading.any (255 < ·) ∨ Nat.pow 256 (4 - leading.length) ≤ last then
      .error .invalidIpv4
    else .ok (leading.zipIdx.foldl (fun acc (n, i) => acc + n * Nat.pow 256 (3 - i)) last)

/-! ## Addresses of eight numbers -/

/-- Four bytes in decimal at the end of an address, as two numbers.  A byte has
    no leading zero. -/
def ipv4Tail? (text : List Char) : Option (List Nat) :=
  let byte? (digits : List Char) : Option Nat :=
    if digits.isEmpty ∨ (digits.length ≠ 1 ∧ digits.head? = some '0') then none
    else (Text.number? 10 digits).filter (· ≤ 255)
  match (Text.splitAt (· = '.') text).mapM byte? with
  | some [a, b, c, d] => some [a * 256 + b, c * 256 + d]
  | _ => none

/-- The numbers of an address and the place where zeros were left out. -/
structure Ipv6Pieces where
  pieces : List Nat
  gap : Option Nat

/-- Read the rest of an address, behind the numbers read so far. -/
def ipv6From (seen : Ipv6Pieces) (text : List Char) : Option Ipv6Pieces :=
  match text with
  | [] => some seen
  | ':' :: rest =>
    if seen.pieces.length = 8 ∨ seen.gap.isSome then none
    else ipv6From ⟨seen.pieces ++ [0], some (seen.pieces.length + 1)⟩ rest
  | c :: rest =>
    if seen.pieces.length = 8 then none
    else
      let isHex (c : Char) : Bool := (Text.digit? 16 c).isSome
      let digits := ((c :: rest).take 4).takeWhile isHex
      let value := (Text.number? 16 digits).getD 0
      match _h : (c :: rest).drop digits.length with
      | [] => some { seen with pieces := seen.pieces ++ [value] }
      | '.' :: _ =>
        if digits.isEmpty ∨ 6 < seen.pieces.length then none
        else (ipv4Tail? (c :: rest)).map fun tail => { seen with pieces := seen.pieces ++ tail }
      | ':' :: rest' =>
        if rest'.isEmpty then none
        else ipv6From { seen with pieces := seen.pieces ++ [value] } rest'
      | _ => none
  termination_by text.length
  decreasing_by
    · simp
    · have hlen := congrArg List.length _h
      simp only [List.length_drop, List.length_cons] at hlen
      simp only [List.length_cons]
      omega

/-- The eight numbers of an address. -/
def ipv6? (text : List Char) : Except Fault (List Nat) :=
  let read? : Option Ipv6Pieces :=
    match text with
    | ':' :: ':' :: rest => ipv6From ⟨[0], some 1⟩ rest
    | ':' :: _ => none
    | [] | [_] => none
    | _ => ipv6From ⟨[], none⟩ text
  match read? with
  | some ⟨pieces, some gap⟩ =>
    if pieces.length ≤ 8 then
      .ok (pieces.take gap ++ List.replicate (8 - pieces.length) 0 ++ pieces.drop gap)
    else .error .invalidIpv6
  | some ⟨pieces, none⟩ => if pieces.length = 8 then .ok pieces else .error .invalidIpv6
  | none => .error .invalidIpv6

/-! ## Hosts -/

/-- The address of eight numbers in brackets, when the text begins with one. -/
def bracketed? (text : List Char) : Option (Except Fault Host) :=
  match text with
  | '[' :: rest =>
    if rest.getLast? = some ']' then some ((ipv6? rest.dropLast).map .ipv6)
    else some (.error .invalidIpv6)
  | _ => none

/-- A host under a well-known scheme. -/
def specialHost (text : List Char) : Except Fault Host :=
  match bracketed? text with
  | some host => host
  | none =>
    match domainName? (percentDecodeText text) with
    | none => .error .invalidDomain
    | some name =>
      if name.isEmpty then .error .emptyHost
      else if endsInNumber name then (ipv4? name).map .ipv4
      else .ok (.domain (String.ofList name))

/-- The characters that no host contains. -/
def forbiddenInHost (c : Char) : Bool :=
  ['\x00', '\t', '\n', '\r', ' ', '#', '/', ':', '<', '>', '?', '@', '[', '\\', ']', '^',
    '|'].contains c

/-- A host under any other scheme. -/
def plainHost (text : List Char) : Except Fault Host :=
  match bracketed? text with
  | some host => host
  | none =>
    if text.any forbiddenInHost then .error .forbiddenCharacter
    else .ok (.domain (String.ofList (percentEncode inControls text)))

end GitTransport.Url
