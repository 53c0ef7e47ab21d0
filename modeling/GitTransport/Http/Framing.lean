/-
The bytes of messages.

  A request asks for the connection to be closed after the response, so a response is
  everything that arrives on it.  The body of a response ends after the announced
  length, after the last chunk, or with the connection.
-/

import GitTransport.Http.Wire

namespace GitTransport

/-! ## Requests -/

namespace WireRequest

/-- The host of a request, with the port when it is not the one of the scheme. -/
def hostHeader (r : WireRequest) : String :=
  match r.url.authority with
  | some authority =>
    { authority with username := "", password := none : Url.Authority }.text
  | none => ""

/-- What stands between the method and the version. -/
def target (r : WireRequest) : String :=
  let path := r.url.path.text
  (if path.isEmpty then "/" else path) ++ ((r.url.query.map ("?" ++ ·)).getD "")

/-- The lines before the body. -/
def headLines (r : WireRequest) : List String :=
  let length : List (String × String) :=
    match r.body with
    | some body => [("content-length", toString body.utf8ByteSize)]
    | none => if r.method = .get then [] else [("content-length", "0")]
  (r.method.text ++ " " ++ r.target ++ " HTTP/1.1") ::
    (("host", r.hostHeader) :: r.headers ++ length ++ [("connection", "close")]).map
      fun (name, value) => name ++ ": " ++ value

/-- The bytes of a request. -/
def bytes (r : WireRequest) : List UInt8 :=
  let head := String.join (r.headLines.map (· ++ "\r\n")) ++ "\r\n"
  Text.utf8 (head.toList ++ (r.body.getD "").toList)

end WireRequest

/-! ## Responses -/

namespace WireResponse

/-- The bytes up to an end of line, and those behind it. -/
def splitLine : List UInt8 → Option (List UInt8 × List UInt8)
  | 13 :: 10 :: rest => some ([], rest)
  | b :: rest => (splitLine rest).map fun (line, rest) => (b :: line, rest)
  | [] => none

theorem splitLine_length {bytes line rest : List UInt8} (h : splitLine bytes = some (line, rest)) :
    rest.length < bytes.length := by
  induction bytes generalizing line with
  | nil => cases h
  | cons b tail ih =>
    have shorter (l : Option (List UInt8 × List UInt8)) (hl : l = splitLine tail)
        (h : l.map (fun p => (b :: p.1, p.2)) = some (line, rest)) :
        rest.length < (b :: tail).length := by
      obtain ⟨p, hp, he⟩ := Option.map_eq_some_iff.1 h
      have hrest : p.2 = rest := congrArg Prod.snd he
      exact Nat.lt_succ_of_lt (@ih p.1 (by rw [← hl, hp, ← hrest]))
    unfold splitLine at h
    split at h
    · next heq =>
      obtain ⟨-, rfl⟩ := List.cons.inj heq
      obtain ⟨-, rfl⟩ := Prod.mk.inj (Option.some.inj h)
      exact Nat.lt_succ_of_lt (Nat.lt_succ_self _)
    · next heq =>
      obtain ⟨rfl, rfl⟩ := List.cons.inj heq
      exact shorter _ rfl h
    · next heq => cases heq

/-- The bytes of a line as characters. -/
def chars (bytes : List UInt8) : List Char := bytes.map fun b => Char.ofNat b.toNat

/-- The status in the first line. -/
def status? (line : List UInt8) : Option Nat :=
  match Text.splitAt (· = ' ') (chars line) with
  | version :: code :: _ =>
    if "HTTP/1.".toList.isPrefixOf version ∧ code.length = 3 then Text.number? 10 code else none
  | _ => none

/-- Whether a byte is a blank or a tab. -/
def isGap (b : UInt8) : Bool := b = 0x20 || b = 0x09

/-- The name and the value in a line of the head. -/
def headerOf? (line : List UInt8) : Option (String × List UInt8) :=
  let name := line.takeWhile (· ≠ 0x3a)
  let value := (line.dropWhile (· ≠ 0x3a)).drop 1
  if name.isEmpty ∨ name.length = line.length then none
  else
    some (String.ofList (chars name), Text.dropLastWhile isGap (value.dropWhile isGap))

/-- The headers up to the empty line, and the bytes behind it. -/
def headers? (bytes : List UInt8) : Option (List (String × List UInt8) × List UInt8) :=
  match _h : splitLine bytes with
  | none => none
  | some ([], rest) => some ([], rest)
  | some (line, rest) => do
    let header ← headerOf? line
    let (more, rest) ← headers? rest
    return (header :: more, rest)
  termination_by bytes.length
  decreasing_by exact splitLine_length _h

/-- The body in chunks: each one behind a line with its length in base sixteen, the
    last one empty. -/
def unchunk? (bytes : List UInt8) : Option (List UInt8) :=
  match _h : splitLine bytes with
  | none => none
  | some (line, rest) =>
    let digits := (chars line).takeWhile fun c => (Text.digit? 16 c).isSome
    match if digits.isEmpty then none else Text.number? 16 digits with
    | none => none
    | some 0 => some []
    | some size =>
      if rest.length < size + 2 then none
      else (unchunk? (rest.drop (size + 2))).map (rest.take size ++ ·)
  termination_by bytes.length
  decreasing_by
    have := splitLine_length _h
    simp only [List.length_drop]
    omega

/-- The body of a response, as the headers announce it; `none` when less has come. -/
def bodyOf (r : WireResponse) (bytes : List UInt8) : Option (List UInt8) :=
  if (r.header? "transfer-encoding").any (Text.sameLetters "chunked") then unchunk? bytes
  else
    match (r.header? "content-length").bind fun text => Text.number? 10 text.toList with
    | some length => if bytes.length < length then none else some (bytes.take length)
    | none => some bytes

/-- The first response in the bytes of a connection, not counting preliminary ones.
    The number bounds how many of those there can be. -/
def first (bound : Nat) (bytes : List UInt8) : WireReply :=
  match bound, splitLine bytes with
  | bound + 1, some (line, rest) =>
    match status? line, headers? rest with
    | some status, some (headers, rest) =>
      let r : WireResponse := ⟨status, headers, none⟩
      if 100 ≤ status ∧ status < 200 then first bound rest
      else .ok { r with body := r.bodyOf rest }
    | _, _ => .error .unanswered
  | _, _ => .error .unanswered

/-- The response in the bytes of a connection. -/
def ofBytes (bytes : List UInt8) : WireReply := first (bytes.length + 1) bytes

end WireResponse

end GitTransport
