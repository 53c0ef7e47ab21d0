/-
Messages as they go over the wire.

  A request has a complete address and all its headers; a response has its headers
  and its body as bytes, unless the connection broke off inside the body.  A header
  can be read as text when its bytes are visible characters of ASCII, blanks and tabs.
-/

import GitTransport.Http.Message
import GitTransport.Text.Charset
import GitTransport.Url.Parser

namespace GitTransport

/-- A request on the wire. -/
structure WireRequest where
  method : Method
  url : Url
  headers : List (String × String)
  body : Option String
  deriving DecidableEq, Repr

/-- A response on the wire. -/
structure WireResponse where
  status : Nat
  headers : List (String × List UInt8)
  /-- The bytes of the body; `none` when the connection ended inside it. -/
  body : Option (List UInt8)
  deriving DecidableEq, Repr

/-- Why there is no response. -/
inductive WireFault where
  /-- No connection, or a connection that ended before the body of a response. -/
  | unanswered
  deriving DecidableEq, Repr

/-- What comes back over the wire. -/
abbrev WireReply := Except WireFault WireResponse

namespace WireResponse

/-- The text of a header whose bytes are readable. -/
def headerText? (bytes : List UInt8) : Option String :=
  if bytes.all fun b => (0x20 ≤ b && b < 0x7f) || b = 0x09 then
    some (String.ofList (bytes.map fun b => Char.ofNat b.toNat))
  else none

/-- The first header with this name, when it is readable. -/
def header? (r : WireResponse) (name : String) : Option String :=
  ((r.headers.find? fun header => Text.sameLetters header.1 name).map (·.2)).bind headerText?

/-- The readable headers, with their names in small letters. -/
def readableHeaders (r : WireResponse) : List (String × String) :=
  r.headers.filterMap fun (name, bytes) =>
    (headerText? bytes).map fun value => (Text.lower name, value)

/-- The value of a parameter of a media type, without its quotation marks. -/
def parameter? (mediaType name : String) : Option String :=
  let parts := (Text.splitAt (· = ';') mediaType.toList).drop 1
  let matching := parts.filterMap fun part =>
    let key := Text.trim (String.ofList (part.takeWhile (· ≠ '=')))
    let value := Text.trim (String.ofList ((part.dropWhile (· ≠ '=')).drop 1))
    if Text.sameLetters key name then some value else none
  matching.head?.map fun value => String.ofList (value.toList.filter (· ≠ '"'))

/-- The character set of the body. -/
def charset (r : WireResponse) : Text.Charset :=
  match (r.header? "content-type").bind (parameter? · "charset") with
  | some label => .ofLabel label
  | none => .utf8

/-- The response with its body as text, when the body is whole. -/
def decoded? (r : WireResponse) : Option Response :=
  r.body.map fun bytes => ⟨r.status, r.readableHeaders, r.charset.read bytes⟩

end WireResponse

end GitTransport
