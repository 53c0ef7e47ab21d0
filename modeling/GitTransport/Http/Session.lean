/-
Sessions with the service over HTTP.

  A session turns each request of a client into the exchanges on the wire that serve
  it.  A request that changes something needs a token, which is fetched from the root
  of the service and kept; the user's credentials and the cookies of the service go
  with every message.

  The credentials are written in base 64: three bytes are four letters, and equals signs
  fill up the last four.
-/

import GitTransport.Client
import GitTransport.Http.Cookie

namespace GitTransport

namespace Text

/-- The letter for a number below 64. -/
def base64Letter (n : Nat) : Char :=
  if n < 26 then Char.ofNat ('A'.toNat + n)
  else if n < 52 then Char.ofNat ('a'.toNat + (n - 26))
  else if n < 62 then Char.ofNat ('0'.toNat + (n - 52))
  else if n = 62 then '+'
  else '/'

/-- Bytes in base 64. -/
def base64 : List UInt8 → List Char
  | [] => []
  | [a] =>
    let n := a.toNat
    [base64Letter (n / 4), base64Letter (n % 4 * 16), '=', '=']
  | [a, b] =>
    let n := a.toNat * 256 + b.toNat
    [base64Letter (n / 1024), base64Letter (n / 16 % 64), base64Letter (n % 16 * 4), '=']
  | a :: b :: c :: rest =>
    let n := (a.toNat * 256 + b.toNat) * 256 + c.toNat
    base64Letter (n / 262144) :: base64Letter (n / 4096 % 64) :: base64Letter (n / 64 % 64) ::
      base64Letter (n % 64) :: base64 rest

end Text

/-- Where the service is and who asks, and what is remembered between requests. -/
structure Session where
  /-- The root of the service. -/
  baseUrl : Url
  /-- The client of the system, a parameter of every query. -/
  client : Option String
  user : String
  password : Option String
  /-- The token for requests that change something. -/
  token : Option String := none
  cookies : List Cookie := []
  deriving DecidableEq, Repr

/-- Computations on the wire. -/
abbrev Wire := Exchange WireRequest WireReply

namespace Session

/-! ## Addresses -/

/-- The pairs of the query of a request. -/
def queryPairs (s : Session) (params : List (String × String)) : List (String × String) :=
  (s.client.map fun client => ("sap-client", client)).toList ++ params

/-- Add pairs to the query of an address; an empty query is left out. -/
def addQuery (url : Url) (pairs : List (String × String)) : Url :=
  let query := Url.appendPairs (url.query.getD "").toList pairs
  url.withQuery (if query.isEmpty then none else some (String.ofList query))

/-- The address of a resource. -/
def urlFor (s : Session) (path : String) (params : List (String × String)) :
    Except Url.Fault Url :=
  (s.baseUrl.join path).map fun url => addQuery url (s.queryPairs params)

/-! ## What an address and a header must be to be sent -/

/-- The characters that a host on the wire must not have. -/
def unsendable (c : Char) : Bool := ['"', '\x60', '\x7b', '\x7d'].contains c

/-- The longest address on the wire. -/
def longestUrl : Nat := 65534

/-- Whether a request to an address can be sent. -/
def sendable (url : Url) : Bool :=
  (url.scheme = "http" || url.scheme = "https") && url.text.length ≤ longestUrl &&
    !(Cookie.hostOf url).toList.any unsendable

/-- Whether a text can be the value of a header. -/
def isHeaderValue (text : String) : Bool :=
  text.toList.all fun c => (0x20 ≤ c.toNat && c.toNat ≠ 0x7f) || c = '\t'

/-! ## Credentials -/

/-- The header for a user and a password. -/
def basicAuth (user : String) (password : Option String) : String × String :=
  let plain := user.toList ++ ':' :: (password.getD "").toList
  ("authorization", "Basic " ++ String.ofList (Text.base64 (Text.utf8 plain)))

/-- A part of an address decoded, when it is the form of a text. -/
def decodedPart? (part : String) : Option String :=
  let bytes := Url.percentDecode part.toList
  let text := Text.decodeUtf8 bytes
  if Text.utf8 text = bytes then some (String.ofList text) else none

/-- The credentials inside an address, and the address without them.  They are left
    where they are when they are no text. -/
def takeCredentials (url : Url) : List (String × String) × Url :=
  match url.authority with
  | none => ([], url)
  | some authority =>
    match decodedPart? authority.username with
    | none => ([], url)
    | some user =>
      let password := authority.password.bind decodedPart?
      if user.isEmpty ∧ password.isNone then ([], url)
      else
        ([basicAuth user password],
          { url with authority := some { authority with username := "", password := none } })

/-! ## Messages -/

/-- Where a message for an address goes, with the credentials that stood in the
    address; or why it cannot be sent. -/
def destination (url : Url) (headers : List (String × String)) :
    Except Undelivered (List (String × String) × Url) :=
  let (credentials, target) := takeCredentials url
  if !headers.all fun header => isHeaderValue header.2 then
    .error (.network url.text "builder error")
  else if !sendable target then
    .error (.network url.text ("builder error for url (" ++ target.text ++ ")"))
  else .ok (credentials, target)

/-- The message for a destination, with the credentials of the user and the cookies. -/
def message (s : Session) (method : Method) (destination : List (String × String) × Url)
    (headers : List (String × String)) (body : Option String) : WireRequest where
  method := method
  url := destination.2
  headers :=
    destination.1 ++ basicAuth s.user s.password :: headers ++
      ((Cookie.header? destination.2 s.cookies).map fun text => ("cookie", text)).toList
  body := body

/-- The response to a message for an address that was sent to `target`. -/
def answered (url target : Url) : WireReply → Except Undelivered WireResponse
  | .ok response => .ok response
  | .error .unanswered =>
    .error (.network url.text ("error sending request for url (" ++ target.text ++ ")"))

/-- The session with the cookies of a response. -/
def withCookies (s : Session) (target : Url) : WireReply → Session
  | .ok response => { s with cookies := Cookie.afterResponse target s.cookies response }
  | .error .unanswered => s

/-- Send one message and take in the cookies of the response.  A message is one call of the
    HTTP client: what the client sends by itself when the response is a redirect is no
    message here, and `reply` is what it ends with. -/
def transmit (s : Session) (method : Method) (url : Url) (headers : List (String × String))
    (body : Option String) : Wire (Except Undelivered WireResponse × Session) :=
  match destination url headers with
  | .error reason => .done (.error reason, s)
  | .ok place =>
    .ask (s.message method place headers body) fun reply =>
      .done (answered url place.2 reply, s.withCookies place.2 reply)

/-- A response from an address as the client gets it; its body has to be whole. -/
def received (url : Url) (response : WireResponse) : Reply :=
  match response.decoded? with
  | some response => .ok response
  | none => .error (.network url.text "error decoding response body")

/-- The name of the header of the token. -/
def tokenHeader : String := "x-csrf-token"

/-- Fetch the token from the root of the service.  It stands in the head of the response,
    so the body need not be whole. -/
def fetchToken (s : Session) : Wire (Except Undelivered (Option String) × Session) :=
  match s.urlFor "" [] with
  | .error fault => .done (.error (.address fault), s)
  | .ok url =>
    s.transmit .get url [(tokenHeader, "Fetch"), ("accept", "*/*")] none >>= fun (outcome, s) =>
      match outcome with
      | .error reason => .done (.error reason, s)
      | .ok response =>
        let token := response.header? tokenHeader
        .done (.ok token, { s with token := token })

/-- The token that a request carries: none when it only reads, the kept one, or a new
    one. -/
def tokenFor (s : Session) (method : Method) :
    Wire (Except Undelivered (Option String) × Session) :=
  if method = .get then .done (.ok none, s)
  else if s.token.isSome then .done (.ok s.token, s)
  else s.fetchToken

/-- The headers of a request. -/
def headersOf (request : Request) (token : Option String) : List (String × String) :=
  (token.map fun token => (tokenHeader, token)).toList ++
    [("accept", request.accept.getD "*/*")] ++
    (request.body.map fun _ => ("content-type", "application/json")).toList

/-- Serve a request of a client. -/
def serve (s : Session) (request : Request) : Wire (Reply × Session) :=
  match s.urlFor request.path request.params with
  | .error fault => .done (.error (.address fault), s)
  | .ok url =>
    s.tokenFor request.method >>= fun (token, s) =>
      match token with
      | .error reason => .done (.error reason, s)
      | .ok token =>
        s.transmit request.method url (headersOf request token)
            (request.body.map Json.compact) >>= fun (outcome, s) =>
          .done (outcome.bind (received url), s)

/-- Run a client in a session. -/
def run {α : Type} (client : Client α) (s : Session) : Wire (α × Session) :=
  Exchange.through serve client s

end Session

end GitTransport
