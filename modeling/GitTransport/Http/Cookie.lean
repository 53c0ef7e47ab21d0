/-
Cookies: values that a service asks its clients to send back.

  A cookie belongs to a host, or to a domain with all hosts in it, and to a path with
  everything below it.  A new cookie takes the place of one with the same name and
  scope; a lifetime that is over takes it away.
-/

import GitTransport.Http.Wire

namespace GitTransport

/-- A cookie with its scope. -/
structure Cookie where
  name : String
  value : String
  domain : String
  /-- Whether the cookie is for the domain itself only. -/
  hostOnly : Bool
  path : String
  /-- Whether the cookie is sent over secure connections only. -/
  secure : Bool
  deriving DecidableEq, Repr

namespace Cookie

/-- The text of the host of an address. -/
def hostOf (url : Url) : String := ((url.authority.map (·.host.text)).getD "")

/-- The directory of an address, to which a cookie belongs by default. -/
def directoryOf (url : Url) : String :=
  match url.path with
  | .segments names =>
    let names := names.dropLast
    if names.isEmpty then "/" else (Url.Path.segments names).text
  | .rootless _ => "/"

/-- Whether a host is in a domain. -/
def inDomain (host domain : String) : Bool :=
  host = domain || ('.' :: domain.toList).isSuffixOf host.toList

/-- Whether a path is at or below another one. -/
def atOrBelow (path scope : String) : Bool :=
  path = scope ||
    (scope.toList.isPrefixOf path.toList &&
      (scope.toList.getLast? = some '/' || (path.toList.drop scope.length).head? = some '/'))

/-- Whether a cookie is sent with a request to an address. -/
def belongsTo (cookie : Cookie) (url : Url) : Bool :=
  (if cookie.hostOnly then hostOf url = cookie.domain else inDomain (hostOf url) cookie.domain) &&
    atOrBelow url.path.text cookie.path && (!cookie.secure || url.scheme = "https")

/-- The name and value around the first equals sign. -/
def splitPair (part : List Char) : String × String :=
  (Text.trim (String.ofList (part.takeWhile (· ≠ '='))),
    Text.trim (String.ofList ((part.dropWhile (· ≠ '=')).drop 1)))

/-- Whether a lifetime in seconds is over. -/
def isOver (seconds : String) : Bool :=
  match seconds.toList with
  | '-' :: digits => !digits.isEmpty && digits.all Char.isDigit
  | digits => !digits.isEmpty && digits.all (· = '0')

/-- The cookie that a header sets for an address, and whether its lifetime is over.
    A domain that does not contain the host is refused. -/
def ofHeader? (url : Url) (header : String) : Option (Cookie × Bool) :=
  match Text.splitAt (· = ';') header.toList with
  | [] => none
  | first :: rest =>
    let (name, value) := splitPair first
    let attributes := rest.map fun part =>
      let (key, value) := splitPair part
      (Text.lower key, value)
    let attribute? (key : String) : Option String :=
      (attributes.reverse.find? (·.1 = key)).map (·.2)
    let domain? := ((attribute? "domain").map fun domain =>
      Text.lower (String.ofList (domain.toList.dropWhile (· = '.')))).filter (!·.isEmpty)
    let path := ((attribute? "path").filter (·.toList.head? = some '/')).getD (directoryOf url)
    let host := hostOf url
    if name.isEmpty ∨ !first.contains '=' then none
    else if domain?.any (!inDomain host ·) then none
    else
      some (⟨name, value, domain?.getD host, domain?.isNone, path, (attribute? "secure").isSome⟩,
        (attribute? "max-age").any isOver)

/-- Whether two cookies have the same name and scope. -/
def sameScope (a b : Cookie) : Bool := a.name = b.name && a.domain = b.domain && a.path = b.path

/-- The cookies after a header of a response. -/
def store (url : Url) (cookies : List Cookie) (header : String) : List Cookie :=
  match ofHeader? url header with
  | none => cookies
  | some (cookie, expired) =>
    let others := cookies.filter (!sameScope cookie ·)
    if expired then others else others ++ [cookie]

/-- The cookies after a response. -/
def afterResponse (url : Url) (cookies : List Cookie) (response : WireResponse) : List Cookie :=
  let headers := response.readableHeaders.filter (·.1 = "set-cookie")
  headers.foldl (fun cookies header => store url cookies header.2) cookies

/-- The header for a request to an address: the cookies of longer paths first. -/
def header? (url : Url) (cookies : List Cookie) : Option String :=
  let sent := (cookies.filter (·.belongsTo url)).mergeSort fun a b => b.path.length ≤ a.path.length
  if sent.isEmpty then none
  else some (String.intercalate "; " (sent.map fun cookie => cookie.name ++ "=" ++ cookie.value))

end Cookie

end GitTransport
