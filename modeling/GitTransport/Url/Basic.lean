/-
Addresses of resources.

  An address is kept in its parts, each of them already encoded; `text` writes it
  out.  Under the well-known schemes (`defaultPort?` and `file`) a host is a domain
  name or the address of a machine, and the path begins with a slash.  Under any
  other scheme the part behind the scheme may be plain text without slashes
  (`Path.rootless`).
-/

namespace GitTransport.Url

/-- Why a text is not an address. -/
inductive Fault where
  | emptyHost
  | invalidDomain
  | invalidPort
  | invalidIpv4
  | invalidIpv6
  | forbiddenCharacter
  | relativeWithoutBase
  | relativeToRootless
  deriving DecidableEq, Repr

/-- The words for a fault. -/
def Fault.message : Fault → String
  | .emptyHost => "empty host"
  | .invalidDomain => "invalid international domain name"
  | .invalidPort => "invalid port number"
  | .invalidIpv4 => "invalid IPv4 address"
  | .invalidIpv6 => "invalid IPv6 address"
  | .forbiddenCharacter => "invalid domain character"
  | .relativeWithoutBase => "relative URL without a base"
  | .relativeToRootless => "relative URL with a cannot-be-a-base base"

/-- The machine that an address names. -/
inductive Host where
  | domain (name : String)
  | ipv4 (address : Nat)
  /-- Eight numbers of sixteen bits. -/
  | ipv6 (pieces : List Nat)
  deriving DecidableEq, Repr

/-- The part between the two slashes and the path. -/
structure Authority where
  username : String
  password : Option String
  host : Host
  /-- The port when it is not the one of the scheme. -/
  port : Option Nat
  deriving DecidableEq, Repr

/-- The path of an address. -/
inductive Path where
  /-- Text without a leading slash. -/
  | rootless (text : String)
  /-- The texts behind the slashes. -/
  | segments (names : List String)
  deriving DecidableEq, Repr

end Url

/-- An address. -/
structure Url where
  scheme : String
  authority : Option Url.Authority
  path : Url.Path
  query : Option String
  fragment : Option String
  deriving DecidableEq, Repr

namespace Url

/-! ## Schemes -/

/-- The port that a well-known scheme stands for. -/
def defaultPort? (scheme : String) : Option Nat :=
  if scheme = "http" ∨ scheme = "ws" then some 80
  else if scheme = "https" ∨ scheme = "wss" then some 443
  else if scheme = "ftp" then some 21
  else none

/-- Whether a scheme is one of the well-known ones. -/
def isSpecial (scheme : String) : Bool := (defaultPort? scheme).isSome || scheme = "file"

/-- The port that an address leads to. -/
def effectivePort? (url : Url) : Option Nat :=
  match url.authority with
  | some { port := some port, .. } => some port
  | _ => defaultPort? url.scheme

/-! ## The text of an address -/

/-- Numbers of a machine's address in decimal, the most significant byte first. -/
def ipv4Text (address : Nat) : String :=
  String.intercalate "." ([24, 16, 8, 0].map fun shift => toString ((address >>> shift) % 256))

/-- The length of the run of zeros at the front. -/
def zeroRun (pieces : List Nat) : Nat := (pieces.takeWhile (· = 0)).length

/-- The place and length of the first longest run of at least two zeros. -/
def longestZeros (pieces : List Nat) : Option (Nat × Nat) :=
  let runs := (List.range pieces.length).map fun i => (i, zeroRun (pieces.drop i))
  runs.foldl
    (fun best run =>
      if run.2 < 2 then best
      else match best with
        | some (_, length) => if length < run.2 then some run else best
        | none => some run)
    none

/-- A number in base sixteen. -/
def hexText (n : Nat) : String := String.ofList (Nat.toDigits 16 n)

/-- A machine's address of eight numbers; the longest run of zeros is left out. -/
def ipv6Text (pieces : List Nat) : String :=
  let join (part : List Nat) := String.intercalate ":" (part.map hexText)
  match longestZeros pieces with
  | none => join pieces
  | some (start, length) => join (pieces.take start) ++ "::" ++ join (pieces.drop (start + length))

/-- The text of a host. -/
def Host.text : Host → String
  | .domain name => name
  | .ipv4 address => ipv4Text address
  | .ipv6 pieces => "[" ++ ipv6Text pieces ++ "]"

/-- The text of an authority, the port left out when it is the one of the scheme. -/
def Authority.text (a : Authority) : String :=
  let password := match a.password with
    | some password => ":" ++ password
    | none => ""
  let userinfo :=
    if a.username.isEmpty ∧ a.password.isNone then "" else a.username ++ password ++ "@"
  let port := match a.port with
    | some port => ":" ++ toString port
    | none => ""
  userinfo ++ a.host.text ++ port

/-- The text of a path. -/
def Path.text : Path → String
  | .rootless text => text
  | .segments names => String.join (names.map ("/" ++ ·))

/-- The path as it is written; without an authority it must not begin with two
    slashes. -/
def pathText (url : Url) : String :=
  match url.authority, url.path with
  | none, .segments ("" :: name :: names) => "/." ++ (Path.segments ("" :: name :: names)).text
  | _, path => path.text

/-- The text of an address. -/
def text (url : Url) : String :=
  let authority := match url.authority with
    | some a => "//" ++ a.text
    | none => ""
  let query := match url.query with
    | some query => "?" ++ query
    | none => ""
  let fragment := match url.fragment with
    | some fragment => "#" ++ fragment
    | none => ""
  url.scheme ++ ":" ++ authority ++ url.pathText ++ query ++ fragment

/-! ## Queries -/

/-- Blanks at the end of a rootless path are part of it only as long as something
    follows them. -/
def stripRootless (url : Url) : Url :=
  match url.path, url.query, url.fragment with
  | .rootless path, none, none =>
    let kept := (path.toList.reverse.dropWhile (· = ' ')).reverse
    { url with path := .rootless (String.ofList kept) }
  | _, _, _ => url

/-- Replace the query of an address. -/
def withQuery (url : Url) (query : Option String) : Url :=
  stripRootless { url with query := query }

end Url

end GitTransport
