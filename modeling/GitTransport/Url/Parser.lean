/-
Reading addresses, complete ones and ones relative to a base.

  Blanks and control characters around a text and line ends inside it do not
  count.  A text without a scheme is relative: it replaces the last part of the
  base's path, the whole path, or everything behind the scheme, according to the
  slashes that it begins with.  The segments `.` and `..` are resolved while a path
  is read, so that no path leads above the root.
-/

import GitTransport.Url.Host

namespace GitTransport.Url

/-! ## Paths -/

/-- The texts that stand for the same directory. -/
def isSingleDot (piece : List Char) : Bool :=
  [".", "%2e"].contains (Text.lower (String.ofList piece))

/-- The texts that stand for the directory above. -/
def isDoubleDot (piece : List Char) : Bool :=
  ["..", "%2e.", ".%2e", "%2e%2e"].contains (Text.lower (String.ofList piece))

/-- A letter and a colon or a bar. -/
def isDriveLetter : List Char → Bool
  | [letter, mark] => letter.isAlpha && (mark = ':' || mark = '|')
  | _ => false

/-- Leave out the last segment; the drive of a file stays. -/
def shorten (isFile : Bool) (names : List String) : List String :=
  match names with
  | [drive] =>
    if isFile ∧ isDriveLetter drive.toList ∧ drive.toList.getLast? = some ':' then names else []
  | _ => names.dropLast

/-- Add one piece of a path to the segments before it.  A piece of dots at the
    very end still leaves a slash behind. -/
def addPiece (isFile : Bool) (names : List String) (piece : List Char) (isLast : Bool) :
    List String :=
  let slash : List String := if isLast then [""] else []
  if isDoubleDot piece then shorten isFile names ++ slash
  else if isSingleDot piece then names ++ slash
  else if isFile ∧ names.isEmpty ∧ isDriveLetter piece then
    [String.ofList (piece.take 1 ++ [':'])]
  else names ++ [String.ofList (percentEncode inPath piece)]

/-- Add the pieces of a path one after the other. -/
def addPieces (isFile : Bool) (names : List String) : List (List Char) → List String
  | [] => names
  | [piece] => addPiece isFile names piece true
  | piece :: rest => addPieces isFile (addPiece isFile names piece false) rest

/-- Whether a character separates the segments of a path. -/
def isSlash (scheme : String) (c : Char) : Bool := c = '/' || (isSpecial scheme && c = '\\')

/-- The segments of a path that begins with the segments `names`.  A file has no
    empty segments in front. -/
def pathFrom (scheme : String) (names : List String) (text : List Char) : Path :=
  let names := addPieces (scheme = "file") names (Text.splitAt (isSlash scheme) text)
  if scheme = "file" then
    let kept := names.dropWhile String.isEmpty
    .segments (if kept.isEmpty then [""] else kept)
  else .segments names

/-! ## Queries and fragments -/

/-- Whether a character ends the path. -/
def endsPath (c : Char) : Bool := c = '?' || c = '#'

/-- Read what follows the path. -/
def withTail (url : Url) (text : List Char) : Url :=
  let encodes := if isSpecial url.scheme then inSpecialQuery else inQuery
  let query? : Option String :=
    match text with
    | '?' :: rest => some (String.ofList (percentEncode encodes (rest.takeWhile (· ≠ '#'))))
    | _ => none
  let fragment? : Option String :=
    match text.dropWhile (· ≠ '#') with
    | _ :: rest => some (String.ofList (percentEncode inFragment rest))
    | [] => none
  { url with query := query?, fragment := fragment? }

/-- The address with this authority and the path, query and fragment of a text
    that begins at the path. -/
def withPathAndTail (scheme : String) (authority : Option Authority) (names : List String)
    (text : List Char) : Url :=
  withTail ⟨scheme, authority, pathFrom scheme names (text.takeWhile (!endsPath ·)), none, none⟩
    (text.dropWhile (!endsPath ·))

/-! ## Authorities -/

/-- Whether a character ends the authority. -/
def endsAuthority (scheme : String) (c : Char) : Bool := isSlash scheme c || endsPath c

/-- The user name and password before the last at sign.  An empty password is
    none. -/
def readUserinfo (userinfo : List Char) : String × Option String :=
  let encode (part : List Char) := String.ofList (percentEncode inUserinfo part)
  let password := (userinfo.dropWhile (· ≠ ':')).drop 1
  (encode (userinfo.takeWhile (· ≠ ':')),
    if password.isEmpty then none else some (encode password))

/-- The text of the host: up to the colon of the port, which does not count inside
    brackets. -/
def takeHost (inBrackets : Bool) : List Char → List Char
  | [] => []
  | c :: rest =>
    if c = ':' ∧ !inBrackets then []
    else c :: takeHost (if c = '[' then true else if c = ']' then false else inBrackets) rest

/-- The port behind the host, none for the one of the scheme. -/
def readPort (scheme : String) (digits : List Char) : Except Fault (Option Nat) :=
  if digits.isEmpty then .ok none
  else match Text.number? 10 digits with
    | none => .error .invalidPort
    | some port =>
      if 65535 < port then .error .invalidPort
      else .ok (if defaultPort? scheme = some port then none else some port)

/-- Read a text that begins behind the two slashes. -/
def readAuthority (scheme : String) (text : List Char) : Except Fault Url := do
  let inside := text.takeWhile (!endsAuthority scheme ·)
  let tail := text.dropWhile (!endsAuthority scheme ·)
  let afterAt := (inside.reverse.takeWhile (· ≠ '@')).reverse
  let userinfo := inside.take (inside.length - afterAt.length - 1)
  if inside.contains '@' ∧ userinfo.isEmpty ∧ afterAt.isEmpty ∧ !tail.isEmpty then
    throw .emptyHost
  let (username, password) := readUserinfo userinfo
  let hostText := takeHost false afterAt
  if isSpecial scheme ∧ hostText.isEmpty then throw .emptyHost
  let host ← if isSpecial scheme then specialHost hostText else plainHost hostText
  let portText := afterAt.drop hostText.length
  if host = .domain "" ∧ !portText.isEmpty then throw .emptyHost
  let port ← readPort scheme (portText.drop 1)
  if host = .domain "" ∧ (!username.isEmpty ∨ password.isSome) then throw .emptyHost
  let authority : Authority := ⟨username, password, host, port⟩
  match tail with
  | c :: rest =>
    if endsPath c then
      if isSpecial scheme then return withPathAndTail scheme (some authority) [] tail
      else return withTail ⟨scheme, some authority, .segments [], none, none⟩ tail
    else return withPathAndTail scheme (some authority) [] rest
  | [] =>
    return ⟨scheme, some authority, .segments (if isSpecial scheme then [""] else []), none, none⟩

/-! ## Files -/

/-- Read the part of a file's address behind the scheme. -/
def readFile (text : List Char) : Except Fault Url := do
  let isSlash := isSlash "file"
  let noHost : Authority := ⟨"", none, .domain "", none⟩
  match text with
  | a :: b :: rest =>
    if isSlash a ∧ isSlash b then
      let inside := rest.takeWhile (!endsAuthority "file" ·)
      let tail := rest.dropWhile (!endsAuthority "file" ·)
      if isDriveLetter inside then return withPathAndTail "file" (some noHost) [] rest
      let host ← if inside.isEmpty then pure (.domain "") else specialHost inside
      let host := if host = .domain "localhost" then .domain "" else host
      let path := match tail with
        | c :: rest => if isSlash c then rest else tail
        | [] => []
      return withPathAndTail "file" (some { noHost with host := host }) [] path
    else return withPathAndTail "file" (some noHost) [] (if isSlash a then b :: rest else text)
  | _ => return withPathAndTail "file" (some noHost) [] text

/-! ## Complete and relative addresses -/

/-- The scheme in front of a text, its letters small, and what follows the colon. -/
def splitScheme? (text : List Char) : Option (String × List Char) :=
  let belongs (c : Char) : Bool := c.isAlphanum || c = '+' || c = '-' || c = '.'
  match text, text.dropWhile belongs with
  | c :: _, ':' :: rest =>
    if c.isAlpha then some (Text.lower (String.ofList (text.takeWhile belongs)), rest) else none
  | _, _ => none

/-- Replace the fragment of the base. -/
def withFragment (base : Url) (text : List Char) : Url :=
  { base with fragment := some (String.ofList (percentEncode inFragment text)) }

/-- Read a text without a scheme, relative to a base whose path has segments. -/
def readRelative (base : Url) (names : List String) (text : List Char) : Except Fault Url :=
  match text with
  | [] => .ok { base with fragment := none }
  | '#' :: rest => .ok (withFragment base rest)
  | '?' :: _ => .ok (withTail base text)
  | c :: rest =>
    let isSlash := isSlash base.scheme
    if isSlash c then
      match rest with
      | d :: rest' =>
        if isSlash d then
          -- after two plain slashes nothing is skipped any more
          readAuthority base.scheme
            (if c = '/' ∧ d = '/' then rest' else rest'.dropWhile isSlash)
        else .ok (withPathAndTail base.scheme base.authority [] rest)
      | [] => .ok (withPathAndTail base.scheme base.authority [] rest)
    else .ok (withPathAndTail base.scheme base.authority names.dropLast text)

/-- Read a text behind its scheme. -/
def readWithScheme (base : Option Url) (scheme : String) (text : List Char) : Except Fault Url :=
  if scheme = "file" then readFile text
  else if isSpecial scheme then
    let slashes := (text.takeWhile (isSlash scheme)).length
    match base with
    | some { path := .segments names, scheme := baseScheme, authority, query, fragment } =>
      if slashes < 2 ∧ baseScheme = scheme then
        readRelative ⟨scheme, authority, .segments names, query, fragment⟩ names text
      else readAuthority scheme (text.dropWhile (isSlash scheme))
    | _ => readAuthority scheme (text.dropWhile (isSlash scheme))
  else
    match text with
    | '/' :: '/' :: rest => readAuthority scheme rest
    | '/' :: rest => .ok (withPathAndTail scheme none [] rest)
    | _ =>
      let path := String.ofList (percentEncode inControls (text.takeWhile (!endsPath ·)))
      .ok (withTail ⟨scheme, none, .rootless path, none, none⟩ (text.dropWhile (!endsPath ·)))

/-- The characters of a text that count. -/
def significant (text : String) : List Char :=
  let isEdge (c : Char) : Bool := c.toNat ≤ 0x20
  let isLineEnd (c : Char) : Bool := c = '\t' || c = '\n' || c = '\r'
  let inner := (text.toList.dropWhile isEdge).reverse.dropWhile isEdge
  inner.reverse.filter (!isLineEnd ·)

/-- The address that a text denotes, seen from a base. -/
def read (base : Option Url) (text : String) : Except Fault Url :=
  let chars := significant text
  match splitScheme? chars with
  | some (scheme, rest) => readWithScheme base scheme rest
  | none =>
    match base with
    | none => .error .relativeWithoutBase
    | some url =>
      match url.path, chars with
      | .segments names, _ => readRelative url names chars
      | .rootless _, '#' :: rest => .ok (withFragment url rest)
      | .rootless _, _ => .error .relativeToRootless

/-- The address that a text denotes. -/
def parse (text : String) : Except Fault Url := read none text

/-- The address that a text denotes at a base. -/
def join (base : Url) (text : String) : Except Fault Url := read (some base) text

end GitTransport.Url
