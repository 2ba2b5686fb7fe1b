import FailurePipeline.Network.Address
import FailurePipeline.Text.Percent

/-!
# Storage URLs

`Url.parse` reads the parts of a URL that say where a store is: scheme, user, host and path.  Tabs and line
ends are ignored, and so are blanks at both ends.  In the path the segments `.` and `..` are resolved, also
where a dot is written `%2e`.
-/

namespace FailurePipeline

inductive UrlFault where
  | relative
  | emptyHost
  | invalidPort
  | invalidIpv4
  | invalidIpv6
  | invalidDomain
  | invalidHostCharacter
  deriving Repr, DecidableEq, Inhabited

def UrlFault.message : UrlFault → String
  | .relative => "relative URL without a base"
  | .emptyHost => "empty host"
  | .invalidPort => "invalid port number"
  | .invalidIpv4 => "invalid IPv4 address"
  | .invalidIpv6 => "invalid IPv6 address"
  | .invalidDomain => "invalid international domain name"
  | .invalidHostCharacter => "invalid domain character"

structure Url where
  scheme : String
  user : String
  /-- The host, unless it is empty. -/
  host : Option String
  /-- The path with its dot segments resolved, before percent decoding. -/
  path : List Char
  deriving Repr, DecidableEq, Inhabited

namespace Url

/-- What a URL says before the path that it ends in: scheme, user and host, and where its own path begins
otherwise, that beginning. -/
def before (u : Url) (path : List Char) : String :=
  u.scheme ++ "://" ++ u.user ++ "@" ++ u.host.getD "" ++
    String.ofList (u.path.take (u.path.length - path.length))

/-- Schemes whose URLs have a host and take a backslash for a slash. -/
def isSpecial (scheme : String) : Bool := ["http", "https", "ws", "wss", "ftp", "file"].contains scheme

/-- A text without tabs and line ends, and without control characters and blanks at both ends. -/
def clean (text : List Char) : List Char :=
  let trimmed := ((text.dropWhile (· ≤ ' ')).reverse.dropWhile (· ≤ ' ')).reverse
  trimmed.filter fun c => c != '\t' && c != '\n' && c != '\r'

def isSchemeChar (c : Char) : Bool := c.isAlphanum || c == '+' || c == '-' || c == '.'

/-- The scheme in small letters, and what follows its colon. -/
def scheme? (text : List Char) : Option (String × List Char) :=
  match text.dropWhile isSchemeChar, text.head? with
  | ':' :: rest, some c =>
    if c.isAlpha then some (String.ofList ((text.takeWhile isSchemeChar).map Char.toLower), rest) else none
  | _, _ => none

/-- Whether a character ends the part of a URL that names the host. -/
def endsHost (special : Bool) (c : Char) : Bool := c == '/' || c == '?' || c == '#' || special && c == '\\'

/-- The user in front of the last `@`, and the host after it. -/
def splitUser (authority : List Char) : Except UrlFault (List Char × List Char) :=
  if authority.contains '@' then
    let reversed := authority.reverse
    let host := (reversed.takeWhile (· != '@')).reverse
    let user := (reversed.dropWhile (· != '@')).tail.reverse
    if host.isEmpty then .error .emptyHost else .ok (user.takeWhile (· != ':'), host)
  else .ok ([], authority)

/-- The host, and the port with its colon.  A colon in brackets does not end the host. -/
def splitPort : (bracketed : Bool) → List Char → List Char × List Char
  | _, [] => ([], [])
  | bracketed, c :: rest =>
    if c == ':' && !bracketed then ([], c :: rest)
    else
      let (host, port) := splitPort (c == '[' || c != ']' && bracketed) rest
      (c :: host, port)

/-- A port is empty or a number below 65536; a backslash ends it. -/
def checkPort (port : List Char) : Except UrlFault Unit :=
  let digits := port.tail.takeWhile (· != '\\')
  if digits.isEmpty || Network.isNumberBelow 65536 digits then .ok () else .error .invalidPort

def isForbiddenInHost (c : Char) : Bool :=
  c == '\x00' || " #/:<>?@[\\]^|".toList.contains c

/-- Characters that no registered name may have, once percent encoding is undone. -/
def isForbiddenInDomain (c : Char) : Bool := c < ' ' || c == '\x7f' || c == '%' || isForbiddenInHost c

/-- Checks a host that is not empty.  Where the scheme is special, percent encoding is undone and letters become
small. -/
def readHost (special : Bool) (host : List Char) : Except UrlFault String :=
  if host.head? = some '[' then
    if host.getLast? = some ']' ∧ 2 ≤ host.length ∧ Network.isIpv6 host.tail.dropLast then
      .ok (String.ofList host)
    else .error .invalidIpv6
  else if special then
    match Utf8.decode? (Percent.decode (Utf8.encodeChars host)) with
    | some text =>
      let domain := text.toList.map Char.toLower
      if domain.any isForbiddenInDomain then .error .invalidDomain
      else if Network.looksLikeIpv4 domain && !Network.isIpv4Host domain then .error .invalidIpv4
      else .ok (String.ofList domain)
    | none => .error .invalidDomain
  else if host.any isForbiddenInHost then .error .invalidHostCharacter
  else .ok (String.ofList host)

/-- User and host of the part between two slashes and the path. -/
def readAuthority (scheme : String) (authority : List Char) : Except UrlFault (String × Option String) := do
  if scheme = "file" then
    if authority.isEmpty then .ok ("", none)
    else
      let host ← readHost true authority
      .ok ("", if host == "localhost" then none else some host)
  else
    let (user, rest) ← splitUser authority
    let (host, port) := splitPort false rest
    if host.isEmpty then
      if isSpecial scheme || !port.isEmpty || !user.isEmpty then .error .emptyHost else .ok ("", none)
    else
      let name ← readHost (isSpecial scheme) host
      checkPort port
      .ok (String.ofList user, some name)

/-- A dot, which may be percent-encoded, at the beginning of a segment; the rest of the segment. -/
def dot? : List Char → Option (List Char)
  | '.' :: rest => some rest
  | '%' :: '2' :: e :: rest => if e == 'e' || e == 'E' then some rest else none
  | _ => none

def isDot (segment : List Char) : Bool := dot? segment == some []

def isDoubleDot (segment : List Char) : Bool := (dot? segment).any isDot

/-- Resolves dot segments, given the segments kept so far in reverse.  One at the end leaves an empty segment.
-/
def resolve : (kept : List (List Char)) → List (List Char) → List (List Char)
  | kept, [] => kept.reverse
  | kept, [last] =>
    if isDoubleDot last then ([] :: kept.tail).reverse
    else if isDot last then ([] :: kept).reverse
    else (last :: kept).reverse
  | kept, s :: rest =>
    if isDoubleDot s then resolve kept.tail rest
    else if isDot s then resolve kept rest
    else resolve (s :: kept) rest

/-- The path at the beginning of what follows the host. -/
def readPath (special : Bool) (text : List Char) : List Char :=
  let text := text.takeWhile fun c => c != '?' && c != '#'
  let text := if special then text.map fun c => if c == '\\' then '/' else c else text
  match text with
  | '/' :: rest => (resolve [] (rest.splitOnP (· == '/'))).flatMap ('/' :: ·)
  | other => other

def parse (text : String) : Except UrlFault Url :=
  match scheme? (clean text.toList) with
  | none => .error .relative
  | some (scheme, rest) =>
    let special := isSpecial scheme
    match rest with
    | '/' :: '/' :: rest =>
      match readAuthority scheme (rest.takeWhile (!endsHost special ·)) with
      | .error e => .error e
      | .ok (user, host) =>
        .ok ⟨scheme, user, host, readPath special (rest.dropWhile (!endsHost special ·))⟩
    | _ => .ok ⟨scheme, "", none, readPath special rest⟩

end Url

end FailurePipeline
