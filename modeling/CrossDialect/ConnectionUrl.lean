import CrossDialect.Dialect.Names
import CrossDialect.Text.Pieces

/-!
Connection URLs name their dialect by the scheme. The rest of the URL is only
checked for its authority: user, host and port.
-/

namespace CrossDialect.ConnectionUrl

open Text

/-- Surrounding control characters and spaces are dropped, tabs and line ends
everywhere. -/
def clean (s : List Char) : List Char :=
  let outer := (((s.dropWhile (·.toNat ≤ 0x20)).reverse).dropWhile (·.toNat ≤ 0x20)).reverse
  outer.filter fun c => !(c == '\t' || c == '\n' || c == '\r')

def isSchemeChar (c : Char) : Bool :=
  c.isAlphanum || c == '+' || c == '-' || c == '.'

def scheme? (s : List Char) : Option (List Char × List Char) :=
  match s.head?, s.dropWhile isSchemeChar with
  | some c, ':' :: rest =>
    if c.isAlpha then some (lower (s.takeWhile isSchemeChar), rest) else none
  | _, _ => none

/-- The kinds of scheme. Special ones need a host and take a backslash for a slash. -/
inductive SchemeKind where
  | file
  | special
  | plain
  deriving DecidableEq

def kindOf (scheme : List Char) : SchemeKind :=
  if scheme = "file".toList then .file
  else if ["http", "https", "ws", "wss", "ftp"].any (·.toList == scheme) then .special
  else .plain

def endsAuthority (kind : SchemeKind) (c : Char) : Bool :=
  c == '/' || c == '?' || c == '#' || (kind != .plain && c == '\\')

def lastAt : List Char → Option (List Char × List Char)
  | [] => none
  | c :: s =>
    match lastAt s with
    | some (user, rest) => some (c :: user, rest)
    | none => if c = '@' then some ([], s) else none

/-- The characters of a host up to the colon before its port. Between brackets a colon
does not count. -/
def splitHost (bracketed : Bool) : List Char → List Char × List Char
  | [] => ([], [])
  | c :: s =>
    if c = ':' && !bracketed then ([], c :: s)
    else
      let bracketed := if c = '[' then true else if c = ']' then false else bracketed
      let (host, rest) := splitHost bracketed s
      (c :: host, rest)

def isOctet (s : List Char) : Bool :=
  isNumeral s && s.length ≤ 3 && digitsValue s ≤ 255 && (s.length == 1 || s.head? != some '0')

def isIpv4 (s : List Char) : Bool :=
  let parts := pieces '.' s
  parts.length == 4 && parts.all isOctet

def isGroup (s : List Char) : Bool :=
  !s.isEmpty && s.length ≤ 4 && s.all isHexDigit

/-- The number of sixteen bit words that groups stand for, if they are well formed. The
last one may be an IPv4 address, which takes two. -/
def countGroups : List (List Char) → Option Nat
  | [] => some 0
  | [g] => if isGroup g then some 1 else if isIpv4 g then some 2 else none
  | g :: gs => if isGroup g then (countGroups gs).map (· + 1) else none

def splitCompression : List Char → Option (List Char × List Char)
  | ':' :: ':' :: s => some ([], s)
  | c :: s => (splitCompression s).map fun (before, behind) => (c :: before, behind)
  | [] => none

def groupsOf (s : List Char) : List (List Char) :=
  if s.isEmpty then [] else pieces ':' s

/-- Eight words, or fewer with one double colon for the words left out. -/
def isIpv6 (s : List Char) : Bool :=
  match splitCompression s with
  | none => countGroups (groupsOf s) == some 8
  | some (before, behind) =>
    before.all (· != '.') &&
    match countGroups (groupsOf before), countGroups (groupsOf behind) with
    | some m, some n => m + n ≤ 7
    | _, _ => false

def isForbiddenInHost (c : Char) : Bool :=
  c == '\x00' || "\t\n\r #/:<>?@[\\]^|".toList.contains c

/-- Domains also refuse control characters and a percent sign that encodes nothing. -/
def isForbiddenInDomain (c : Char) : Bool :=
  c.toNat ≤ 0x20 || c.toNat == 0x7f || isForbiddenInHost c

def checkHost (kind : SchemeKind) (host : List Char) : Except UrlFault Unit :=
  if host.head? = some '[' then
    if host.getLast? = some ']' && isIpv6 (host.drop 1).dropLast then .ok () else .error .badIpv6
  else if kind = .plain then
    if host.any isForbiddenInHost then .error .badHostCharacter else .ok ()
  else if host.any isForbiddenInDomain then .error .badDomain
  else .ok ()

def checkPort (port : List Char) : Except UrlFault Unit :=
  let digits := port.takeWhile (· != '\\')
  if digits.all Char.isDigit && digitsValue digits ≤ 65535 then .ok () else .error .badPort

def checkAuthority (kind : SchemeKind) (s : List Char) : Except UrlFault Unit := do
  let authority := s.takeWhile (!endsAuthority kind ·)
  let (user, hostAndPort) := (lastAt authority).getD ([], authority)
  let named := !user.isEmpty && user != [':']
  if (lastAt authority).isSome && user.isEmpty && hostAndPort.isEmpty
      && (s.drop authority.length).length > 0 then
    throw .emptyHost
  let (host, port) := splitHost false hostAndPort
  if kind = .special && host.isEmpty then throw .emptyHost
  checkHost kind host
  if host.isEmpty && !port.isEmpty then throw .emptyHost
  checkPort (port.drop 1)
  if host.isEmpty && named then throw .emptyHost

/-- The host of a file URL, up to the next slash. A drive letter is no host. -/
def checkFileHost (s : List Char) : Except UrlFault Unit :=
  let host := s.takeWhile (!endsAuthority .file ·)
  match host with
  | [drive, mark] =>
    if drive.isAlpha && (mark == ':' || mark == '|') then .ok () else checkHost .file host
  | host => checkHost .file host

def check (kind : SchemeKind) (rest : List Char) : Except UrlFault Unit :=
  match kind with
  | .plain =>
    match rest with
    | '/' :: '/' :: authority => checkAuthority .plain authority
    | _ => .ok ()
  | .special => checkAuthority .special (rest.dropWhile fun c => c == '/' || c == '\\')
  | .file =>
    match rest with
    | a :: b :: host =>
      if (a == '/' || a == '\\') && (b == '/' || b == '\\') then checkFileHost host else .ok ()
    | _ => .ok ()

def schemeOf (url : String) : Except UrlFault String :=
  match scheme? (clean url.toList) with
  | none => .error .noScheme
  | some (scheme, rest) => (check (kindOf scheme) rest).map fun _ => String.ofList scheme

end CrossDialect.ConnectionUrl

namespace CrossDialect.Dialect

def ofUrl (url : String) : Except Error Dialect :=
  match ConnectionUrl.schemeOf url with
  | .ok scheme => ofName scheme
  | .error fault => .error (.invalidUrl url fault)

end CrossDialect.Dialect
