/-!
# URL references

A reference is a scheme, an authority, a path, a query and a fragment, of which all but the path
may be absent. `Reference.parse` reads one from left to right and reports the index of the first
character that no reference has there, or of the first `%` that no two hexadecimal digits follow.
-/

namespace Stylesheet

/-- Why a text is no absolute URL. An index counts UTF-8 bytes. -/
inductive UrlFault where
  | unexpected (index : Nat)
  | badOctet (index : Nat)
  | missingScheme
deriving DecidableEq, Repr

def UrlFault.message : UrlFault → String
  | .unexpected index => s!"unexpected character at index {index}"
  | .badOctet index => s!"invalid percent-encoded octet at index {index}"
  | .missingScheme => "missing scheme"

/-- The parts of a URL reference, as they are written. -/
structure Reference where
  scheme : Option (List Char)
  authority : Option (List Char)
  path : List Char
  query : Option (List Char)
  fragment : Option (List Char)
deriving DecidableEq, Repr

namespace Reference

/-! ## Character classes -/

def isHexDigit (c : Char) : Bool :=
  c.isDigit || ('A' ≤ c && c ≤ 'F') || ('a' ≤ c && c ≤ 'f')

def isSchemeChar (c : Char) : Bool := c.isAlphanum || "+-.".toList.contains c

def isUnreserved (c : Char) : Bool := c.isAlphanum || "-._~".toList.contains c

def isSubDelim (c : Char) : Bool := "!$&'()*+,;=".toList.contains c

/-- What a registered name may hold, percent-encoded octets apart. -/
def isNameChar (c : Char) : Bool := isUnreserved c || isSubDelim c

/-- What user information may hold. -/
def isUserChar (c : Char) : Bool := isNameChar c || c == ':'

/-- What the first segment of a path without scheme may hold. -/
def isFirstSegmentChar (c : Char) : Bool := isNameChar c || c == '@'

def isPathChar (c : Char) : Bool := isNameChar c || c == ':' || c == '@' || c == '/'

/-- What a query or a fragment may hold. -/
def isQueryChar (c : Char) : Bool := isPathChar c || c == '?'

/-! ## Runs of characters

A text that is still to be read travels with the index at which it stands. Every character passed
is an ASCII character, so the index counts characters and bytes alike. -/

/-- Reads allowed characters and percent-encoded octets as far as they go. -/
def readRun (allowed : Char → Bool) (index : Nat) :
    List Char → Except UrlFault (List Char × List Char)
  | [] => .ok ([], [])
  | '%' :: h :: l :: s =>
    if isHexDigit h && isHexDigit l then do
      let (front, rest) ← readRun allowed (index + 3) s
      return ('%' :: h :: l :: front, rest)
    else .error (.badOctet index)
  | c :: s =>
    if c == '%' then .error (.badOctet index)
    else if allowed c then do
      let (front, rest) ← readRun allowed (index + 1) s
      return (c :: front, rest)
    else .ok ([], c :: s)

/-- The index of the first character that is no digit. -/
def firstNonDigit? (index : Nat) (s : List Char) : Option Nat :=
  let digits := s.takeWhile Char.isDigit
  if digits.length < s.length then some (index + digits.length) else none

/-! ## Authorities -/

/-- A group of an IPv6 address: one to four hexadecimal digits. -/
def isGroup (s : List Char) : Bool := 1 ≤ s.length && s.length ≤ 4 && s.all isHexDigit

/-- A number from 0 to 255 without leading zeros. -/
def isDecimalOctet (s : List Char) : Bool :=
  !s.isEmpty && s.length ≤ 3 && s.all Char.isDigit && (s.length == 1 || s.head? != some '0') &&
    s.foldl (fun n c => 10 * n + (c.toNat - '0'.toNat)) 0 ≤ 255

def splitOn (separator : Char) (s : List Char) : List (List Char) :=
  s.foldr (fun c parts => match parts with
    | part :: parts => if c == separator then [] :: part :: parts else (c :: part) :: parts
    | [] => []) [[]]

def isIPv4 (s : List Char) : Bool :=
  let parts := splitOn '.' s
  parts.length == 4 && parts.all isDecimalOctet

/-- The number of groups that a part of an IPv6 address stands for. The last may be an IPv4
address, which stands for two. -/
def groups? (mayEndInIPv4 : Bool) (s : List Char) : Option Nat :=
  if s.isEmpty then some 0
  else
    let parts := splitOn ':' s
    if parts.all isGroup then some parts.length
    else if mayEndInIPv4 && parts.dropLast.all isGroup && parts.getLast?.any isIPv4 then
      some (parts.length + 1)
    else none

/-- Splits at the first `::`. -/
def splitElision? : List Char → Option (List Char × List Char)
  | ':' :: ':' :: s => some ([], s)
  | c :: s => (splitElision? s).map fun (front, rest) => (c :: front, rest)
  | [] => none

/-- Eight groups, or fewer around one `::`. -/
def isIPv6 (s : List Char) : Bool :=
  match splitElision? s with
  | none => groups? true s == some 8
  | some (front, rest) =>
    match groups? false front, groups? true rest with
    | some m, some n => m + n ≤ 7
    | _, _ => false

/-- An address of a later version: `v`, the version, a point, the address. -/
def isFutureAddress : List Char → Bool
  | c :: s =>
    let version := s.takeWhile isHexDigit
    match s.drop version.length with
    | '.' :: address =>
      (c == 'v' || c == 'V') && !version.isEmpty && !address.isEmpty && address.all isUserChar
    | _ => false
  | [] => false

/-- Reads an address in brackets, if one stands here. -/
def readLiteral? (s : List Char) : Option (List Char × List Char) :=
  match s with
  | '[' :: s =>
    let address := s.takeWhile (· != ']')
    match s.drop address.length with
    | ']' :: rest =>
      if isIPv6 address || isFutureAddress address then some ('[' :: address ++ [']'], rest)
      else none
    | _ => none
  | _ => none

/-- Reads a port, if one stands here: a colon and any number of digits. -/
def readPort (s : List Char) : List Char × List Char :=
  match s with
  | ':' :: s => (':' :: s.takeWhile Char.isDigit, s.dropWhile Char.isDigit)
  | _ => ([], s)

/-- Reads what follows user information: a host and perhaps a port. -/
def readHostPort (index : Nat) (s : List Char) : Except UrlFault (List Char × List Char) := do
  let (host, rest) ← match readLiteral? s with
    | some split => pure split
    | none => readRun isNameChar index s
  return (host ++ (readPort rest).1, (readPort rest).2)

/-- Reads an authority. User information and a host look alike until an `@` ends the former;
without one, all that was read has to be a host and at most one port. -/
def readAuthority (index : Nat) (s : List Char) : Except UrlFault (List Char × List Char) := do
  let (front, rest) ← readRun isUserChar index s
  match rest with
  | '@' :: rest =>
    let (host, rest) ← readHostPort (index + front.length + 1) rest
    return (front ++ '@' :: host, rest)
  | _ =>
    if front.isEmpty then
      match readLiteral? rest with
      | some (host, rest) => return (host ++ (readPort rest).1, (readPort rest).2)
      | none => return ([], rest)
    else
      let name := front.takeWhile (· != ':')
      let behind := front.drop (name.length + 1)
      if behind.contains ':' then
        let last := front.length - 1 - (front.reverse.takeWhile (· != ':')).length
        throw (.unexpected (index + last))
      else
        match firstNonDigit? (index + name.length + 1) behind with
        | some i => throw (.unexpected i)
        | none => return (front, rest)

/-! ## The whole reference -/

/-- Reads a part that its mark announces, if the mark stands here. -/
def readMarked (mark : Char) (index : Nat) (s : List Char) :
    Except UrlFault (Option (List Char) × List Char) :=
  match s with
  | c :: rest =>
    if c == mark then do
      let (part, rest) ← readRun isQueryChar (index + 1) rest
      return (some part, rest)
    else .ok (none, s)
  | [] => .ok (none, [])

/-- Reads a query and a fragment up to the end of the text. -/
def readTail (scheme authority : Option (List Char)) (path : List Char) (index : Nat)
    (s : List Char) : Except UrlFault Reference := do
  let (query, rest) ← readMarked '?' index s
  let behind := index + (s.length - rest.length)
  let (fragment, rest') ← readMarked '#' behind rest
  if rest'.isEmpty then return ⟨scheme, authority, path, query, fragment⟩
  else throw (.unexpected (behind + (rest.length - rest'.length)))

/-- Reads what follows a scheme. A path behind an authority is empty or starts with a slash. -/
def readHierarchy (scheme : Option (List Char)) (index : Nat) (s : List Char) :
    Except UrlFault Reference :=
  match s with
  | '/' :: '/' :: s => do
    let (authority, rest) ← readAuthority (index + 2) s
    let start := index + 2 + authority.length
    let (path, behind) ← readRun isPathChar start rest
    if path.isEmpty || path.head? == some '/' then
      readTail scheme (some authority) path (start + path.length) behind
    else throw (.unexpected start)
  | _ => do
    let (path, rest) ← readRun isPathChar index s
    readTail scheme none path (index + path.length) rest

/-- Reads a reference without scheme. No colon may stand in its first segment, where it would end
a scheme. -/
def readRelative (s : List Char) : Except UrlFault Reference :=
  if "//".toList.isPrefixOf s then readHierarchy none 0 s
  else do
    let (segment, rest) ← readRun isFirstSegmentChar 0 s
    if rest.head? == some ':' then throw (.unexpected segment.length)
    else
      let (path, rest) ← readRun isPathChar segment.length rest
      readTail none none (segment ++ path) (segment.length + path.length) rest

/-- Reads a reference. -/
def parse (s : List Char) : Except UrlFault Reference :=
  let scheme := s.takeWhile isSchemeChar
  match s.drop scheme.length with
  | ':' :: rest =>
    if scheme.head?.any Char.isAlpha then
      readHierarchy (some scheme) (scheme.length + 1) rest
    else .error (.unexpected 0)
  | _ => readRelative s

end Reference

end Stylesheet
