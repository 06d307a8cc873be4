import Stylesheet.Source.UrlGrammar
import Stylesheet.Text.Utf8

/-!
# The URLs of source files

A source file is known by an absolute URL, which is a URL reference with a scheme. Files on disk
have URLs with the scheme `file`, made from and turned back into paths by percent-encoding.
-/

namespace Stylesheet

/-- Reads a reference that has a scheme. -/
def Reference.parseAbsolute (text : String) : Except UrlFault Reference := do
  let reference ← Reference.parse text.toList
  if reference.scheme.isSome then return reference else throw .missingScheme

/-- An absolute URL. -/
structure Url where
  text : String
  isAbsolute : (Reference.parseAbsolute text).isOk = true
deriving DecidableEq

instance : ToString Url := ⟨Url.text⟩

namespace Url

/-- Accepts absolute URLs only, and those as they are written. -/
def parse (text : String) : Except UrlFault Url :=
  match h : Reference.parseAbsolute text with
  | .ok _ => .ok ⟨text, by rw [h]; rfl⟩
  | .error fault => .error fault

/-! ## Percent-encoding -/

/-- The digits of an octet are written in upper case. -/
def hexDigit (n : Nat) : Char := Char.ofNat (if n < 10 then 0x30 + n else 0x37 + n)

def hexValue? (c : Char) : Option Nat :=
  if c.isDigit then some (c.toNat - 0x30)
  else if 'A' ≤ c ∧ c ≤ 'F' then some (c.toNat - 0x37)
  else if 'a' ≤ c ∧ c ≤ 'f' then some (c.toNat - 0x57)
  else none

/-- Unreserved characters and slashes stand for themselves in a path, other bytes are octets. -/
def encodeByte (b : UInt8) : List Char :=
  let c := Char.ofNat b.toNat
  if Reference.isUnreserved c || c == '/' then [c]
  else ['%', hexDigit (b.toNat / 16), hexDigit (b.toNat % 16)]

/-- The bytes of a text whose octets are decoded. -/
def decodeBytes : List Char → List UInt8
  | [] => []
  | '%' :: h :: l :: s =>
    match hexValue? h, hexValue? l with
    | some high, some low => UInt8.ofNat (16 * high + low) :: decodeBytes s
    | _, _ => String.utf8EncodeChar '%' ++ decodeBytes (h :: l :: s)
  | c :: s => String.utf8EncodeChar c ++ decodeBytes s

/-! ## Paths -/

/-- What precedes the path in the URL of a file without a host. -/
def fileMark : String := "file://"

/-- The text of the URL of a path. Malformed bytes of the path are replaced first, and a path that
is not absolute is taken from the root. -/
def pathText (path : List UInt8) : String :=
  let encoded := (Text.Utf8.encode (Text.Utf8.decodeLossy path)).flatMap encodeByte
  fileMark ++ String.ofList (if encoded.head? = some '/' then encoded else '/' :: encoded)

/-- The URL of a path, which is any sequence of bytes. -/
def ofPath (path : List UInt8) : Except UrlFault Url := parse (pathText path)

/-- What follows a mark at the front of a text. -/
def stripFront? (mark s : List Char) : Option (List Char) :=
  if mark.isPrefixOf s then some (s.drop mark.length) else none

/-- The path of a URL of a file, which starts at the first slash behind the mark. -/
def toPath? (url : Url) : Option String := do
  let rest ← stripFront? fileMark.toList url.text.toList
  match rest.dropWhile (· != '/') with
  | [] => none
  | path => some (Text.Utf8.decodeLossy (decodeBytes path))

/-- Whether the scheme is `file`, in lower case. -/
def isFile (url : Url) : Bool := "file:".toList.isPrefixOf url.text.toList

end Url

end Stylesheet
