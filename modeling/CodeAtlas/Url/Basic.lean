import CodeAtlas.Url.Host
import CodeAtlas.Text.Case
import CodeAtlas.Text.Quoted
import CodeAtlas.Json.Access

/-!
Addresses taken apart: scheme, authority, path, parameters, query and fragment. Nothing is
decoded; leading control characters and blanks, and tabs and line breaks anywhere, do not count.
An address is refused only for its authority. An address that is written out has plain characters
only: every other byte is written by its number.
-/

namespace CodeAtlas

structure Url where
  scheme : String
  authority : String
  path : String
  parameters : String
  query : String
  fragment : String
deriving DecidableEq, Repr

namespace Url

def isSchemeChar (char : Char) : Bool :=
  char.isAlphanum || char == '+' || char == '-' || char == '.'

/-- The scheme before the first colon and the rest; the scheme is empty where none is written. -/
def cutScheme (text : List Char) : List Char × List Char :=
  let name := text.takeWhile (· ≠ ':')
  match text.dropWhile (· ≠ ':') with
  | _ :: rest =>
    if name.head?.any Char.isAlpha && name.all isSchemeChar then (name.map Char.toLower, rest)
    else ([], text)
  | [] => ([], text)

def cutAuthority : List Char → List Char × List Char
  | '/' :: '/' :: rest =>
    let isEnd (char : Char) : Bool := char == '/' || char == '?' || char == '#'
    (rest.takeWhile (!isEnd ·), rest.dropWhile (!isEnd ·))
  | text => ([], text)

def cutAt (mark : Char) (text : List Char) : List Char × List Char :=
  (text.takeWhile (· ≠ mark), (text.dropWhile (· ≠ mark)).drop 1)

/-- The characters that stand for a text with a delimiter of addresses in it. -/
def disguisedDelimiters : List Nat :=
  [0x2047, 0x2048, 0x2049, 0x2100, 0x2101, 0x2105, 0x2106, 0x2a74, 0xfe13, 0xfe16, 0xfe55, 0xfe56,
    0xfe5f, 0xfe6b, 0xff03, 0xff0f, 0xff1a, 0xff1f, 0xff20]

/-- Whether an authority is acceptable: brackets come in pairs around a host that may stand
there, and no character hides a delimiter. -/
def isAuthority (text : List Char) : Bool :=
  let opens := text.contains '['
  let closes := text.contains ']'
  opens == closes
    && (!opens || isBracketedHost (.ofList (cutAt ']' (cutAt '[' text).2).1))
    && !text.any fun char => disguisedDelimiters.contains char.toNat

def schemesWithParameters : List String :=
  ["", "ftp", "hdl", "prospero", "http", "imap", "https", "shttp", "rtsp", "rtsps", "rtspu", "sip",
    "sips", "mms", "sftp", "tel"]

def cutParameters (path : List Char) : List Char × List Char :=
  let last := (path.reverse.takeWhile (· ≠ '/')).reverse
  let (segment, parameters) := cutAt ';' last
  (path.take (path.length - last.length) ++ segment, parameters)

def visibleChars (text : String) : List Char :=
  (text.toList.dropWhile (·.toNat ≤ 0x20)).filter fun char =>
    char ≠ '\t' && char ≠ '\r' && char ≠ '\n'

def parse (text : String) : Except Fault Url :=
  let (scheme, rest) := cutScheme (visibleChars text)
  let (authority, rest) := cutAuthority rest
  if !isAuthority authority then throw .badValue else
  let (rest, fragment) := cutAt '#' rest
  let (path, query) := cutAt '?' rest
  let scheme := String.ofList scheme
  let (path, parameters) :=
    if schemesWithParameters.contains scheme then cutParameters path else (path, [])
  return {
    scheme
    authority := .ofList authority
    path := .ofList path
    parameters := .ofList parameters
    query := .ofList query
    fragment := .ofList fragment }

/-- The host of the authority, without user, brackets and port, in lower case; a zone keeps its
case. -/
def host? (url : Url) : Option String :=
  let place := match Text.cutLast? url.authority "@" with
    | some (_, place) => place
    | none => url.authority
  let host := match Text.cut? place "[" with
    | some (_, inside) => (cutAt ']' inside.toList).1
    | none => (cutAt ':' place.toList).1
  if host.isEmpty then none
  else
    match Text.cut? (.ofList host) "%" with
    | some (name, zone) => some (Text.lower name ++ "%" ++ zone)
    | none => some (Text.lower (.ofList host))

def segments (url : Url) : List String :=
  Text.split (Text.stripChars url.path ['/']) "/"

/-! ## Written addresses -/

/-- The characters that an address keeps: letters, digits and the marks with a meaning in it. -/
def isKept (byte : UInt8) : Bool :=
  let char := Char.ofNat byte.toNat
  char.isAlphanum || "_.-~:/%#?=@[]!$&'()*+,;".toList.contains char

def quoteByte (byte : UInt8) : List Char :=
  if isKept byte then [Char.ofNat byte.toNat]
  else '%' :: (Text.hexadecimal 2 byte.toNat).map Char.toUpper

def quote (address : String) : String :=
  String.ofList (address.toUTF8.toList.flatMap quoteByte)

end Url

end CodeAtlas
