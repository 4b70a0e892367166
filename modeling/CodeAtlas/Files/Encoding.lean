import CodeAtlas.Disk.Basic
import CodeAtlas.Text.Case

/-!
Encodings of texts in files. A file holds a text wherever its bytes are one in the usual encoding;
the other encodings go through the bytes.
-/

namespace CodeAtlas

inductive Encoding where
  | utf8
  | ascii
  | latin1
deriving DecidableEq, Repr

namespace Encoding

def ofName? (name : String) : Option Encoding :=
  match Text.lower name with
  | "utf-8" | "utf8" | "utf_8" => some .utf8
  | "ascii" | "us-ascii" => some .ascii
  | "latin-1" | "latin1" | "latin_1" | "iso-8859-1" | "l1" => some .latin1
  | _ => none

def narrow? (limit : Nat) (text : String) : Option (List UInt8) :=
  text.toList.mapM fun char => if char.toNat < limit then some (.ofNat char.toNat) else none

def textOf? (bytes : List UInt8) : Option String := String.fromUTF8? ⟨bytes.toArray⟩

def decode? (encoding : Encoding) (bytes : List UInt8) : Option String :=
  match encoding with
  | .utf8 => textOf? bytes
  | .ascii =>
    if bytes.all (· < 128) then some (.ofList (bytes.map fun byte => .ofNat byte.toNat)) else none
  | .latin1 => some (.ofList (bytes.map fun byte => .ofNat byte.toNat))

/-- How many bytes belong to a character after its first one, and the range of the second one. -/
def following (first : UInt8) : Nat × UInt8 × UInt8 :=
  if first < 0xc2 then (0, 0, 0)
  else if first < 0xe0 then (1, 0x80, 0xbf)
  else if first < 0xf0 then
    (2, if first == 0xe0 then 0xa0 else 0x80, if first == 0xed then 0x9f else 0xbf)
  else if first < 0xf5 then
    (3, if first == 0xf0 then 0x90 else 0x80, if first == 0xf4 then 0x8f else 0xbf)
  else (0, 0, 0)

def fitting : Nat × UInt8 × UInt8 → List UInt8 → Nat
  | (count + 1, low, high), byte :: rest =>
    if low ≤ byte && byte ≤ high then fitting (count, 0x80, 0xbf) rest + 1 else 0
  | _, _ => 0

/-- The text of some bytes with one replacement character for each start of a character that does
not go on as it should. -/
def replacing : List UInt8 → List Char
  | [] => []
  | first :: rest =>
    let fit := fitting (following first) rest
    (textOf? (first :: rest.take fit)).elim ['\ufffd'] String.toList ++ replacing (rest.drop fit)
  termination_by bytes => bytes.length

end Encoding

namespace FileTree

def ofBytes (bytes : List UInt8) : FileTree :=
  match Encoding.textOf? bytes with
  | some text => .file text
  | none => .bytes bytes

def ofText? (encoding : Encoding) (text : String) : Option FileTree :=
  match encoding with
  | .utf8 => some (.file text)
  | .ascii => (Encoding.narrow? 128 text).map ofBytes
  | .latin1 => (Encoding.narrow? 256 text).map ofBytes

def toBytes : FileTree → List UInt8
  | .file text => text.toUTF8.toList
  | .bytes content => content
  | _ => []

end FileTree

end CodeAtlas
