import CodeAtlas.Json.Basic

/-!
JSON text. A layout says whether every character outside printable ASCII is escaped and how far
the members of a list or object are indented; without indentation a value is one line.
-/

namespace CodeAtlas.Json

structure Layout where
  indent : Option Nat
  ascii : Bool
deriving DecidableEq, Repr

def hexDigit (value : Nat) : Char :=
  if value < 10 then Char.ofNat (48 + value) else Char.ofNat (87 + value)

def escapeUnit (unit : Nat) : List Char :=
  ['\\', 'u', hexDigit (unit / 4096 % 16), hexDigit (unit / 256 % 16),
    hexDigit (unit / 16 % 16), hexDigit (unit % 16)]

/-- A character beyond the sixteen-bit range is written as two units. -/
def escapeCode (code : Nat) : List Char :=
  if code < 65536 then escapeUnit code
  else escapeUnit (55296 + (code - 65536) / 1024) ++ escapeUnit (56320 + (code - 65536) % 1024)

def escapeChar (ascii : Bool) (char : Char) : List Char :=
  match char with
  | '"' => ['\\', '"']
  | '\\' => ['\\', '\\']
  | '\n' => ['\\', 'n']
  | '\r' => ['\\', 'r']
  | '\t' => ['\\', 't']
  | _ =>
    if char.toNat == 8 then ['\\', 'b']
    else if char.toNat == 12 then ['\\', 'f']
    else if char.toNat < 32 || (ascii && char.toNat > 126) then escapeCode char.toNat
    else [char]

def quoted (ascii : Bool) (text : String) : List Char :=
  '"' :: text.toList.flatMap (escapeChar ascii) ++ ['"']

def floatChars (value : Float) : List Char :=
  match Decimal.shape value with
  | .notANumber => "NaN".toList
  | .infinite negative => (if negative then "-Infinity" else "Infinity").toList
  | .finite _ => (Decimal.floatText value).toList

def Layout.lineBreak (layout : Layout) (depth : Nat) : List Char :=
  match layout.indent with
  | none => []
  | some width => '\n' :: List.replicate (width * depth) ' '

def Layout.between (layout : Layout) (depth : Nat) : List Char :=
  match layout.indent with
  | none => [',', ' ']
  | some _ => ',' :: layout.lineBreak depth

mutual

def chars (layout : Layout) (depth : Nat) : Json → List Char
  | .null => "null".toList
  | .bool value => (if value then "true" else "false").toList
  | .int value => (Decimal.intText value).toList
  | .float value => floatChars value
  | .text value => quoted layout.ascii value
  | .list [] => ['[', ']']
  | .list (item :: rest) =>
    '[' :: layout.lineBreak (depth + 1) ++ chars layout (depth + 1) item ++
      itemChars layout (depth + 1) rest ++ layout.lineBreak depth ++ [']']
  | .object [] => ['\x7b', '\x7d']
  | .object ((name, value) :: rest) =>
    '\x7b' :: layout.lineBreak (depth + 1) ++ quoted layout.ascii name ++ [':', ' '] ++
      chars layout (depth + 1) value ++ memberChars layout (depth + 1) rest ++
      layout.lineBreak depth ++ ['\x7d']

def itemChars (layout : Layout) (depth : Nat) : List Json → List Char
  | [] => []
  | item :: rest =>
    layout.between depth ++ chars layout depth item ++ itemChars layout depth rest

def memberChars (layout : Layout) (depth : Nat) : List (String × Json) → List Char
  | [] => []
  | (name, value) :: rest =>
    layout.between depth ++ quoted layout.ascii name ++ [':', ' '] ++
      chars layout depth value ++ memberChars layout depth rest

end

def render (layout : Layout) (value : Json) : String :=
  String.ofList (chars layout 0 value)

/-- One line, all characters outside printable ASCII escaped. -/
def compact : Layout := ⟨none, true⟩

/-- Indented by so many columns, all characters outside printable ASCII escaped. -/
def indented (width : Nat) : Layout := ⟨some width, true⟩

end CodeAtlas.Json
