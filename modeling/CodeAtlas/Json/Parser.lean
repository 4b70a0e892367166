import CodeAtlas.Json.Basic

/-!
Reading JSON text. Beside the standard grammar the words NaN, Infinity and -Infinity are numbers;
of two members with one name the later value stands in the earlier place.
-/

namespace CodeAtlas.Json

namespace Parser

def isSpace (char : Char) : Bool :=
  char == ' ' || char == '\t' || char == '\n' || char == '\r'

def skipSpace (input : List Char) : List Char :=
  input.dropWhile isSpace

def isDigit (char : Char) : Bool :=
  '0' ≤ char && char ≤ '9'

def digitsValue (digits : List Char) : Nat :=
  digits.foldl (fun value digit => value * 10 + (digit.toNat - 48)) 0

def hexValue? (char : Char) : Option Nat :=
  if '0' ≤ char && char ≤ '9' then some (char.toNat - 48)
  else if 'a' ≤ char && char ≤ 'f' then some (char.toNat - 87)
  else if 'A' ≤ char && char ≤ 'F' then some (char.toNat - 55)
  else none

def unit? (first second third fourth : Char) : Option Nat := do
  let first ← hexValue? first
  let second ← hexValue? second
  let third ← hexValue? third
  let fourth ← hexValue? fourth
  return ((first * 16 + second) * 16 + third) * 16 + fourth

def simpleEscape? : Char → Option Char
  | '"' => some '"'
  | '\\' => some '\\'
  | '/' => some '/'
  | 'b' => some (Char.ofNat 8)
  | 'f' => some (Char.ofNat 12)
  | 'n' => some '\n'
  | 'r' => some '\r'
  | 't' => some '\t'
  | _ => none

def lowUnit? : List Char → Option (Nat × List Char)
  | '\\' :: 'u' :: first :: second :: third :: fourth :: rest => do
    let unit ← unit? first second third fourth
    if 56320 ≤ unit && unit ≤ 57343 then some (unit, rest) else none
  | _ => none

/-- The characters up to the closing quote, read onto those before them, nearest first. Each step
removes at least one character, so the length of the text is fuel enough. -/
def stringFrom : Nat → List Char → List Char → Option (String × List Char)
  | 0, _, _ => none
  | _ + 1, _, [] => none
  | fuel + 1, before, char :: rest =>
    if char == '"' then some (String.ofList before.reverse, rest)
    else if char == '\\' then
      match rest with
      | 'u' :: first :: second :: third :: fourth :: rest =>
        match unit? first second third fourth with
        | none => none
        | some unit =>
          if 55296 ≤ unit && unit ≤ 56319 then
            match lowUnit? rest with
            | some (low, rest) =>
              let code := 65536 + (unit - 55296) * 1024 + (low - 56320)
              stringFrom fuel (Char.ofNat code :: before) rest
            | none => stringFrom fuel (Char.ofNat 65533 :: before) rest
          else if 56320 ≤ unit && unit ≤ 57343 then
            stringFrom fuel (Char.ofNat 65533 :: before) rest
          else stringFrom fuel (Char.ofNat unit :: before) rest
      | letter :: rest =>
        match simpleEscape? letter with
        | some image => stringFrom fuel (image :: before) rest
        | none => none
      | [] => none
    else if char.toNat < 32 then none
    else stringFrom fuel (char :: before) rest

def string? (input : List Char) : Option (String × List Char) :=
  stringFrom (input.length + 1) [] input

def wholeDigits : List Char → List Char × List Char
  | '0' :: rest => (['0'], rest)
  | input => (input.takeWhile isDigit, input.dropWhile isDigit)

/-- A point counts only before a digit. -/
def fractionDigits : List Char → Option (List Char) × List Char
  | '.' :: rest =>
    let digits := rest.takeWhile isDigit
    if digits.isEmpty then (none, '.' :: rest) else (some digits, rest.dropWhile isDigit)
  | input => (none, input)

def exponentDigits (input : List Char) : Option Int × List Char :=
  match input with
  | mark :: rest =>
    if mark == 'e' || mark == 'E' then
      let (negative, digitsText) :=
        match rest with
        | '-' :: rest => (true, rest)
        | '+' :: rest => (false, rest)
        | rest => (false, rest)
      let digits := digitsText.takeWhile isDigit
      if digits.isEmpty then (none, input)
      else
        let value : Int := digitsValue digits
        (some (if negative then -value else value), digitsText.dropWhile isDigit)
    else (none, input)
  | [] => (none, [])

def number? (input : List Char) : Option (Json × List Char) :=
  let (negative, unsigned) :=
    match input with
    | '-' :: rest => (true, rest)
    | rest => (false, rest)
  let (whole, rest) := wholeDigits unsigned
  if whole.isEmpty then none
  else
    let (fraction, rest) := fractionDigits rest
    let (exponent, rest) := exponentDigits rest
    match fraction, exponent with
    | none, none =>
      let value : Int := digitsValue whole
      some (.int (if negative then -value else value), rest)
    | _, _ =>
      let fraction := fraction.getD []
      let digits := digitsValue (whole ++ fraction)
      let magnitude : Decimal.Scientific := ⟨digits, exponent.getD 0 - fraction.length⟩
      some (.float (if negative then -magnitude.toFloat else magnitude.toFloat), rest)

def words : List (List Char × Json) :=
  [("null".toList, .null), ("true".toList, .bool true), ("false".toList, .bool false),
    ("NaN".toList, .float (Float.ofBits 0x7ff8000000000000)),
    ("Infinity".toList, .float (Float.ofBits 0x7ff0000000000000)),
    ("-Infinity".toList, .float (Float.ofBits 0xfff0000000000000))]

def word? (input : List Char) : Option (Json × List Char) :=
  words.findSome? fun (word, value) =>
    (Text.Chars.dropLead? word input).map fun rest => (value, rest)

mutual

/-- A value at the head of a text. Of two nested calls one starts at least one character later, so
a depth above twice the length of the text is never used up. -/
def value? : Nat → List Char → Option (Json × List Char)
  | 0, _ => none
  | fuel + 1, input =>
    match input with
    | [] => none
    | '"' :: rest => (string? rest).map fun (value, rest) => (.text value, rest)
    | '[' :: rest =>
      match skipSpace rest with
      | ']' :: rest => some (.list [], rest)
      | rest => (items? fuel rest).map fun (items, rest) => (.list items, rest)
    | '\x7b' :: rest =>
      match skipSpace rest with
      | '\x7d' :: rest => some (.object [], rest)
      | rest =>
        (members? fuel rest).map fun (members, rest) =>
          (.object (Members.ofPairs members), rest)
    | input =>
      match word? input with
      | some found => some found
      | none => number? input

def items? : Nat → List Char → Option (List Json × List Char)
  | 0, _ => none
  | fuel + 1, input =>
    match value? fuel input with
    | none => none
    | some (item, rest) =>
      match skipSpace rest with
      | ']' :: rest => some ([item], rest)
      | ',' :: rest =>
        (items? fuel (skipSpace rest)).map fun (items, rest) => (item :: items, rest)
      | _ => none

def members? : Nat → List Char → Option (List (String × Json) × List Char)
  | 0, _ => none
  | fuel + 1, input =>
    match input with
    | '"' :: rest =>
      match string? rest with
      | none => none
      | some (name, rest) =>
        match skipSpace rest with
        | ':' :: rest =>
          match value? fuel (skipSpace rest) with
          | none => none
          | some (value, rest) =>
            match skipSpace rest with
            | '\x7d' :: rest => some ([(name, value)], rest)
            | ',' :: rest =>
              (members? fuel (skipSpace rest)).map fun (members, rest) =>
                ((name, value) :: members, rest)
            | _ => none
        | _ => none
    | _ => none

end

end Parser

def parse? (text : String) : Option Json :=
  let chars := text.toList
  match Parser.value? (2 * chars.length + 2) (Parser.skipSpace chars) with
  | some (value, rest) => if (Parser.skipSpace rest).isEmpty then some value else none
  | none => none

end CodeAtlas.Json
