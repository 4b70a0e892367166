import CodeAtlas.Json.Parser

/-!
What is wrong with a text that is no value, and where. The text is read as far as it can be; the
place of a mistake is kept as the text from there on.
-/

namespace CodeAtlas.Json

structure Mistake where
  message : String
  rest : List Char

namespace Diagnosis

open CodeAtlas.Json.Parser (unit? simpleEscape? skipSpace word?)

abbrev Reading := Except Mistake (List Char)

def mistake (message : String) (rest : List Char) : Reading := .error ⟨message, rest⟩

/-- Reads four hexadecimal digits after the mark of a unit; there has to be more text after them.
The second argument is the text from the mark on. -/
def unitAfter (rest place : List Char) : Except Mistake (Nat × List Char) :=
  match rest with
  | first :: second :: third :: fourth :: next :: after =>
    match unit? first second third fourth with
    | some value => .ok (value, next :: after)
    | none => .error ⟨"Invalid \\uXXXX escape", place⟩
  | _ => .error ⟨"Invalid \\uXXXX escape", place⟩

/-- After the first unit of a pair a second one is read, if one is written. -/
def afterUnit (value : Nat) (rest : List Char) : Reading :=
  if 0xd800 ≤ value && value < 0xdc00 then
    match rest with
    | '\\' :: 'u' :: digits =>
      if digits.length < 5 then .ok rest
      else do
        let (second, after) ← unitAfter digits ('u' :: digits)
        return if 0xdc00 ≤ second && second < 0xe000 then after else rest
    | _ => .ok rest
  else .ok rest

/-- Reads a text up to its closing quote. The second argument is the text from the opening quote
on; the first bounds the steps. -/
def stringEnd (start : List Char) : Nat → List Char → Reading
  | 0, rest => .ok rest
  | bound + 1, rest =>
    match rest with
    | [] => mistake "Unterminated string starting at" start
    | '"' :: rest => .ok rest
    | ['\\'] => mistake "Unterminated string starting at" start
    | '\\' :: 'u' :: digits =>
      match unitAfter digits ('u' :: digits) with
      | .error cause => .error cause
      | .ok (value, rest) =>
        match afterUnit value rest with
        | .error cause => .error cause
        | .ok rest => stringEnd start bound rest
    | '\\' :: char :: rest =>
      if (simpleEscape? char).isSome then stringEnd start bound rest
      else mistake "Invalid \\escape" ('\\' :: char :: rest)
    | char :: rest =>
      if char.toNat < 32 then mistake "Invalid control character at" (char :: rest)
      else stringEnd start bound rest

mutual

def valueEnd : Nat → List Char → Reading
  | 0, rest => .ok rest
  | bound + 1, rest =>
    match rest with
    | '"' :: body => stringEnd rest (body.length + 1) body
    | '[' :: items =>
      match skipSpace items with
      | ']' :: rest => .ok rest
      | items => itemsEnd bound items
    | '\x7b' :: members =>
      match skipSpace members with
      | '\x7d' :: rest => .ok rest
      | members => membersEnd bound members
    | _ =>
      match word? rest with
      | some (_, rest) => .ok rest
      | none =>
        match Parser.number? rest with
        | some (_, rest) => .ok rest
        | none => mistake "Expecting value" rest

def itemsEnd : Nat → List Char → Reading
  | 0, rest => .ok rest
  | bound + 1, rest =>
    match valueEnd bound rest with
    | .error cause => .error cause
    | .ok rest =>
      match skipSpace rest with
      | ']' :: rest => .ok rest
      | ',' :: rest => itemsEnd bound (skipSpace rest)
      | rest => mistake "Expecting ',' delimiter" rest

def membersEnd : Nat → List Char → Reading
  | 0, rest => .ok rest
  | bound + 1, rest =>
    match rest with
    | '"' :: name =>
      match stringEnd rest (name.length + 1) name with
      | .error cause => .error cause
      | .ok rest =>
        match skipSpace rest with
        | ':' :: rest =>
          match valueEnd bound (skipSpace rest) with
          | .error cause => .error cause
          | .ok rest =>
            match skipSpace rest with
            | '\x7d' :: rest => .ok rest
            | ',' :: rest => membersEnd bound (skipSpace rest)
            | rest => mistake "Expecting ',' delimiter" rest
        | rest => mistake "Expecting ':' delimiter" rest
    | _ => mistake "Expecting property name enclosed in double quotes" rest

end

def whole (text : List Char) : Reading :=
  if text.head? == some '\ufeff' then
    mistake "Unexpected UTF-8 BOM (decode using utf-8-sig)" text
  else
    match valueEnd (2 * text.length + 2) (skipSpace text) with
    | .error cause => .error cause
    | .ok rest =>
      match skipSpace rest with
      | [] => .ok []
      | rest => mistake "Extra data" rest

end Diagnosis

def Mistake.text (mistake : Mistake) (whole : List Char) : String :=
  let before := whole.take (whole.length - mistake.rest.length)
  let column := (before.reverse.takeWhile (· ≠ '\n')).length + 1
  mistake.message ++ ": line " ++ Decimal.natText (before.count '\n' + 1) ++ " column "
    ++ Decimal.natText column ++ " (char " ++ Decimal.natText before.length ++ ")"

def diagnose? (text : String) : Option String :=
  match Diagnosis.whole text.toList with
  | .ok _ => none
  | .error mistake => some (mistake.text text.toList)

end CodeAtlas.Json
