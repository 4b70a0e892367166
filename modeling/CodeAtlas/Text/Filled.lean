import CodeAtlas.Json.Shown

/-!
Filling values into a text. A percent sign starts a place: after it stand marks, a least width, a
precision and a letter that says how the value is written; two percent signs stand for one.
-/

namespace CodeAtlas.Text

structure Place where
  marks : List Char
  width : Nat
  precision : Option Nat
  letter : Char

def Place.has (place : Place) (mark : Char) : Bool := place.marks.contains mark

def Place.pad (place : Place) (text : String) : String :=
  if place.has '-' then padRight place.width text else padLeft place.width text

def Place.number (place : Place) (negative : Bool) (digits : String) : String :=
  let sign :=
    if negative then "-" else if place.has '+' then "+" else if place.has ' ' then " " else ""
  if place.has '0' && !place.has '-' then
    sign ++ padLeft (place.width - sign.length) digits '0'
  else place.pad (sign ++ digits)

def Place.cut (place : Place) (text : String) : String :=
  match place.precision with
  | some count => take text count
  | none => text

def Place.write? (place : Place) (value : Json) : Option String :=
  let whole? : Option Int := match value with
    | .int number => some number
    | .bool number => some (if number then 1 else 0)
    | _ => none
  match place.letter with
  | 's' => some (place.pad (place.cut value.shown))
  | 'r' | 'a' => some (place.pad (place.cut value.inspected))
  | 'd' | 'i' | 'u' =>
    whole?.map fun number => place.number (number < 0)
      (padLeft (place.precision.getD 0) (Decimal.natText number.natAbs) '0')
  | 'x' =>
    whole?.map fun number => place.number (number < 0) (.ofList (Nat.toDigits 16 number.natAbs))
  | 'f' | 'F' =>
    let number? : Option Float := match value with
      | .float number => some number
      | _ => whole?.map Float.ofInt
    number?.map fun number =>
      place.number (number < 0) (Decimal.fixedText (place.precision.getD 6) number.abs)
  | _ => none

def place? (text : List Char) : Option (Place × List Char) :=
  let isMark (char : Char) : Bool := "-+ 0#".toList.contains char
  let value (digits : List Char) : Nat :=
    digits.foldl (fun value char => value * 10 + (char.toNat - 48)) 0
  let marks := text.takeWhile isMark
  let text := text.dropWhile isMark
  let width := value (text.takeWhile Char.isDigit)
  let text := text.dropWhile Char.isDigit
  let (precision, text) := match text with
    | '.' :: rest => (some (value (rest.takeWhile Char.isDigit)), rest.dropWhile Char.isDigit)
    | _ => (none, text)
  match text with
  | letter :: rest => some (⟨marks, width, precision, letter⟩, rest)
  | [] => none

/-- Goes through a text of at most so many characters and fills in the values; all of them have to
be used. -/
def fillFrom : Nat → List Char → List Json → Option String
  | _, [], values => if values.isEmpty then some "" else none
  | 0, _, _ => none
  | fuel + 1, '%' :: rest, values => do
    let (place, rest) ← place? rest
    if place.letter == '%' then
      return "%" ++ (← fillFrom fuel rest values)
    else
      match values with
      | value :: values => return (← place.write? value) ++ (← fillFrom fuel rest values)
      | [] => none
  | fuel + 1, char :: rest, values => do
    return String.ofList [char] ++ (← fillFrom fuel rest values)

def fill? (text : String) (values : List Json) : Option String :=
  if values.isEmpty then some text else fillFrom text.length text.toList values

end CodeAtlas.Text
