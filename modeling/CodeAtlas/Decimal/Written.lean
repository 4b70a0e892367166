import CodeAtlas.Decimal.Shortest
import CodeAtlas.Text.Basic

/-!
The texts of numbers: whole numbers, the shortest text of a floating-point number, and a fixed
number of decimal places.
-/

namespace CodeAtlas.Decimal

def natText (value : Nat) : String :=
  String.ofList (Nat.toDigits 10 value)

def intText (value : Int) : String :=
  match value with
  | .ofNat magnitude => natText magnitude
  | .negSucc magnitude => "-" ++ natText (magnitude + 1)

def paddedText (width value : Nat) : String :=
  Text.padLeft width (natText value) '0'

/-- A number is written positionally while its first digit stands at most four places after the
point and at most sixteen before it, and else with an exponent of at least two digits; a whole
number keeps one zero after the point. -/
def Scientific.text (value : Scientific) : String :=
  let digits := natText value.digits
  let count : Int := digits.length
  let point := count + value.exponent
  if value.digits == 0 then "0.0"
  else if point ≤ -4 || point > 16 then
    let exponent := point - 1
    let mantissa :=
      if digits.length ≤ 1 then digits else Text.take digits 1 ++ "." ++ Text.drop digits 1
    mantissa ++ "e" ++ (if exponent < 0 then "-" else "+") ++ paddedText 2 exponent.natAbs
  else if point ≤ 0 then "0." ++ Text.repeated point.natAbs "0" ++ digits
  else if count ≤ point then
    digits ++ Text.repeated (point - count).toNat "0" ++ ".0"
  else Text.take digits point.toNat ++ "." ++ Text.drop digits point.toNat

def floatText (value : Float) : String :=
  match shape value with
  | .notANumber => "nan"
  | .infinite negative => if negative then "-inf" else "inf"
  | .finite binary => (if binary.negative then "-" else "") ++ binary.shortest.text

def roundQuotient (numerator denominator : Nat) : Nat :=
  let quotient := numerator / denominator
  let twice := 2 * (numerator % denominator)
  if twice < denominator then quotient
  else if denominator < twice then quotient + 1
  else if quotient % 2 == 0 then quotient
  else quotient + 1

def Binary.units (value : Binary) (places : Nat) : Nat :=
  let (numerator, denominator) := value.fraction
  roundQuotient (numerator * Nat.pow 10 places) denominator

def fixedUnits (places units : Nat) : String :=
  let whole := natText (units / Nat.pow 10 places)
  if places == 0 then whole else whole ++ "." ++ paddedText places (units % Nat.pow 10 places)

def fixedText (places : Nat) (value : Float) : String :=
  match shape value with
  | .notANumber => "nan"
  | .infinite negative => if negative then "-inf" else "inf"
  | .finite binary =>
    (if binary.negative then "-" else "") ++ fixedUnits places (binary.units places)

def roundTo (places : Nat) (value : Float) : Float :=
  match shape value with
  | .finite binary =>
    let magnitude := Float.ofScientific (binary.units places) true places
    if binary.negative then -magnitude else magnitude
  | _ => value

/-- The floating-point number nearest to a decimal; beyond the exponents of all finite numbers it
is infinite or zero. -/
def Scientific.toFloat (value : Scientific) : Float :=
  let point := (digitCount value.digits : Int) + value.exponent
  if value.digits == 0 || point < -400 then 0.0
  else if point > 400 then Float.ofBits 0x7ff0000000000000
  else
    match value.exponent with
    | .ofNat exponent => Float.ofScientific value.digits false exponent
    | .negSucc exponent => Float.ofScientific value.digits true (exponent + 1)

/-! ## Digits in groups of three -/

/-- Puts a comma before every third digit, counted from the end; the digits come in reverse. -/
def groupReversed : List Char → List Char
  | first :: second :: third :: next :: rest =>
    first :: second :: third :: ',' :: groupReversed (next :: rest)
  | digits => digits

def grouped (digits : String) : String :=
  String.ofList (groupReversed digits.toList.reverse).reverse

def groupedInt (value : Int) : String :=
  (if value < 0 then "-" else "") ++ grouped (natText value.natAbs)

def groupedFloat (value : Float) : String :=
  let text := (floatText value).toList
  let (sign, size) := text.span (· == '-')
  let (whole, rest) := size.span Char.isDigit
  String.ofList sign ++ grouped (String.ofList whole) ++ String.ofList rest

end CodeAtlas.Decimal
