import CodeAtlas.Decimal.Written

/-!
Spans of time in seconds, cut into whole minutes and the seconds left over. A negative span is cut
so that the seconds stay positive.
-/

namespace CodeAtlas.Time

def wholePart (value : Float) : Int :=
  match Decimal.shape value with
  | .finite binary =>
    let (numerator, denominator) := binary.fraction
    if binary.negative then -(numerator / denominator : Nat) else (numerator / denominator : Nat)
  | _ => 0

/-- What is left of a number, with its sign, after all whole multiples of sixty are taken away. -/
def leftOfSixty (value : Float) : Float :=
  match Decimal.shape value with
  | .finite binary =>
    let (numerator, denominator) := binary.fraction
    let left := (Float.ofNat (numerator % (60 * denominator))).scaleB (min binary.exponent 0)
    if binary.negative then -left else left
  | _ => value

/-- The whole minutes of a span and the whole seconds that are left over, each the nearest number
that the machine has. -/
def minutesAndSeconds (span : Float) : Int × Int :=
  let left := leftOfSixty span
  let minutes := (span - left) / 60
  if left < 0 then (wholePart (minutes - 1).round, wholePart (left + 60))
  else (wholePart minutes.round, wholePart left)

def brief (span : Float) : String :=
  let (minutes, seconds) := minutesAndSeconds span
  if minutes > 0 then Decimal.intText minutes ++ "m " ++ Decimal.intText seconds ++ "s"
  else Decimal.intText seconds ++ "s"

def twoDigits (value : Int) : String := Decimal.paddedText 2 value.toNat

def clockText (span : Float) : String :=
  let (minutes, seconds) := minutesAndSeconds span
  (if minutes > 0 then twoDigits minutes else "00") ++ ":" ++ twoDigits seconds

end CodeAtlas.Time
