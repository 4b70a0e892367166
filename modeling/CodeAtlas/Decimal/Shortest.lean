/-!
Floating-point numbers taken apart: a finite one is a whole mantissa times a power of two, with a
sign. All decimal texts are computed from this form in exact arithmetic.

The shortest decimal that reads back as a given number, and the nearest of those if there are
several. The numbers that round to m · 2^q fill an interval around it; the search takes coarser
decimal grids first and tests the two neighbours of the value on each grid.
-/

namespace CodeAtlas.Decimal

structure Binary where
  negative : Bool
  mantissa : Nat
  exponent : Int
deriving DecidableEq, Repr

inductive Shape where
  | notANumber
  | infinite (negative : Bool)
  | finite (value : Binary)
deriving DecidableEq, Repr

/-- The shape of a number with these sixty-four bits: one of sign, eleven of exponent and
fifty-two of mantissa. -/
def Shape.ofBits (bits : Nat) : Shape :=
  let negative := bits / Nat.pow 2 63 % 2 == 1
  let exponent : Nat := bits / Nat.pow 2 52 % Nat.pow 2 11
  let fraction := bits % Nat.pow 2 52
  if exponent == 2047 then
    if fraction == 0 then .infinite negative else .notANumber
  else if exponent == 0 then .finite ⟨negative, fraction, -1074⟩
  else .finite ⟨negative, fraction + Nat.pow 2 52, (exponent : Int) - 1075⟩

def shape (value : Float) : Shape :=
  .ofBits value.toBits.toNat

def Binary.fraction (value : Binary) : Nat × Nat :=
  match value.exponent with
  | .ofNat power => (value.mantissa * Nat.pow 2 power, 1)
  | .negSucc power => (value.mantissa, Nat.pow 2 (power + 1))

structure Scientific where
  digits : Nat
  exponent : Int
deriving DecidableEq, Repr

/-- The interval of a number, all four values over one denominator, and whether its ends belong to
it. -/
structure Interval where
  low : Nat
  value : Nat
  high : Nat
  denominator : Nat
  closed : Bool

def Interval.contains (interval : Interval) (numerator denominator : Nat) : Bool :=
  let scaled := numerator * interval.denominator
  let low := interval.low * denominator
  let high := interval.high * denominator
  if interval.closed then low ≤ scaled && scaled ≤ high else low < scaled && scaled < high

/-- The interval below a power of two is half as wide. -/
def Binary.interval (value : Binary) : Interval :=
  let narrow := value.mantissa == Nat.pow 2 52 && value.exponent > -1074
  let four := 4 * value.mantissa
  let low := if narrow then four - 1 else four - 2
  let closed := value.mantissa % 2 == 0
  match value.exponent - 2 with
  | .ofNat power => ⟨low * Nat.pow 2 power, four * Nat.pow 2 power, (four + 2) * Nat.pow 2 power, 1, closed⟩
  | .negSucc power => ⟨low, four, four + 2, Nat.pow 2 (power + 1), closed⟩

def digitCount (value : Nat) : Nat :=
  if value = 0 then 0 else digitCount (value / 10) + 1
termination_by value
decreasing_by exact Nat.div_lt_self (Nat.pos_of_ne_zero ‹_›) (by decide)

/-- The least number of tenfold steps after which a fraction is at least one. -/
def leadingZeros (numerator denominator : Nat) : Nat → Nat
  | 0 => 0
  | fuel + 1 =>
    if denominator ≤ numerator then 0
    else leadingZeros (numerator * 10) denominator fuel + 1

/-- The exponent e with 10^(e-1) ≤ n/d < 10^e for a positive fraction. -/
def decimalPoint (numerator denominator : Nat) : Int :=
  if denominator ≤ numerator then (digitCount (numerator / denominator) : Int)
  else 1 - (leadingZeros numerator denominator 400 : Int)

/-- The neighbours of the value on the grid of the given power of ten, those that read back. -/
def Interval.candidates (interval : Interval) (power : Int) : List Scientific :=
  let scale : Nat × Nat :=
    match power with
    | .ofNat exponent => (Nat.pow 10 exponent, 1)
    | .negSucc exponent => (1, Nat.pow 10 (exponent + 1))
  let below := interval.value * scale.2 / (interval.denominator * scale.1)
  [below, below + 1].filterMap fun digits =>
    if interval.contains (digits * scale.1) scale.2 then some ⟨digits, power⟩ else none

/-- Of two neighbours the nearer one; at equal distance the one with the even last digit. -/
def Interval.nearest (interval : Interval) (power : Int) : List Scientific → Option Scientific
  | [] => none
  | [only] => some only
  | lower :: upper :: _ =>
    let scale : Nat × Nat :=
      match power with
      | .ofNat exponent => (Nat.pow 10 exponent, 1)
      | .negSucc exponent => (1, Nat.pow 10 (exponent + 1))
    let middle := (lower.digits + upper.digits) * scale.1 * interval.denominator
    let twice := 2 * interval.value * scale.2
    if twice < middle then some lower
    else if middle < twice then some upper
    else if lower.digits % 2 == 0 then some lower
    else some upper

def Interval.search (interval : Interval) (point : Int) : List Nat → Scientific
  | [] => ⟨0, 0⟩
  | digits :: more =>
    let power := point - digits
    match interval.nearest power (interval.candidates power) with
    | some found => found
    | none => interval.search point more

def Scientific.reduce (value : Scientific) : Scientific :=
  go value 20
where
  go (value : Scientific) : Nat → Scientific
    | 0 => value
    | fuel + 1 =>
      if value.digits != 0 && value.digits % 10 == 0 then
        go ⟨value.digits / 10, value.exponent + 1⟩ fuel
      else value

def Binary.shortest (value : Binary) : Scientific :=
  if value.mantissa == 0 then ⟨0, 0⟩
  else
    let (numerator, denominator) := value.fraction
    let point := decimalPoint numerator denominator
    (value.interval.search point
      [1, 2, 3, 4, 5, 6, 7, 8, 9, 10, 11, 12, 13, 14, 15, 16, 17]).reduce

end CodeAtlas.Decimal
