/-!
Sets of code points given as increasing, disjoint ranges, both ends included, and tables of their
images, written in letters. The images of a table have one width. Each of their numbers is given by
the step from the number at its place in the image before; a step back is odd.
-/

namespace CodeAtlas.Text

abbrev Ranges := List (Nat × Nat)

/-- Ranges given in pairs of steps: from the last of the range before to the first, and from there
to the last. -/
def Ranges.ofSteps (before : Nat) : List Nat → Ranges
  | toFirst :: toLast :: rest =>
    let first := before + toFirst
    (first, first + toLast) :: ofSteps (first + toLast) rest
  | _ => []

/-- A letter stands as many times more as the digit behind it says. -/
def spread : List Char → List Char
  | letter :: count :: rest =>
    if count.isDigit then List.replicate (count.toNat - 47) letter ++ spread rest
    else letter :: spread (count :: rest)
  | rest => rest

/-- Numbers in base 26, one behind the other: capitals for the leading digits of a number and a
small letter for its last one. -/
def numbersOfLetters (leading : Nat) : List Char → List Nat
  | [] => []
  | letter :: rest =>
    if letter.isUpper then numbersOfLetters (26 * leading + (letter.toNat - 65)) rest
    else (26 * leading + (letter.toNat - 97)) :: numbersOfLetters 0 rest

def numbersOfLines (lines : List String) : List Nat :=
  lines.flatMap fun line => numbersOfLetters 0 (spread line.toList)

def Ranges.ofLetters (lines : List String) : Ranges := ofSteps 0 (numbersOfLines lines)

/-- The ranges increase, so the search stops at the first range that starts above the value. -/
def Ranges.contains : Ranges → Nat → Bool
  | [], _ => false
  | (first, last) :: rest, value =>
    if value < first then false
    else if value ≤ last then true
    else Ranges.contains rest value

def stepped (before step : Nat) : Nat :=
  if step % 2 == 0 then before + step / 2 else before - (step + 1) / 2

def numbersFrom : List Nat → List Nat → List Nat
  | before :: others, step :: rest =>
    let number := stepped before step
    number :: numbersFrom (others ++ [number]) rest
  | _, _ => []

def withImages (width : Nat) : List Nat → List Nat → List (Nat × List Nat)
  | [], _ => []
  | value :: values, numbers =>
    (value, numbers.take width) :: withImages width values (numbers.drop width)

def imageTable (width : Nat) (values steps : List String) : List (Nat × List Nat) :=
  withImages width ((Ranges.ofLetters values).flatMap fun (first, last) =>
    List.range' first (last + 1 - first))
    (numbersFrom (List.replicate width 0) (numbersOfLines steps))

end CodeAtlas.Text
