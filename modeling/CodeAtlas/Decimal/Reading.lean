import CodeAtlas.Text.Basic
import CodeAtlas.Text.Word

/-!
Reading whole numbers: blanks around, one sign, and digits of any script, between which single
underscores may stand.
-/

namespace CodeAtlas.Decimal

/-- The value of digits after those that make a value so far; an underscore stands between two. -/
def readDigits (value : Nat) : List Char → Option Nat
  | [] => some value
  | '_' :: digit :: rest =>
    if Text.isDecimal digit then readDigits (value * 10 + Text.decimalValue digit) rest else none
  | digit :: rest =>
    if Text.isDecimal digit then readDigits (value * 10 + Text.decimalValue digit) rest else none

def readNat? : List Char → Option Nat
  | [] => none
  | '_' :: _ => none
  | digits => readDigits 0 digits

def readInt? (text : String) : Option Int :=
  match (Text.strip text).toList with
  | '-' :: digits => (readNat? digits).map fun value => -value
  | '+' :: digits => (readNat? digits).map Int.ofNat
  | digits => (readNat? digits).map Int.ofNat

end CodeAtlas.Decimal
