import CodeAtlas.Json.Basic

/-!
Equality of values: the order of members does not matter, and a truth value, a whole number and a
floating-point number are equal if they are numerically equal.
-/

namespace CodeAtlas.Json

def number? : Json → Option (Int ⊕ Float)
  | .bool value => some (.inl (if value then 1 else 0))
  | .int value => some (.inl value)
  | .float value => some (.inr value)
  | _ => none

/-- A whole number and a finite floating-point number compare by value. -/
def sameNumber : Int ⊕ Float → Int ⊕ Float → Bool
  | .inl left, .inl right => left == right
  | .inr left, .inr right => left == right
  | .inl whole, .inr decimal | .inr decimal, .inl whole =>
    match Decimal.shape decimal with
    | .finite binary =>
      let (numerator, denominator) := binary.fraction
      numerator == whole.natAbs * denominator &&
        (binary.negative == (whole < 0 : Bool) || numerator == 0)
    | _ => false

mutual

def equals : Json → Json → Bool
  | .null, .null => true
  | .text left, .text right => left == right
  | .list left, .list right => equalItems left right
  | .object left, .object right => left.length == right.length && includes left right
  | left, right =>
    match left.number?, right.number? with
    | some left, some right => sameNumber left right
    | _, _ => false

def equalItems : List Json → List Json → Bool
  | [], [] => true
  | left :: lefts, right :: rights => equals left right && equalItems lefts rights
  | _, _ => false

def includes : List (String × Json) → List (String × Json) → Bool
  | [], _ => true
  | (name, value) :: rest, others =>
    (match others.lookup name with
      | some other => equals value other
      | none => false) && includes rest others

end

end CodeAtlas.Json
