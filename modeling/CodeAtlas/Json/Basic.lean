import CodeAtlas.Decimal.Written

/-!
JSON values. The members of an object keep the order in which they were first written; whole
numbers are exact and kept apart from floating-point ones.
-/

namespace CodeAtlas

inductive Json where
  | null
  | bool (value : Bool)
  | int (value : Int)
  | float (value : Float)
  | text (value : String)
  | list (items : List Json)
  | object (members : List (String × Json))
deriving Inhabited

namespace Json

abbrev Members := List (String × Json)

/-- A later member of the same name replaces the value and keeps the first place. -/
def Members.insert (name : String) (value : Json) : Members → Members
  | [] => [(name, value)]
  | (other, old) :: rest =>
    if other == name then (name, value) :: rest else (other, old) :: Members.insert name value rest

def Members.ofPairs (pairs : List (String × Json)) : Members :=
  pairs.foldl (fun members (name, value) => Members.insert name value members) []

def member? (value : Json) (name : String) : Option Json :=
  match value with
  | .object members => members.lookup name
  | _ => none

def ofStrings (values : List String) : Json :=
  .list (values.map .text)

def ofOption {α : Type} (encode : α → Json) : Option α → Json
  | none => .null
  | some value => encode value

def nat (value : Nat) : Json :=
  .int value

/-- Null, false, zero and everything empty count as nothing. -/
def isTruthy : Json → Bool
  | .null => false
  | .bool value => value
  | .int value => value != 0
  | .float value => value != 0.0
  | .text value => !value.isEmpty
  | .list items => !items.isEmpty
  | .object members => !members.isEmpty

end Json

end CodeAtlas
