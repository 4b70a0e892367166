import CodeAtlas.Json.Basic

/-!
Reading values whose shape is not known beforehand. Each way of reading says what is wrong with a
value that does not allow it. Values that are trusted to have the right shape are read without that:
whatever has another one counts as empty.
-/

namespace CodeAtlas

/-- Why data of unknown shape, or a step that works on it, cannot be used. -/
inductive Fault where
  | missingKey
  | wrongKind
  | noSuchMember
  | badValue
  | badIndex
  | notJson
  | noFile
  | isDirectory
  | notDirectory
  | fileExists
  | undecodable
  | divisionByZero
  | outOfRange
  | undefined
  | unfit
  | unknownName
  | tooDeep
deriving DecidableEq, Repr

namespace Json

def need (value : Json) (name : String) : Except Fault Json :=
  match value with
  | .object members =>
    match members.lookup name with
    | some found => .ok found
    | none => .error .missingKey
  | _ => .error .wrongKind

def getOr (value : Json) (name : String) (default : Json) : Except Fault Json :=
  match value with
  | .object members => .ok ((members.lookup name).getD default)
  | _ => .error .noSuchMember

def members (value : Json) : Except Fault Members :=
  match value with
  | .object members => .ok members
  | _ => .error .noSuchMember

def items (value : Json) : Except Fault (List Json) :=
  match value with
  | .list items => .ok items
  | .object members => .ok (members.map fun member => .text member.1)
  | .text written => .ok (written.toList.map fun char => .text (String.ofList [char]))
  | _ => .error .wrongKind

def size (value : Json) : Except Fault Nat :=
  match value with
  | .list items => .ok items.length
  | .object members => .ok members.length
  | .text written => .ok written.length
  | _ => .error .wrongKind

def string (value : Json) : Except Fault String :=
  match value with
  | .text written => .ok written
  | _ => .error .wrongKind

def text? : Json → Option String
  | .text written => some written
  | _ => none

/-- A text whose operations are used; other values do not have them. -/
def textOf (value : Json) : Except Fault String :=
  match value with
  | .text written => .ok written
  | _ => .error .noSuchMember

/-- A value that is looked up; lists and objects cannot be. -/
def key (value : Json) : Except Fault Json :=
  match value with
  | .list _ | .object _ => .error .wrongKind
  | _ => .ok value

def joined (separator : String) (value : Json) : Except Fault String := do
  let texts ← (← value.items).mapM string
  return Text.join separator texts

/-! ## Trusted values -/

def get (value : Json) (name : String) : Json := (value.member? name).getD .null

def asText : Json → String
  | .text value => value
  | _ => ""

def asItems : Json → List Json
  | .list values => values
  | _ => []

def item (value : Json) (index : Nat) : Json := value.asItems.getD index .null

def asTexts (value : Json) : List String := value.asItems.map asText

/-- The items of a value that was found to have some. -/
def itemsOf (value : Json) : List Json := value.items.toOption.getD []

def asInt : Json → Int
  | .int value => value
  | _ => 0

def asFloat : Json → Float
  | .int value => Float.ofInt value
  | .float value => value
  | _ => 0

def present? {α : Type} (decode : Json → α) : Json → Option α
  | .null => none
  | value => some (decode value)

end Json

end CodeAtlas
