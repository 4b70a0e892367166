import CodeAtlas.Json.Basic
import CodeAtlas.Text.Quoted

/-!
How values are shown to a reader: words for what is no number or text, quotes around texts inside
other values, and a text by itself as it is.
-/

namespace CodeAtlas.Json

mutual

def inspected : Json → String
  | .null => "None"
  | .bool value => if value then "True" else "False"
  | .int value => Decimal.intText value
  | .float value => Decimal.floatText value
  | .text value => Text.quoted value
  | .list items => "[" ++ inspectedItems items ++ "]"
  | .object members => "\x7b" ++ inspectedMembers members ++ "\x7d"

def inspectedItems : List Json → String
  | [] => ""
  | [item] => inspected item
  | item :: rest => inspected item ++ ", " ++ inspectedItems rest

def inspectedMembers : List (String × Json) → String
  | [] => ""
  | [(name, value)] => Text.quoted name ++ ": " ++ inspected value
  | (name, value) :: rest =>
    Text.quoted name ++ ": " ++ inspected value ++ ", " ++ inspectedMembers rest

end

def shown : Json → String
  | .text value => value
  | value => inspected value

end CodeAtlas.Json
