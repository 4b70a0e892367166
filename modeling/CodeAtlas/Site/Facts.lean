import CodeAtlas.Json.Shown
import CodeAtlas.Markup.Escape
import CodeAtlas.Time.Reading

/-!
What a page says of the generation of the documentation it shows: one row for each fact that its
description holds.
-/

namespace CodeAtlas.Site

def row (label value : String) : String :=
  "<div class=\"info-row\"><strong>" ++ label ++ ":</strong> " ++ value ++ "</div>"

def given? (value : Json) (name : String) : Except Fault (Option Json) := do
  let found ← value.getOr name .null
  return if found.isTruthy then some found else none

/-- The date of a moment that can be read, its year as short as it is. -/
def dateOf? (value : Json) : Option String :=
  match value with
  | .text written => do
    let moment ← Time.Moment.ofText? (Text.replace written "Z" "+00:00")
    let date := moment.date
    return Text.join "-" [Decimal.natText date.year, Decimal.paddedText 2 date.month,
      Decimal.paddedText 2 date.day]
  | _ => none

def shortCommit : Json → Except Fault String
  | .text name => .ok (Text.take name 8)
  | .list items => .ok (Json.inspected (.list (items.take 8)))
  | _ => .error .wrongKind

def countText : Json → Except Fault String
  | .int value => .ok (Decimal.groupedInt value)
  | .bool value => .ok (if value then "1" else "0")
  | .float value => .ok (Decimal.groupedFloat value)
  | .text _ => .error .badValue
  | _ => .error .wrongKind

def factRows (description : Json) : Except Fault (List String) := do
  if !description.isTruthy then return []
  let some info ← given? description "generation_info" | return []
  let statistics ← description.getOr "statistics" (.object [])
  let mut rows := []
  if let some model ← given? info "main_model" then
    match model with
    | .text name => rows := rows ++ [row "Model" (Markup.escape name)]
    | _ => throw .noSuchMember
  if let some time ← given? info "timestamp" then
    if let some date := dateOf? time then rows := rows ++ [row "Generated" date]
  if let some commit ← given? info "commit_id" then
    rows := rows ++ [row "Commit" (← shortCommit commit)]
  if let some count ← given? statistics "total_components" then
    rows := rows ++ [row "Components" (← countText count)]
  if let some depth ← given? statistics "max_depth" then
    rows := rows ++ [row "Max Depth" depth.shown]
  return rows

def facts (description : Json) : Except Fault String := do
  return Text.join ("\n" ++ Text.repeated 16 " ") (← factRows description)

end CodeAtlas.Site
