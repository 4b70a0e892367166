import CodeAtlas.Json.Shown
import CodeAtlas.Text.Case
import CodeAtlas.Wiki.Dependencies

/-!
What a component is for, guessed from its name, its kind and the number of its dependencies.
-/

namespace CodeAtlas.Wiki

structure Purpose where
  role : String
  confidence : Float
  reasons : List String
  description : String
  uses : Nat
  users : Nat
  kind : Json

namespace Purpose

/-- Words in a name, the role they stand for, the confidence in it and the reason. -/
def roles : List (List String × String × Float × String) := [
  (["manager"], "manager", 0.8,
    "Name contains \"manager\" - likely manages resources or lifecycle"),
  (["service"], "service", 0.8, "Name contains \"service\" - likely provides business logic"),
  (["generator", "builder"], "generator", 0.8,
    "Name suggests object creation or construction"),
  (["analyzer", "parser"], "analyzer", 0.8, "Name suggests data analysis or transformation"),
  (["handler", "processor"], "processor", 0.7,
    "Name suggests event handling or data processing"),
  (["adapter", "wrapper"], "adapter", 0.8, "Name suggests interface adaptation or wrapping"),
  (["model", "entity", "dto"], "model", 0.7, "Name suggests data structure or model"),
  (["util", "helper"], "utility", 0.7, "Name suggests utility or helper functions"),
  (["config", "settings"], "configuration", 0.8, "Name suggests configuration management")]

def roleOfName (name : String) : String × Float × List String :=
  match roles.find? fun row => Text.containsAny (Text.lower name) row.1 with
  | some (_, role, confidence, reason) => (role, confidence, [reason])
  | none => ("unknown", 0.5, [])

def describe (name role : String) (kind : Json) : String :=
  match role with
  | "manager" => name ++ " manages lifecycle and resources"
  | "service" => name ++ " provides business logic and operations"
  | "generator" => name ++ " creates or constructs objects/data"
  | "analyzer" => name ++ " analyzes or transforms data"
  | "processor" => name ++ " processes data or handles events"
  | "adapter" => name ++ " adapts or wraps external interfaces"
  | "model" => name ++ " represents data structure or entity"
  | "utility" => name ++ " provides helper functions"
  | "configuration" => name ++ " manages configuration settings"
  | "controller" => name ++ " orchestrates operations"
  | _ => name ++ " (" ++ kind.shown ++ ")"

def many : Nat := 10

def roleOfCount (uses : Nat) (role : String) (confidence : Float) : String × Float :=
  if role ≠ "unknown" then (role, confidence)
  else if uses == 0 then ("model", 0.6)
  else if uses > many then ("controller", 0.6)
  else (role, confidence)

def useReasons (uses : Nat) : List String :=
  if uses == 0 then ["No dependencies - likely a data model, constant, or utility"]
  else if uses > many then
    ["Many dependencies (" ++ Decimal.natText uses ++ ") - likely an orchestrator or controller"]
  else []

def userReasons (users : Nat) : List String :=
  if users == 0 then ["No dependents - possibly an entry point or unused component"]
  else if users > many then
    ["Many dependents (" ++ Decimal.natText users ++ ") - likely a core/shared component"]
  else []

def kindReasons (kind : Json) : List String :=
  match kind with
  | .text "function" => ["Component is a function - likely a utility or specific operation"]
  | .text "class" => ["Component is a class - encapsulates state and behavior"]
  | _ => []

def infer (name : String) (kind : Json) (uses users : Nat) : Purpose :=
  let (role, confidence, reasons) := roleOfName name
  let (role, confidence) := roleOfCount uses role confidence
  { role
    confidence
    reasons := reasons ++ useReasons uses ++ userReasons users ++ kindReasons kind
    description := describe name role kind
    uses
    users
    kind }

def toJson (purpose : Purpose) : Json :=
  .object [("primary_purpose", .text purpose.description), ("role", .text purpose.role),
    ("confidence", .float purpose.confidence), ("reasoning", .ofStrings purpose.reasons),
    ("metrics", .object [("dependencies", .nat purpose.uses), ("dependents", .nat purpose.users),
      ("type", purpose.kind)])]

end Purpose

namespace Catalog

def purpose (catalog : Catalog) (entry : Entry) : Except Fault Purpose := do
  return .infer (← entry.name.textOf) entry.kind entry.used.itemsOf.length
    (catalog.dependents entry.key).length

def purposeJson (catalog : Catalog) (id : String) : Except Fault Json := do
  match catalog.entries.get? id with
  | some entry => return (← catalog.purpose entry).toJson
  | none => return .object [componentMissing id]

end Catalog

end CodeAtlas.Wiki
