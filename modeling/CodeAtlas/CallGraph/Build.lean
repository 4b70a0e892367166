import CodeAtlas.CallGraph.Basic

/-!
Components from the records of an analysis. Records without an identifier are passed over; a later
record with the same identifier replaces an earlier one. A relation adds a dependency when its
caller is known and its callee is known by identifier, by file and name, or by name alone.
-/

namespace CodeAtlas

/-- What an analysis reports about one component. A field may be missing altogether, which is
different from being present and null. -/
structure ComponentRecord where
  id : String
  name : String
  kind : Option String
  nodeKind : Option (Option String)
  filePath : String
  relativePath : String
  source : Option (Option String)
  snippet : Option (Option String)
  startLine : Int
  endLine : Int
  hasDocstring : Option Bool
  docstring : String
  parameters : Option (Option (List String))
  baseClasses : Option (List String)
  className : Option String
  displayName : Option (Option String)

namespace ComponentRecord

/-- Reads a record; some of its fields tell a missing value from an empty one. -/
def ofJson (value : Json) : ComponentRecord :=
  let text (name : String) : String := (value.get name).asText
  let given (name : String) : Option (Option String) :=
    (value.member? name).map (Json.present? Json.asText)
  { id := text "id"
    name := text "name"
    kind := (value.member? "component_type").map Json.asText
    nodeKind := given "node_type"
    filePath := text "file_path"
    relativePath := text "relative_path"
    source := given "source_code"
    snippet := given "code_snippet"
    startLine := (value.get "start_line").asInt
    endLine := (value.get "end_line").asInt
    hasDocstring := (value.member? "has_docstring").map (·.isTruthy)
    docstring := text "docstring"
    parameters := (value.member? "parameters").map (Json.present? Json.asTexts)
    baseClasses := (value.get "base_classes").present? Json.asTexts
    className := (value.get "class_name").present? Json.asText
    displayName := given "display_name" }

def ofComponent (component : Component) : ComponentRecord :=
  { id := component.id
    name := component.name
    kind := some component.kind
    nodeKind := some component.nodeKind
    filePath := component.filePath
    relativePath := component.relativePath
    source := some component.source
    snippet := none
    startLine := component.startLine
    endLine := component.endLine
    hasDocstring := some component.hasDocstring
    docstring := component.docstring
    parameters := some component.parameters
    baseClasses := component.baseClasses
    className := component.className
    displayName := some component.displayName }

def toComponent (record : ComponentRecord) : Component :=
  let nodeKind := record.nodeKind.getD (some "function")
  { id := record.id
    name := record.name
    kind := record.kind.getD (nodeKind.getD "function")
    filePath := record.filePath
    relativePath := record.relativePath
    source := record.source.getD (record.snippet.getD (some ""))
    startLine := record.startLine
    endLine := record.endLine
    hasDocstring := record.hasDocstring.getD (record.docstring ≠ "")
    docstring := record.docstring
    parameters := record.parameters.getD (some [])
    nodeKind := nodeKind
    baseClasses := record.baseClasses
    className := record.className
    displayName := record.displayName.getD (some "")
    componentId := some record.id }

def fileReference (record : ComponentRecord) : String :=
  record.filePath ++ ":" ++ record.name

end ComponentRecord

structure Inventory where
  components : Components
  references : OrderedMap String String
  modules : List String

namespace Inventory

def empty : Inventory := ⟨.empty, .empty, []⟩

def moduleOf? (id : String) : Option String :=
  match Text.cutLast? id "." with
  | some ("", _) => none
  | some (before, _) => some before
  | none => none

def addModule (modules : List String) : Option String → List String
  | some path => if path ∈ modules then modules else modules ++ [path]
  | none => modules

def addRecord (inventory : Inventory) (record : ComponentRecord) : Inventory :=
  if record.id == "" then inventory
  else
    let references := inventory.references.insert record.id record.id
    { components := inventory.components.insert record.id record.toComponent
      references :=
        if record.fileReference ≠ record.id then
          references.insert record.fileReference record.id
        else references
      modules := addModule inventory.modules (moduleOf? record.id) }

def findByName (components : Components) (name : String) : Option String :=
  (components.entries.find? fun entry => entry.2.name == name).map Prod.fst

def calleeId? (inventory : Inventory) (callee : String) : Option String :=
  match inventory.references.get? callee with
  | some id => some id
  | none => findByName inventory.components callee

def addRelation (inventory : Inventory) (relation : Relation) : Inventory :=
  match inventory.references.get? relation.caller, inventory.calleeId? relation.callee with
  | some caller, some callee =>
    { inventory with
      components := inventory.components.modify caller fun component =>
        component.addDependency callee }
  | _, _ => inventory

def build (records : List ComponentRecord) (relations : List Relation) : Inventory :=
  relations.foldl addRelation (records.foldl addRecord empty)

end Inventory

/-! ## Kinds and module paths of single records -/

def recordKind (isMethod : Bool) (nodeKind : String) : String :=
  if isMethod then "method"
  else if ["class", "interface", "struct", "enum", "record", "abstract class", "annotation",
      "delegate"].contains nodeKind then nodeKind
  else "function"

def dropFirstEnding (endings : List String) (text : String) : String :=
  (endings.findSome? fun ending => Text.dropEnding? text ending).getD text

def modulePath (path : String) : String :=
  Text.replace
    (dropFirstEnding [".py", ".js", ".ts", ".java", ".cs", ".cpp", ".hpp", ".h", ".c", ".tsx",
      ".jsx", ".cc", ".mjs", ".cxx", ".cjs"] path)
    "/" "."

end CodeAtlas
