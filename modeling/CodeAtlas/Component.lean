import CodeAtlas.Graph.Basic
import CodeAtlas.Json.Access

/-!
Components of source code and the calls between them. A component is a class, function or other
declaration of a file; its dependencies are the components that it uses, without repetition.
-/

namespace CodeAtlas

structure Component where
  id : String
  name : String
  kind : String
  filePath : String
  relativePath : String
  dependsOn : List String := []
  source : Option String := none
  startLine : Int := 0
  endLine : Int := 0
  hasDocstring : Bool := false
  docstring : String := ""
  parameters : Option (List String) := none
  nodeKind : Option String := none
  baseClasses : Option (List String) := none
  className : Option String := none
  displayName : Option String := none
  componentId : Option String := none

/-- One component uses another on some line. The relation is resolved once the callee is known to
be the identifier of a component. -/
structure Relation where
  caller : String
  callee : String
  line : Option Int
  resolved : Bool
deriving DecidableEq

namespace Component

/-- An empty display name counts as none. -/
def title (component : Component) : String :=
  match component.displayName with
  | some display => if display == "" then component.name else display
  | none => component.name

def addDependency (component : Component) (id : String) : Component :=
  if id ∈ component.dependsOn then component
  else { component with dependsOn := component.dependsOn ++ [id] }

def toJson (component : Component) : Json :=
  .object [
    ("id", .text component.id),
    ("name", .text component.name),
    ("component_type", .text component.kind),
    ("file_path", .text component.filePath),
    ("relative_path", .text component.relativePath),
    ("depends_on", .ofStrings (Graph.sorted component.dependsOn)),
    ("source_code", .ofOption .text component.source),
    ("start_line", .int component.startLine),
    ("end_line", .int component.endLine),
    ("has_docstring", .bool component.hasDocstring),
    ("docstring", .text component.docstring),
    ("parameters", .ofOption .ofStrings component.parameters),
    ("node_type", .ofOption .text component.nodeKind),
    ("base_classes", .ofOption .ofStrings component.baseClasses),
    ("class_name", .ofOption .text component.className),
    ("display_name", .ofOption .text component.displayName),
    ("component_id", .ofOption .text component.componentId)]

def ofJson (value : Json) : Component :=
  let text (name : String) : String := (value.get name).asText
  let text? (name : String) : Option String := (value.get name).present? Json.asText
  let texts? (name : String) : Option (List String) := (value.get name).present? Json.asTexts
  { id := text "id"
    name := text "name"
    kind := (text? "component_type").getD "function"
    filePath := text "file_path"
    relativePath := text "relative_path"
    dependsOn := (value.get "depends_on").asTexts
    source := text? "source_code"
    startLine := (value.get "start_line").asInt
    endLine := (value.get "end_line").asInt
    hasDocstring := (value.get "has_docstring").isTruthy
    docstring := text "docstring"
    parameters := texts? "parameters"
    nodeKind := text? "node_type"
    baseClasses := texts? "base_classes"
    className := text? "class_name"
    displayName := text? "display_name"
    componentId := text? "component_id" }

end Component

def Relation.ofJson (value : Json) : Relation :=
  { caller := (value.get "caller").asText
    callee := (value.get "callee").asText
    line := (value.get "call_line").present? Json.asInt
    resolved := (value.get "is_resolved").isTruthy }

def Relation.toJson (relation : Relation) : Json :=
  .object [
    ("caller", .text relation.caller),
    ("callee", .text relation.callee),
    ("call_line", .ofOption .int relation.line),
    ("is_resolved", .bool relation.resolved)]

abbrev Components := OrderedMap String Component

namespace Components

/-- The graph of the components. Only dependencies that are components themselves are edges. -/
def graph (components : Components) : Graph :=
  components.mapValues fun _ component =>
    component.dependsOn.filter fun id => components.contains id

def kinds (components : Components) : OrderedMap String String :=
  components.mapValues fun _ component => component.kind

end Components

end CodeAtlas
