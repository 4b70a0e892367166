import CodeAtlas.CallGraph.Basic
import CodeAtlas.Language

/-!
Two pictures of a call graph: elements for a graph viewer, one for each component and one for each
resolved call, and a plain summary by component name.
-/

namespace CodeAtlas.CallGraph

structure NodeElement where
  id : String
  label : String
  file : String
  kind : String
  language : String
  classes : List String

structure EdgeElement where
  id : String
  source : String
  target : String
  line : Option Int

def languageClass : String → Option String
  | ".py" => some "lang-python"
  | ".js" => some "lang-javascript"
  | ".ts" => some "lang-typescript"
  | ".c" | ".h" => some "lang-c"
  | ".cpp" | ".cc" | ".cxx" | ".hpp" | ".hxx" => some "lang-cpp"
  | _ => none

def nodeElement (id : String) (component : Component) : NodeElement :=
  let extension := Text.lower (Path.suffix component.filePath)
  let shape := if component.nodeKind = some "method" then "node-method" else "node-function"
  let kind :=
    match component.nodeKind with
    | some "" | none => "function"
    | some kind => kind
  { id := id
    label := component.name
    file := component.filePath
    kind := kind
    language := (languageOfExtension? extension).getD "unknown"
    classes := shape :: (languageClass extension).toList }

def nodeElements (graph : CallGraph) : List NodeElement :=
  graph.functions.entries.map fun entry => nodeElement entry.1 entry.2

def resolvedRelations (graph : CallGraph) : List Relation :=
  graph.relations.filter Relation.resolved

def edgeElement (relation : Relation) : EdgeElement :=
  { id := relation.caller ++ "->" ++ relation.callee
    source := relation.caller
    target := relation.callee
    line := relation.line }

def edgeElements (graph : CallGraph) : List EdgeElement :=
  graph.resolvedRelations.map edgeElement

def NodeElement.toJson (element : NodeElement) : Json :=
  .object [
    ("data", .object [
      ("id", .text element.id),
      ("label", .text element.label),
      ("file", .text element.file),
      ("type", .text element.kind),
      ("language", .text element.language)]),
    ("classes", .text (Text.join " " element.classes))]

def EdgeElement.toJson (element : EdgeElement) : Json :=
  .object [
    ("data", .object [
      ("id", .text element.id),
      ("source", .text element.source),
      ("target", .text element.target),
      ("line", .ofOption .int element.line)]),
    ("classes", .text "edge-call")]

def picture (graph : CallGraph) : Json :=
  let edges := graph.edgeElements
  .object [
    ("cytoscape", .object [
      ("elements", .list (graph.nodeElements.map (·.toJson) ++ edges.map (·.toJson)))]),
    ("summary", .object [
      ("total_nodes", .nat graph.functions.size),
      ("total_edges", .nat edges.length),
      ("unresolved_calls", .nat (graph.relations.length - edges.length))])]

/-! ## The plain summary -/

def afterColon (reference : String) : String :=
  ((Text.split reference ":").getLast?).getD reference

def callsOf (graph : CallGraph) (name : String) : List Relation :=
  graph.relations.filter fun relation => Text.endsWith relation.caller name

def callersOf (graph : CallGraph) (name : String) : List Relation :=
  graph.relations.filter fun relation => Text.endsWith relation.callee name

def functionSummary (graph : CallGraph) (component : Component) : Json :=
  let purpose :=
    if component.docstring == "" then Json.null
    else .text ((Text.split component.docstring "\n").headD "")
  .object [
    ("name", .text component.name),
    ("file", .text (Path.name component.filePath)),
    ("purpose", purpose),
    ("parameters", .ofOption .ofStrings component.parameters),
    ("is_recursive", .bool
      ((graph.callsOf component.name).any fun relation => relation.callee == component.name))]

def relationSummary (graph : CallGraph) (name : String) : Json :=
  .object [
    ("calls", .ofStrings
      (((graph.callsOf name).filter Relation.resolved).map fun relation =>
        afterColon relation.callee)),
    ("called_by", .ofStrings
      (((graph.callersOf name).filter Relation.resolved).map fun relation =>
        afterColon relation.caller))]

def summary (graph : CallGraph) : Json :=
  let components := graph.functions.values
  .object [
    ("functions", .list (components.map graph.functionSummary)),
    ("relationships", .object (Json.Members.ofPairs
      (components.map fun component => (component.name, graph.relationSummary component.name))))]

end CodeAtlas.CallGraph
