import CodeAtlas.CallGraph.Picture
import CodeAtlas.Source.Analysis

/-!
The call graph of a list of source files. The components of all files are gathered first; then the
callees are looked up among them.
-/

namespace CodeAtlas.CallGraph

structure SourceFile where
  language : String
  source : Source

def componentKey (path : String) (component : Component) : String :=
  if component.id == "" then path ++ ":" ++ component.name else component.id

def addFindings (graph : CallGraph) (path : String) (findings : Findings) : CallGraph :=
  ⟨findings.components.foldl (fun functions component =>
      functions.insert (componentKey path component) component) graph.functions,
    graph.relations ++ findings.relations⟩

def addFile (parsers : Parsers) (graph : CallGraph) (file : SourceFile) : CallGraph :=
  match file.source.analyze parsers file.language with
  | .ok findings => graph.addFindings file.source.path findings
  | .error _ => graph

def gather (parsers : Parsers) (files : List SourceFile) : CallGraph :=
  files.foldl (addFile parsers) .empty

def ofFiles (parsers : Parsers) (files : List SourceFile) : CallGraph :=
  (gather parsers files).resolve.deduplicate

end CodeAtlas.CallGraph
