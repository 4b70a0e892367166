import CodeAtlas.CallGraph.Build
import CodeAtlas.Command.Options
import CodeAtlas.Graph.Leaves
import CodeAtlas.Module.Clustering
import CodeAtlas.Repository.Analysis
import CodeAtlas.Repository.Output

/-!
The files with the components and modules of a repository: the dependency graph, the tree of
modules and a description of the analysis.
-/

namespace CodeAtlas.Repository

def inventory (parsers : Parsers) (disk : Disk) (path : String) : Except Fault Inventory := do
  let found ← structureAt (.of none none) disk path
  let calls ← Calls.ofStructure parsers disk path found
  return .build (calls.graph.functions.values.map .ofComponent) calls.graph.relations

def keepLeaves (components : Components) (leaves : List String) : List String :=
  let usual := ["class", "interface", "struct"]
  let kinds :=
    if components.values.any fun component => usual.contains component.kind then usual
    else usual ++ ["function"]
  leaves.filter fun leaf =>
    Graph.isPlausibleId leaf &&
      (components.get? leaf).any fun component => kinds.contains component.kind

def writeGraph (parsers : Parsers) (output : Output) : Work (Components × List String) := do
  Work.makeDirectories output.graphs
  let path ← Work.absolutePath output.repository
  let components := (← Work.ofExcept (inventory parsers (← Work.disk) path)).components
  Work.writeText output.graphFile
    ((Json.object (components.entries.map fun (id, component) => (id, component.toJson))).render
      ⟨some 2, false⟩)
  let leaves := components.graph.leaves components.kinds
  return (components, keepLeaves components leaves)

def description (output : Output) (commit : Option String) (time : String)
    (components leaves : Nat) : Json :=
  .object [
    ("analysis_info", .object [("timestamp", .text time),
      ("generator_version", .text "2.0.0-copilot"), ("repo_path", .text output.repository),
      ("commit_id", .ofOption .text commit)]),
    ("statistics", .object [("total_components", .nat components), ("leaf_nodes", .nat leaves),
      ("max_depth", .nat output.depth)]),
    ("analysis_files", .ofStrings ["module_tree.json", "first_module_tree.json"]),
    ("note", .text
      "Documentation generation is handled by GitHub Copilot agents via chat interface")]

def moduleTree (components : Components) (leaves : List String) : Json :=
  let table := Clustering.cluster leaves (components.mapValues fun _ component => component.relativePath)
  .object (table.entries.map fun (name, entry) => (name, entry.toJson))

/-- Writes all files of the analysis. A tree of modules that is there already is kept. -/
def writeModules (parsers : Parsers) (output : Output) (commit : Option String) (time : String) :
    Work String := do
  let (components, leaves) ← writeGraph parsers output
  let folder ← Work.absolutePath output.docs
  Work.makeDirectories folder
  let first := Path.join folder "first_module_tree.json"
  let tree ←
    match ← Work.loadJson? first with
    | some tree => pure tree
    | none => do
      let tree := moduleTree components leaves
      Work.saveJson tree first
      pure tree
  Work.saveJson tree (Path.join folder "module_tree.json")
  let _ ← Work.ofExcept tree.size
  Work.saveJson (description output commit time components.size leaves.length)
    (Path.join folder "analysis_metadata.json")
  return folder

/-! ## The command line of the analysis -/

def analysisLine : Command.CommandLine :=
  ⟨"main.py", [{ name := "repo-path", kind := .text, required := true }]⟩

/-- Writes the module files of the repository that is named. What comes out is a path, where work
still to be done is expected: the run always ends with a fault, after all files are written. -/
def analyzeCommand (parsers : Parsers) (time : String) (words : List String) : Work Unit := do
  let arguments ← analysisLine.read words
  let _ ← writeModules parsers (.shared (arguments.texts.getD "repo-path" "")) none time
  throw (.fault .wrongKind)

end CodeAtlas.Repository
