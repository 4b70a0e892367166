import CodeAtlas.Path
import CodeAtlas.Json.Basic
import CodeAtlas.Text.Word

/-!
Where the results of an analysis go.
-/

namespace CodeAtlas.Repository

structure Output where
  repository : String
  folder : String
  graphs : String
  docs : String
  depth : Nat
deriving DecidableEq

namespace Output

def maxDepth : Nat := 2

def plainName (path : String) : String :=
  String.ofList ((Path.baseName (Path.normalize path)).toList.map fun char =>
    if Text.isAlphanumeric char then char else '_')

def shared (repository : String) : Output :=
  { repository
    folder := "output"
    graphs := "output/dependency_graphs"
    docs := "output/docs/" ++ plainName repository ++ "-docs"
    depth := maxDepth }

def inFolder (repository docs : String) : Output :=
  let folder := Path.join docs "temp"
  { repository
    folder
    graphs := Path.join folder "dependency_graphs"
    docs
    depth := maxDepth }

def graphFile (output : Output) : String :=
  Path.join output.graphs (plainName output.repository ++ "_dependency_graph.json")

def toJson (output : Output) : Json :=
  .object [("repo_path", .text output.repository), ("output_dir", .text output.folder),
    ("dependency_graph_dir", .text output.graphs), ("docs_dir", .text output.docs),
    ("max_depth", .nat output.depth)]

end Output

end CodeAtlas.Repository
