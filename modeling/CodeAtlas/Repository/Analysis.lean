import CodeAtlas.CallGraph.Files
import CodeAtlas.Json.Equality
import CodeAtlas.Repository.CodeFile
import CodeAtlas.Repository.Reading
import CodeAtlas.Repository.Structure

/-!
The analysis of a repository on a disk: its structure, and the call graph of its code files.
-/

namespace CodeAtlas.Repository

/-- The structure of the directory at a path; there is none for a link, a missing path or a name
that is left out. -/
def structureAt (selection : Selection) (disk : Disk) (path : String) : Except Fault Structure :=
  match (disk.entry? path).bind (analyze? selection (Path.name path)) with
  | some found => return found
  | none => throw .wrongKind

def sourceFile? (disk : Disk) (base : String) (file : CodeFile) : Option CallGraph.SourceFile :=
  let path := Path.below base file.path
  match readInside disk base path with
  | .ok text => some ⟨file.language, ⟨Path.clean path, base, text⟩⟩
  | .error _ => none

def callGraph (parsers : Parsers) (disk : Disk) (base : String) (files : List CodeFile) :
    CallGraph :=
  .ofFiles parsers (files.filterMap (sourceFile? disk base))

def languagesOf (files : List CodeFile) : List String :=
  Graph.sorted (files.map (·.language)).eraseDups

def analyzedLanguages : List String :=
  ["python", "javascript", "typescript", "java", "csharp", "c", "cpp"]

structure Calls where
  graph : CallGraph
  files : List CodeFile
  unsupported : Nat

namespace Calls

def ofStructure (parsers : Parsers) (disk : Disk) (base : String) (found : Structure) :
    Except Fault Calls := do
  let files ← codeFiles found.toJson
  let supported := files.filter (·.isSupported)
  return ⟨callGraph parsers disk base supported, supported, files.length - supported.length⟩

def counts (calls : Calls) : Json.Members :=
  [("total_functions", .nat calls.graph.functions.size),
    ("total_calls", .nat calls.graph.relations.length),
    ("languages_found", .ofStrings (languagesOf calls.files)),
    ("files_analyzed", .nat calls.files.length),
    ("analysis_approach", .text "complete_unlimited"),
    ("supported_languages", .ofStrings analyzedLanguages),
    ("unsupported_files", .nat calls.unsupported)]

def components (calls : Calls) : Json :=
  .list (calls.graph.functions.values.map (·.toJson))

def relations (calls : Calls) : Json :=
  .list (calls.graph.relations.map (·.toJson))

def report (calls : Calls) : Json.Members :=
  [("call_graph", .object calls.counts), ("functions", calls.components),
    ("relationships", calls.relations), ("visualization", calls.graph.picture)]

end Calls

def fullReport (parsers : Parsers) (disk : Disk) (base : String) (found : Structure)
    (address owner name : String) : Except Fault Json := do
  let calls ← Calls.ofStructure parsers disk base found
  return .object [
    ("repository", .object [("url", .text address), ("name", .text name),
      ("clone_path", .text base), ("analysis_id", .text (owner ++ "-" ++ name))]),
    ("functions", calls.components),
    ("relationships", calls.relations),
    ("file_tree", found.toJson),
    ("summary", .object (found.summary ++ calls.counts ++ [("analysis_type", .text "full"),
      ("languages_analyzed", .ofStrings (languagesOf calls.files))])),
    ("visualization", calls.graph.picture),
    ("readme_content", .ofOption .text (readme? disk base))]

/-! ## A part of a repository -/

/-- Whether a language is wanted: it is in a list, a part of a text or a name in an object. -/
def isWanted (wanted : Json) (language : String) : Except Fault Bool :=
  match wanted with
  | .text written => return Text.contains written language
  | .list items => return items.any fun item => item.equals (.text language)
  | .object members => return (members.lookup language).isSome
  | _ => throw .wrongKind

/-- The files of wanted languages; nothing wanted in particular keeps all. -/
def keepLanguages (wanted : Json) (files : List CodeFile) : Except Fault (List CodeFile) :=
  if wanted.isTruthy then files.filterM fun file => isWanted wanted file.language
  else return files

/-- The first files up to a limit; a negative limit leaves out that many at the end. -/
def keepFirst (limit : Json) (files : List CodeFile) : Except Fault (List CodeFile) :=
  let cut (count : Int) : List CodeFile :=
    if (files.length : Int) > count then CallGraph.takeSigned count files else files
  match limit with
  | .int count => return cut count
  | .bool value => return cut (if value then 1 else 0)
  | .float count => if files.length.toFloat > count then throw .wrongKind else return files
  | _ => throw .wrongKind

def analyzePart (parsers : Parsers) (disk : Disk) (base : String) (wanted limit : Json) :
    Except Fault Json := do
  let found ← structureAt (.of none none) disk base
  let files ← keepFirst limit (← keepLanguages wanted (← codeFiles found.toJson))
  let calls : Calls := ⟨callGraph parsers disk base files, files, 0⟩
  return .object [
    ("nodes", calls.components), ("relationships", calls.relations),
    ("summary", .object [("total_files", .nat files.length),
      ("total_nodes", .nat calls.graph.functions.size),
      ("total_relationships", .nat calls.graph.relations.length)])]

end CodeAtlas.Repository
