import CodeAtlas.Workspace.Basic

/-!
Finding the files of an analysis: the tree of modules and the dependency graph. They may lie in one
of several directories, also further down in it, and their names may start with that of a project.
-/

namespace CodeAtlas.Wiki

structure FoundFile where
  path : String
  note : String

namespace AnalysisFiles

def treeName : String := "module_tree.json"

def graphName : String := "dependency_graph.json"

def withProject? (disk : Disk) (folder name : String) : Option String := do
  if disk.isDirectory folder then
    let names ← (disk.list folder).toOption
    let found ← names.find? fun known => Text.endsWith known ("_" ++ name)
    return Path.below folder found
  else none

def tree? (disk : Disk) (folder : String) : Option FoundFile :=
  let plain := Path.below folder treeName
  let temp := Path.below folder "temp"
  if disk.exists? plain then some ⟨plain, ""⟩
  else if disk.exists? (Path.below temp treeName) then
    some ⟨Path.below temp treeName, " (in temp/)"⟩
  else
    match withProject? disk temp treeName with
    | some path => some ⟨path, " (with prefix in temp/)"⟩
    | none => (withProject? disk folder treeName).map fun path => ⟨path, " (with prefix)"⟩

def graphFolders (folder : String) : List (String × String × String) := [
  (Path.below (Path.below folder "temp") "dependency_graphs", "temp/dependency_graphs/",
    " (with prefix in temp/dependency_graphs/)"),
  (Path.below folder "dependency_graphs", "dependency_graphs/", " (with prefix in subdir)")]

/-- Looks through directories one after the other until one has a graph; gives the names of those
that are there and were looked through. -/
def lookThrough (disk : Disk) : List (String × String × String) → List String × Option FoundFile
  | [] => ([], none)
  | (folder, name, note) :: rest =>
    if disk.exists? folder then
      match withProject? disk folder graphName with
      | some path => ([name], some ⟨path, note⟩)
      | none =>
        let (names, found) := lookThrough disk rest
        (name :: names, found)
    else lookThrough disk rest

def graph (disk : Disk) (folder : String) (deep : Bool) : List String × Option FoundFile :=
  let plain := Path.below folder graphName
  if disk.exists? plain then ([], some ⟨plain, ""⟩)
  else
    let (names, found) := if deep then lookThrough disk (graphFolders folder) else ([], none)
    match found with
    | some file => (names, some file)
    | none =>
      (names, (withProject? disk folder graphName).map fun path => ⟨path, " (with prefix)"⟩)

/-! ## A search that tells what it finds -/

def places : List (String × Bool) :=
  [("temp", true), ("docs", true), ("wiki", false), (".codewiki", false), (".", false)]

def tell (found : Option FoundFile) : Work Unit :=
  match found with
  | some file => Work.printLine ("  ✓ Found" ++ file.note ++ ": " ++ Path.name file.path)
  | none => return

def searchPlace (folder : String) (deep : Bool) : Work (Option FoundFile × Option FoundFile) := do
  Work.printLine ("🔍 Searching in: " ++ folder)
  let disk ← Work.disk
  let tree := tree? disk folder
  tell tree
  let (names, graph) := graph disk folder deep
  for name in names do
    Work.printLine ("  📁 Checking subdirectory: " ++ name)
  tell graph
  return (tree, graph)

def searchPlaces (base : String) : List (String × Bool) → Work (Option (String × String))
  | [] => do
    Work.printLine "\n❌ Analysis files not found in any location"
    return none
  | (place, deep) :: rest => do
    let folder := Path.below base place
    if !(← Work.disk).exists? folder then searchPlaces base rest
    else
      match ← searchPlace folder deep with
      | (some tree, some graph) =>
        Work.printLine ("\n✅ SUCCESS! Found both files in: " ++ place ++ "/")
        Work.printLine ("   Module tree:      " ++ tree.path)
        Work.printLine ("   Dependency graph: " ++ graph.path)
        return some (tree.path, graph.path)
      | (none, none) => searchPlaces base rest
      | (tree, _) =>
        Work.printLine ("  ⚠️  Incomplete: Only found " ++
          (if tree.isSome then "module_tree" else "dependency_graph"))
        searchPlaces base rest

def search (base : String) : Work (Option (String × String)) := searchPlaces base places

def rule : String := Text.repeated 70 "="

def inspect (tree graph : String) : Work Unit := do
  let modules ← Work.ofExcept (← Work.readJson tree).size
  Work.printLine ("\n✓ Module tree loaded: " ++ Decimal.natText modules ++ " top-level modules")
  let components ← Work.ofExcept (← Work.readJson graph).size
  Work.printLine ("✓ Dependency graph loaded: " ++ Decimal.natText components ++ " components")
  Work.printLine "\n🎉 Files are valid and ready for documentation generation!"

def demonstrate : Work Unit := do
  Work.printLine (rule ++ "\nCodeWiki File Detection Test\n" ++ rule)
  Work.printLine ("\nThis test demonstrates the intelligent file detection that supports:\n" ++
    "  ✓ CodeWiki default output (temp/dependency_graphs/ProjectName_*.json)\n" ++
    "  ✓ Standard names (dependency_graph.json)\n" ++
    "  ✓ Project-prefixed names (ProjectName_dependency_graph.json)\n" ++
    "  ✓ Files in subdirectories (docs/dependency_graphs/)\n" ++
    "  ✓ Multiple search locations (temp/, docs/, wiki/, .codewiki/, ./)\n\n" ++
    Text.repeated 70 "-" ++ "\n")
  match ← search "." with
  | some (tree, graph) =>
    Work.printLine ("\n" ++ rule ++ "\n📊 File Analysis\n" ++ rule)
    tryCatch (inspect tree graph) fun problem =>
      Work.printLine ("\n⚠️  Warning: Could not parse files: " ++ problem.message)
  | none =>
    Work.printLine ("\n💡 No analysis files found. The agent would:\n" ++
      "   1. Install CodeWiki automatically\n   2. Run analysis on your repository\n" ++
      "   3. Generate the documentation")
  Work.printLine ("\n" ++ rule)

end AnalysisFiles

end CodeAtlas.Wiki
