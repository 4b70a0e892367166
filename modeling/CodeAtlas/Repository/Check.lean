import CodeAtlas.Files.Careful

/-!
Whether a directory can be documented: which of the supported languages it holds, counted by the
endings of file names, and where the output may go.
-/

namespace CodeAtlas.Repository

def languageEndings : List (String × List String) := [
  ("Python", [".py"]),
  ("Java", [".java"]),
  ("JavaScript", [".js", ".jsx"]),
  ("TypeScript", [".ts", ".tsx"]),
  ("C", [".c", ".h"]),
  ("C++", [".cpp", ".hpp", ".cc", ".hh", ".cxx", ".hxx"]),
  ("C#", [".cs"])]

def uncountedFolders : List String := [
  "node_modules", "__pycache__", ".git", "build", "dist", ".venv", "venv", "env", ".env", "target",
  "bin", "obj", ".pytest_cache", ".mypy_cache", ".tox", "coverage", "htmlcov", ".eggs",
  "*.egg-info", "vendor", "bower_components", ".idea", ".vscode", ".gradle", ".mvn"]

def isUncounted (path : String) : Bool := (Path.parts path).any uncountedFolders.contains

def withEnding (disk : Disk) (folder ending : String) : List String :=
  (disk.below folder).filterMap fun entry =>
    if Text.endsWith entry.1 ending then some (Path.below folder entry.1) else none

def countFiles (disk : Disk) (folder : String) (endings : List String) : Nat :=
  (endings.map fun ending =>
    ((withEnding disk folder ending).filter fun path =>
      disk.isFile path && !isUncounted path).length).foldl (· + ·) 0

def languageCounts (disk : Disk) (folder : String) : List (String × Nat) :=
  let counts := languageEndings.map fun (language, endings) =>
    (language, countFiles disk folder endings)
  (counts.filter fun entry => entry.2 > 0).mergeSort fun left right => decide (left.2 ≥ right.2)

def countNamed (disk : Disk) (folder : String) : Nat :=
  (languageEndings.flatMap fun entry =>
    entry.2.map fun ending => (withEnding disk folder ending).length).foldl (· + ·) 0

def refuse {α : Type} (message : String) : Work α := throw (.reported .repository message)

def check (path : String) : Work (String × List (String × Nat)) := do
  let place ← Files.resolved path
  let disk ← Work.disk
  if !disk.exists? place then refuse ("Repository path does not exist: " ++ place)
  if !disk.isDirectory place then refuse ("Repository path is not a directory: " ++ place)
  let counts := languageCounts disk place
  if counts.isEmpty then
    refuse ("No supported code files found in " ++ place ++ "\n\n" ++
      "GatoWiki supports: Python, Java, JavaScript, TypeScript, C, C++, C#\n\n" ++
      "Please navigate to a code repository or specify a custom directory:\n" ++
      "  cd /path/to/your/project\n" ++
      "  gatowiki generate")
  return (place, counts)

def checkOutput (path : String) : Work String := do
  let place ← Files.resolved path
  let disk ← Work.disk
  if disk.exists? place then
    if !disk.isDirectory place then
      refuse ("Output path exists but is not a directory: " ++ place)
  else if !disk.exists? (Path.parent place) then
    refuse ("Parent directory does not exist: " ++ Path.parent place)
  return place

end CodeAtlas.Repository
