import CodeAtlas.Disk.Basic
import CodeAtlas.Glob
import CodeAtlas.Language
import CodeAtlas.Text.Case

/-!
The structure of a repository: its files and directories without links, without what the exclusion
patterns match, and with only those files that an inclusion pattern matches. A directory with
nothing in it is left out, the root apart.
-/

namespace CodeAtlas.Repository

def defaultIgnored : List String :=
  [".github", ".vscode", ".git", ".gitignore", ".gitmodules", "examples", "*.pyc", "*.pyo",
    "*.pyd", "__pycache__", ".pytest_cache", ".coverage", ".tox", ".nox", ".mypy_cache",
    ".ruff_cache", ".hypothesis", "poetry.lock", "Pipfile.lock", "package-lock.json",
    "yarn.lock", ".npm", ".yarn", ".pnpm-store", "bun.lock", "bun.lockb", "*.class", "*.jar",
    "*.war", "*.ear", "*.nar", ".gradle/", ".settings/", ".classpath", "gradle-app.setting",
    "*.gradle", ".project", "*.o", "*.obj", "*.dll", "*.dylib", "*.exe", "*.lib", "*.out", "*.a",
    "*.pdb", "*.suo", "*.user", "*.userosscache", "*.sln.docstates", "*.nupkg", "bin/", ".svn",
    ".hg", ".gitattributes", "*.svg", "*.png", "*.jpg", "*.jpeg", "*.gif", "*.ico", "*.pdf",
    "*.mov", "*.mp4", "*.mp3", "*.wav", "venv", ".venv", "env", ".env", "virtualenv", ".idea",
    ".vs", "*.swo", "*.swn", "*.sublime-*", "*.log", "*.bak", "*.swp", "*.tmp", "*.temp",
    ".cache", ".sass-cache", ".DS_Store", "Thumbs.db", "desktop.ini", "*.egg-info", "*.egg",
    "*.whl", "*.so", ".docusaurus", "*.min.js", "*.min.css", "*.map", ".terraform", "*.tfstate*",
    "digest.txt", "*.ini", "tests", "test", "Tests", "Test", "Examples"]

def defaultIncluded : List String :=
  ["*.py", "*.js", "*.ts", "*.jsx", "*.tsx", "*.java", "*.cpp", "*.c", "*.h", "*.cs", "*.go",
    "*.rs", "*.php", "*.rb", "*.swift", "*.kt", "*.scala", "*.clj", "*.hs", "*.ml", "*.html",
    "*.css", "*.scss", "*.sass", "*.json", "*.yaml", "*.yml", "*.xml", "*.md", "*.txt", "*.toml",
    "*.cfg", "*.ini"]

structure Selection where
  included : List String
  excluded : List String

/-- The default patterns; given inclusion patterns replace the default ones, given exclusion
patterns are added. -/
def Selection.of (included excluded : Option (List String)) : Selection :=
  ⟨included.getD defaultIncluded, defaultIgnored ++ excluded.getD []⟩

/-- Whether a pattern leaves out a path with a name: it matches one of them, or is the path, a
directory above it or one of its parts. A pattern that ends in a slash leaves out every path that
starts with the text before it. -/
def excludes (path name pattern : String) : Bool :=
  Glob.isMatch path pattern || Glob.isMatch name pattern ||
    (Text.endsWith pattern "/" && Text.startsWith path (Text.stripRightChars pattern ['/'])) ||
    Text.startsWith path (pattern ++ "/") || path == pattern ||
    (Text.split path "/").contains pattern

def Selection.leavesOut (selection : Selection) (path name : String) : Bool :=
  selection.excluded.any (excludes path name)

/-- No inclusion pattern at all includes everything. -/
def Selection.takesIn (selection : Selection) (path name : String) : Bool :=
  selection.included.isEmpty ||
    selection.included.any fun pattern => Glob.isMatch path pattern || Glob.isMatch name pattern

inductive Structure where
  | file (name path : String) (size : Nat)
  | directory (name path : String) (children : List Structure)
deriving Inhabited

def Selection.file? (selection : Selection) (name path : String) (size : Nat) :
    Option Structure :=
  if !selection.leavesOut path name && selection.takesIn path name then
    some (.file name path size)
  else none

def childPath (path name : String) : String :=
  if path == "." then name else path ++ "/" ++ name

mutual

def structure? (selection : Selection) (name path : String) : FileTree → Option Structure
  | .file text => selection.file? name path text.utf8ByteSize
  | .bytes content => selection.file? name path content.length
  | .directory entries =>
    if selection.leavesOut path name then none
    else
      let children := structures selection path entries
      if children.isEmpty && path ≠ "." then none else some (.directory name path children)
  | _ => none

def structures (selection : Selection) (path : String) :
    List (String × FileTree) → List Structure
  | [] => []
  | (name, tree) :: rest =>
    (structure? selection name (childPath path name) tree).toList ++
      structures selection path rest

end

def analyze? (selection : Selection) (name : String) (tree : FileTree) : Option Structure :=
  structure? selection name "." tree

namespace Structure

mutual

def files : Structure → List (String × String × Nat)
  | .file name path size => [(name, path, size)]
  | .directory _ _ children => filesOf children

def filesOf : List Structure → List (String × String × Nat)
  | [] => []
  | child :: rest => files child ++ filesOf rest

end

mutual

/-- The total size in units of 1024 bytes: the sizes of the children are added up from left to
right. -/
def kilobytes : Structure → Float
  | .file _ _ size => size.toFloat / 1024
  | .directory _ _ children => kilobytesOf 0 children

def kilobytesOf (total : Float) : List Structure → Float
  | [] => total
  | child :: rest => kilobytesOf (total + kilobytes child) rest

end

mutual

def toJson : Structure → Json
  | .file name path size =>
    .object [("type", .text "file"), ("name", .text name), ("path", .text path),
      ("extension", .text (Path.suffix name)), ("_size_bytes", .nat size)]
  | .directory name path children =>
    .object [("type", .text "directory"), ("name", .text name), ("path", .text path),
      ("children", .list (toJsons children))]

def toJsons : List Structure → List Json
  | [] => []
  | child :: rest => toJson child :: toJsons rest

end

/-- Without any file the size is a whole zero. -/
def summary (found : Structure) : Json.Members :=
  [("total_files", .nat found.files.length),
    ("total_size_kb", if found.files.isEmpty then .int 0 else .float found.kilobytes)]

def report (found : Structure) : Json :=
  .object [("file_tree", found.toJson), ("summary", .object found.summary)]

end Structure

end CodeAtlas.Repository
