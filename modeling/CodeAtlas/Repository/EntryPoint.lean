import CodeAtlas.CallGraph.Basic
import CodeAtlas.Json.Equality

/-!
Files and functions that stand out by their names: entry points, files that much else is connected
to, and critical functions. All tests are on lowercase texts.
-/

namespace CodeAtlas.EntryPoint

def fileNames : List String :=
  ["__main__.py", "app.c", "app.cpp", "app.go", "app.js", "app.py", "app.rs", "app.ts",
    "asgi.py", "bin.rs", "bootstrap.js", "bootstrap.ts", "cmd.go", "entry.c", "entry.cpp",
    "entry.js", "entry.ts", "gunicorn.py", "index.js", "index.ts", "lib.rs", "main.c", "main.cc",
    "main.cpp", "main.cxx", "main.go", "main.js", "main.py", "main.rs", "main.ts", "manage.py",
    "root.go", "run.py", "server.go", "server.js", "server.py", "server.rs", "server.ts",
    "start.c", "start.cpp", "start.go", "start.js", "start.py", "start.rs", "start.ts",
    "wsgi.py"]

def pathParts : List String :=
  ["cmd/main", "cmd/root", "cmd/server", "src/main", "src/app", "src/server", "bin/main",
    "bin/app", "bin/server", "app/main", "app/server", "app/start", "scripts/start",
    "scripts/run"]

def nameParts : List String :=
  ["main", "app", "server", "start", "run", "entry", "bootstrap", "init", "cmd", "cli", "daemon",
    "service", "worker", "launcher"]

def connectedParts : List String :=
  ["actix", "api", "base", "buffer", "cache", "client", "color", "common", "config", "console",
    "constants", "controller", "convert", "core", "database", "db", "display", "draw", "engine",
    "entity", "express", "fastapi", "file", "format", "gin", "global", "graphic", "grid",
    "handler", "helper", "helpers", "index", "interfaces", "io", "layout", "lib", "list", "main",
    "manager", "middleware", "mod", "model", "module", "package", "paint", "parse", "parser",
    "pkg", "process", "processor", "render", "repo", "repository", "rocket", "router", "service",
    "settings", "shared", "store", "stream", "style", "table", "text", "theme", "transform",
    "tree", "types", "util", "utils", "visual", "widget"]

def sourceDirectories : List String :=
  ["src/", "lib/", "core/", "pkg/", "cmd/", "internal/", "crates/", "modules/", "include/",
    "source/", "components/", "services/", "utils/"]

def criticalNames : List String :=
  ["app", "index", "init", "main", "new", "run", "server", "start"]

def exportMarks : List String :=
  ["export default", "module.exports =", "exports.", "pub fn main", "pub fn new", "pub fn",
    "func main", "func new", "int main", "void main", "public static void main",
    "if __name__ == \"__main__\""]

def functionForms (language : String) : List String :=
  match Text.lower language with
  | "python" => ["def \x7bname\x7d"]
  | "javascript" | "typescript" => ["function \x7bname\x7d", "const \x7bname\x7d", "export \x7bname\x7d"]
  | "go" => ["func \x7bname\x7d"]
  | "rust" => ["fn \x7bname\x7d", "pub fn \x7bname\x7d"]
  | "c" | "cpp" => ["void \x7bname\x7d", "int \x7bname\x7d", "\x7bname\x7d("]
  | _ => ["\x7bname\x7d("]

def codeEndings : List String := [".py", ".js", ".ts", ".go", ".rs", ".c", ".cpp"]

def isFileName (name : String) : Bool :=
  let name := Text.lower name
  fileNames.contains name || (Text.containsAny name nameParts && Text.containsAny name codeEndings)

def isPath (path : String) : Bool :=
  Text.containsAny (Text.lower path) pathParts

def isConnected (name path : String) : Bool :=
  let name := Text.lower name
  let path := Text.lower path
  Text.containsAny name connectedParts || Text.containsAny path connectedParts ||
    Text.containsAny path sourceDirectories

def isCritical (name : String) (snippet : Option String) : Bool :=
  criticalNames.contains (Text.lower name) ||
    match snippet with
    | some snippet => Text.containsAny (Text.lower snippet) exportMarks
    | none => false

/-! ## Substitutes when nothing stands out -/

structure ListedFile where
  name : String
  path : String
  details : Json

def textMember (record : Json) (name : String) : Except Fault String := do
  match ← record.need name with
  | .text value => return value
  | _ => throw .noSuchMember

def ListedFile.ofJson (record : Json) : Except Fault ListedFile := do
  return ⟨← textMember record "name", ← textMember record "path", record⟩

/-- The lower the better: short paths, names of entry points, common endings. -/
def rank (file : ListedFile) : Int :=
  let name := Text.lower file.name
  let depth : Int := Text.count file.path "/"
  let named : Int := if Text.containsAny name ["main", "app", "index"] then 10 else 0
  let ending : Int := if Text.containsAny name [".py", ".js", ".go", ".rs"] then 5 else 0
  0 - depth - named - ending

/-- Files that could be entry points: those named like one, or else those near the root. -/
def substitutes (limit : Int) (files : List ListedFile) : List ListedFile :=
  let named := files.filter fun file =>
    Text.containsAny (Text.lower file.name) ["main", "app", "server", "start", "index"] ||
      isPath file.path
  let chosen := if named.isEmpty then files.filter fun file => Text.count file.path "/" ≤ 1 else named
  CallGraph.takeSigned limit (chosen.mergeSort fun left right => decide (rank left ≤ rank right))

def substituteRecords (limit : Int) (records : List Json) : Except Fault (List Json) := do
  return (substitutes limit (← records.mapM ListedFile.ofJson)).map ListedFile.details

def addSources (chosen : List Json) : List Json → Except Fault (List Json)
  | [] => return chosen
  | record :: rest => do
    if chosen.any record.equals then addSources chosen rest
    else
      let name := Text.lower (← textMember record "name")
      let isSource := Text.containsAny name codeEndings &&
        !Text.containsAny name ["test", "spec", "_test"]
      addSources (if isSource then chosen ++ [record] else chosen) rest

/-- Records of files that are likely to be connected to much: those in source directories and, as
long as there are too few, other sources. -/
def connectedRecords (limit : Int) (records : List Json) : Except Fault (List Json) := do
  let inside ← records.filterM fun record => do
    let path ← textMember record "path"
    return Text.containsAny (Text.lower path) ["src/", "lib/", "app/", "pkg/", "core/"]
  let chosen ← if (inside.length : Int) < limit then addSources inside records else pure inside
  return CallGraph.takeSigned limit chosen

end CodeAtlas.EntryPoint
