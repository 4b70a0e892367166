import CodeAtlas.Server.Launch
import CodeAtlas.Server.Reply

/-!
A small server that only shows the documents of one folder.
-/

namespace CodeAtlas.Server

structure Reader where
  suggested : Option String := none
  folder : Option String := none
  modules : Json := .null

namespace Reader

def loadModules (folder : String) : Work Json := do
  let path := Path.join folder "module_tree.json"
  if !(← Work.disk).exists? path then
    Work.printLine ("Warning: module_tree.json not found in " ++ Path.clean folder)
    return .null
  try Work.readJson path
  catch _ =>
    Work.printLine "Error loading module_tree.json: "
    return .null

def prepare (reader : Reader) : Work Reader := do
  match reader.folder, reader.suggested with
  | none, some folder =>
    if !folder.isEmpty && (← Work.disk).exists? folder then
      return { reader with folder := some folder, modules := ← loadModules folder }
    else return reader
  | _, _ => return reader

def notConfigured : Reply := .refused 500
  "Documentation folder not configured. Please set DOCS_FOLDER environment variable or run with --docs-folder argument."

def documentOf (reader : Reader) (name title content : String) : Except Fault Page.Document :=
  .ok { title, content, modules := reader.modules, current := name }

def index (reader : Reader) (render : Renderer) : Work Reply := do
  let some folder := reader.folder | return notConfigured
  let path := Path.join folder "overview.md"
  let disk ← Work.disk
  if !disk.exists? path then
    return .refused 404 "overview.md not found in the documentation folder"
  return shown render disk path "overview.md" (reader.documentOf "overview.md")

/-- Whether the text of a place starts with the text of a folder's place. -/
def isInside (folder place : List String) : Bool :=
  Text.startsWith (Disk.pathOf place) (Disk.pathOf folder)

/-- Shows a document by its name. Its place, with all links followed, has to be inside of the
folder. -/
def answer (reader : Reader) (render : Renderer) (disk : Disk) (name : String) : Reply :=
  match reader.folder with
  | none => notConfigured
  | some folder =>
    if !Text.endsWith name ".md" then .refused 404 "Only markdown files are supported"
    else
      match disk.resolve false (Path.join folder name), disk.resolve false folder with
      | .ok place, .ok base =>
        if !isInside base place then .refused 403 "Invalid file path"
        else if !disk.exists? (Disk.pathOf place) then
          .refused 404 ("File " ++ name ++ " not found")
        else shown render disk (Disk.pathOf place) name (reader.documentOf name)
      | _, _ => .refused 403 "Invalid file path"

def document (reader : Reader) (render : Renderer) (name : String) : Work Reply := do
  return reader.answer render (← Work.disk) name

def line : Command.CommandLine :=
  ⟨"visualise_docs.py", [{ name := "docs-folder", kind := .text, required := true },
    { name := "port", kind := .number }, { name := "host", kind := .text },
    { name := "debug", kind := .none }]⟩

def routes : List Route := [
  ("GET", "/", "index"),
  ("GET", "/\x7bfilename:path\x7d", "serve_doc"),
  ("MOUNT", "/static", "static")]

def countModules (modules : Json) : Work Unit := do
  if modules.isTruthy then
    let count ← Work.ofExcept modules.size
    Work.printLine ("🗂️  Found " ++ Decimal.natText count ++ " main modules in module_tree.json")

def choose (reader : Reader) (given : String) : Work (Reader × String) := do
  let shown := Path.clean given
  let disk ← Work.disk
  if !disk.exists? shown then
    Work.printLine ("Error: Documentation folder '" ++ shown ++ "' does not exist")
    throw (.exited 1)
  if !disk.isDirectory shown then
    Work.printLine ("Error: '" ++ shown ++ "' is not a directory")
    throw (.exited 1)
  if !disk.exists? (Path.join shown "overview.md") then
    Work.printLine ("Warning: overview.md not found in '" ++ shown ++ "'")
  let folder := disk.realPath shown
  return ({ reader with folder := some folder, modules := ← loadModules shown }, folder)

def announce (reader : Reader) (folder : String) (launch : Launch) : Work Unit := do
  Work.printLine "📚 Starting documentation server..."
  Work.printLine ("📁 Documentation folder: " ++ folder)
  Work.printLine ("🌐 Server running at: " ++ launch.address)
  Work.printLine "📖 Main page: overview.md"
  countModules reader.modules

/-- Starts the server. The folder is chosen even if the start fails afterwards. -/
def launch (reader : Reader) (interrupted : Bool) (words : List String) :
    Work (Reader × Except Problem Launch) := do
  let arguments ← line.read words
  let (reader, folder) ← reader.choose (arguments.texts.getD "docs-folder" "")
  let launch := Launch.ofArguments "visualise_docs:app" arguments "debug"
  try
    reader.announce folder launch
    awaitEnd interrupted
    return (reader, .ok launch)
  catch problem => return (reader, .error problem)

end Reader

end CodeAtlas.Server
