import CodeAtlas.Files.Careful
import CodeAtlas.Json.Diagnosis
import CodeAtlas.Site.Facts

/-!
The page that shows a documentation in a browser without a server: a template whose marks are
replaced by what belongs to the documentation.
-/

namespace CodeAtlas.Site

/-- What a page is made from. What is not given is looked for in the documentation folder. -/
structure Viewer where
  title : String
  modules : Option Json := none
  repository : Option String := none
  settings : Option Json := none
  folder : Option String := none
  description : Option Json := none

def plainModules : Json :=
  .object [("Overview", .object [("description", .text "Repository overview"),
    ("components", .list []), ("children", .object [])])]

def loadModules (folder : String) : Work Json := do
  let path := Path.below folder "module_tree.json"
  if !(← Work.disk).exists? path then return plainModules
  let text ← tryCatch (Files.read path) fun problem => do
    match problem with
    | .reported _ message detail => Files.report ("Failed to load module tree: " ++ message) detail
    | problem => throw problem
  match Json.parse? text with
  | some value => return value
  | none =>
    Files.report "Failed to load module tree: " ((Json.diagnose? text).getD "")

/-- The description of the generation in a documentation folder; one that cannot be read counts as
missing. -/
def loadDescription? (folder : String) : Work (Option Json) := do
  let path := Path.below folder "metadata.json"
  if !(← Work.disk).exists? path then return none
  try return (Json.parse? (← Files.read path)).bind (Json.present? id)
  catch _ => return none

/-- A template with each mark replaced by its value, one mark after the other. -/
def fillMarks (marks : List (String × String)) (template : String) : String :=
  marks.foldl (fun page (mark, value) =>
    Text.replace page ("\x7b\x7b" ++ mark ++ "\x7d\x7d") value) template

def repositoryLink : Option String → String
  | some address =>
    if address.isEmpty then ""
    else "<a href=\"" ++ address ++ "\" class=\"repo-link\" target=\"_blank\">🔗 View Repository</a>"
  | none => ""

def basePath (folder : Option String) (page : String) : String :=
  match folder with
  | some folder =>
    if Path.parent page == Path.clean folder then "" else Path.clean (Path.name folder)
  | none => ""

/-- The marks of a template and their values, in the order in which they are replaced. -/
def Viewer.marks (viewer : Viewer) (facts page : String) : List (String × String) :=
  let written (value : Json) := value.render (Json.indented 2)
  let description := viewer.description.getD .null
  [("TITLE", Markup.escape viewer.title),
    ("REPO_LINK", repositoryLink viewer.repository),
    ("SHOW_INFO", if facts.isEmpty then "none" else "block"),
    ("INFO_CONTENT", facts),
    ("CONFIG_JSON", written (viewer.settings.getD (.object []))),
    ("MODULE_TREE_JSON", written (viewer.modules.getD (.object []))),
    ("METADATA_JSON", if description.isTruthy then written description else "null"),
    ("DOCS_BASE_PATH", basePath viewer.folder page)]

def Viewer.loaded (viewer : Viewer) : Work Viewer := do
  let some folder := viewer.folder | return viewer
  let modules ← match viewer.modules with
    | some modules => pure modules
    | none => loadModules folder
  let description ← match viewer.description with
    | some description => pure (some description)
    | none => loadDescription? folder
  return { viewer with modules := Json.present? id modules, description }

def Viewer.fillInto (viewer : Viewer) (template page : String) : Work Unit := do
  let facts ← Work.ofExcept (facts (viewer.description.getD .null))
  Work.makeDirectories (Path.parent page)
  Files.write page (fillMarks (viewer.marks facts page) template)

/-- Writes the page of a documentation. The template is looked for in a folder of its own. -/
def Viewer.write (viewer : Viewer) (templates page : String) : Work Unit := do
  let viewer ← viewer.loaded
  let template := Path.below templates "viewer_template.html"
  if !(← Work.disk).exists? template then Files.report ("Template not found: " ++ template)
  viewer.fillInto (← Files.read template) page

end CodeAtlas.Site
