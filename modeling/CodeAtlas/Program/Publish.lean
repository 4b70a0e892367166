import CodeAtlas.Git.Documentation
import CodeAtlas.Program.Basic
import CodeAtlas.Site.Template
import CodeAtlas.Site.Viewer

/-!
The command that publishes a documentation: it writes a page for browsers and makes a branch.
-/

namespace CodeAtlas.Program.Publish

def output : Command.Switch :=
  { name := "output", letter := some 'o', need := .place, usual := some "docs" }

def pages : Command.Switch := { name := "github-pages" }

def branch : Command.Switch := { name := "create-branch" }

def verbose : Command.Switch := { name := "verbose", letter := some 'v' }

def switches : List Command.Switch := [output, pages, branch, verbose]

def countDocuments (disk : Disk) (folder : String) : Nat :=
  (((disk.list folder).toOption.getD []).filter fun name => Text.endsWith name ".md").length

def findDocuments (folder : String) : Work Unit := do
  let count := countDocuments (← Work.disk) folder
  if count = 0 then
    Files.report ("No documentation files found in " ++ folder ++
      "\n\nPlease generate documentation first using GitHub Copilot agents.")
  Console.success ("Found " ++ Decimal.natText count ++ " documentation files")

def writePage (about : Git.About) (folder : String) : Work Unit := do
  let page := Path.below folder "index.html"
  let viewer : Site.Viewer :=
    { title := about.name, repository := about.address, folder := some folder }
  (← viewer.loaded).fillInto Site.template page
  Console.success ("Generated " ++ page)

def createBranch (surroundings : Surroundings) (path : String) : Work String := do
  Console.step "Creating gh-pages branch..." (some 2) (some 2)
  let control := (← Git.openAround path).control
  let (isClean, status) ← control.status
  if !isClean then
    Console.warning ("Working directory has uncommitted changes.\n" ++ status ++
      "\n\nConsider committing changes before creating gh-pages branch.")
    if !(← confirm "Continue anyway?" surroundings.typed) then
      Work.printLine "Cancelled by user."
      throw (.exited 0)
  let name ← control.createDocumentationBranch surroundings.now false
  Console.success ("Created branch: " ++ name)
  return name

def branchLines (name folder : String) : List String :=
  ["", "✓ GitHub Pages setup complete!", "",
    "  Branch:         " ++ name,
    "  Documentation:  " ++ folder, "",
    "Next steps:",
    "  1. Push branch: git push origin " ++ name,
    "  2. Enable GitHub Pages in repository settings",
    "  3. Set source to '" ++ name ++ "' branch"]

/-- Where the documentation will be seen. This is only known if the page was written; otherwise
asking for it is a fault. -/
def addressLines : Option Git.About → Except Fault (List String)
  | none => .error .undefined
  | some about => .ok (match about.pages with
      | some address => ["", "  Your docs will be available at:", "  " ++ address]
      | none => [])

def pageLines (folder : String) : List String :=
  ["", "✓ HTML viewer generated!", "",
    "  File:  " ++ Path.below folder "index.html", "",
    "Next steps:",
    "  • Open index.html in a browser to view documentation",
    "  • Or run: gatowiki publish --create-branch to set up GitHub Pages", ""]

def idleLines : List String :=
  ["", "No action taken.", "",
    "Use --github-pages to generate HTML viewer",
    "Use --create-branch to create gh-pages branch", ""]

def publish (surroundings : Surroundings) (withPage withBranch : Bool) (folder : String) :
    Work Unit := do
  let folder ← Files.resolved folder
  if !(← Work.disk).exists? folder then
    Files.report ("Documentation directory not found: " ++ folder ++
      "\n\nPlease generate documentation first using GitHub Copilot agents.")
  findDocuments folder
  let path ← Work.absolutePath "."
  if withBranch && !Git.isVersioned (← Work.disk) path then
    throw (.reported .repository ("Not a git repository.\n\n" ++
      "The --create-branch flag requires a git repository.\n\n" ++
      "To initialize a git repository: git init"))
  let disk ← Work.disk
  let about := if withPage then some (Git.About.of disk path) else none
  if let some about := about then
    Console.step "Generating HTML viewer..." (some 1) (some (if withBranch then 2 else 1))
    writePage about folder
  if withBranch then
    printLines (branchLines (← createBranch surroundings path) folder)
    printLines (← Work.ofExcept (addressLines about))
    Work.printLine ""
  else printLines (if withPage then pageLines folder else idleLines)

def run (surroundings : Surroundings) (command : String) (words : List String) : Work Unit := do
  let given ← Command.readCommand command switches words
  ending [.repository, .files] Console.failure (given.has verbose.name) do
    publish surroundings (given.has pages.name) (given.has branch.name)
      ((given.value? output).getD "")

end CodeAtlas.Program.Publish
