import CodeAtlas.Wiki.Generation

/-!
Adding diagrams to a wiki that is there already. Here a tree of modules is an object with a list
of children, each of which has a text as its name and again such a list; the path of a module is made
of the names on the way to it.
-/

namespace CodeAtlas.Wiki

structure TreeModule where
  path : String
  parent : Option String
  children : List String

/-- The modules met so far; of two with the same path the later one counts. -/
structure TreeIndex where
  modules : OrderedMap String TreeModule
  roots : List String

namespace TreeIndex

def empty : TreeIndex := ⟨.empty, []⟩

def enter (index : TreeIndex) (path : String) (parent : Option String) : TreeIndex :=
  ⟨index.modules.insert path ⟨path, parent, []⟩,
    if parent.isNone then index.roots ++ [path] else index.roots⟩

def addChild (index : TreeIndex) (path child : String) : TreeIndex :=
  { index with modules := index.modules.modify path fun info =>
      if child ∈ info.children then info else { info with children := info.children ++ [child] } }

def pathBelow (path name : String) : String :=
  if path == "" then name else path ++ "/" ++ name

mutual

def visit (above : String) (parent : Option String) (index : TreeIndex) :
    Json → Except Fault (TreeIndex × String)
  | .object members => do
    let path := pathBelow above (← (← (Json.object members).need "name").string)
    return (← visitMembers path (index.enter path parent) members, path)
  | _ => throw .wrongKind

def visitMembers (path : String) (index : TreeIndex) :
    List (String × Json) → Except Fault TreeIndex
  | [] => return index
  | ("children", .list children) :: _ => visitChildren path index children
  | ("children", .object children) :: _ =>
    if children.isEmpty then return index else throw .wrongKind
  | ("children", .text "") :: _ => return index
  | ("children", _) :: _ => throw .wrongKind
  | _ :: rest => visitMembers path index rest

def visitChildren (path : String) (index : TreeIndex) : List Json → Except Fault TreeIndex
  | [] => return index
  | child :: rest => do
    let (index, childPath) ← visit path (some path) index child
    visitChildren path (index.addChild path childPath) rest

end

def visitRoots (index : TreeIndex) : List Json → Except Fault TreeIndex
  | [] => return index
  | root :: rest => do visitRoots (← visit "" none index root).1 rest

def ofJson (tree : Json) : Except Fault TreeIndex := do
  visitRoots empty (← (← tree.getOr "children" (.list [])).items)

def childrenOf (index : TreeIndex) (path : String) : Except Fault (List String) :=
  match index.modules.get? path with
  | some info => return info.children
  | none => throw .missingKey

end TreeIndex

/-- How a page is changed, and what is said about it. -/
structure Revision where
  missing : Option String
  /-- The text that a missing page begins with; without it nothing is done. -/
  start : Option String
  change : String → Option String
  kept : String
  changed : String

namespace Revision

def read (revision : Revision) (place : String) : Work (Option String) := do
  if ← Work.exists? place then return some (← Work.readText place)
  else
    if let some text := revision.missing then Work.printLine text
    return revision.start

def write (revision : Revision) (place page : String) : Work Unit :=
  match revision.change page with
  | none => Work.printLine revision.kept
  | some page => do
    Work.writeText place page
    Work.printLine revision.changed

/-- Changes the page at a place; gives whether there is one. -/
def apply (revision : Revision) (place : String) : Work Bool := do
  match ← revision.read place with
  | none => return false
  | some page =>
    revision.write place page
    return true

def ofModule (path : String) : Revision where
  missing := none
  start := none
  change := Insertion.intoModulePage? (Figure.loneModule path)
  kept := "   ✓ " ++ path
  changed := "   ✓ " ++ path

def ofIndex : Revision where
  missing := some "⚠ INDEX.md not found, creating new one..."
  start := some "# Documentation Index\n\n"
  change := Insertion.intoIndex?
  kept := "   ℹ Architecture section already exists, skipping..."
  changed := "   ✓ INDEX.md updated"

def ofOverview : Revision where
  missing := some "   ⚠ README.md not found, skipping..."
  start := none
  change := Insertion.intoOverview?
  kept := "   ℹ Architecture links already exist, skipping..."
  changed := "   ✓ README.md updated"

end Revision

structure Sketch where
  index : TreeIndex
  graph : Json
  docs : String

namespace Sketch

def shownGraph (sketch : Sketch) : Except Fault Json.Members := do
  return (← sketch.graph.members).take 50

def heading (title : String) : Work Unit :=
  Work.printLine ("\n" ++ banner ++ "\n" ++ title ++ "\n" ++ banner)

/-- Takes what to draw from a tree and a graph, and prepares the directories of the diagrams. -/
def prepare (tree graph : Json) (docs : String) : Work Sketch := do
  let index ← Work.ofExcept (TreeIndex.ofJson tree)
  Work.makeDirectories (figureFolder docs)
  Work.printLine ("✓ Loaded " ++ Decimal.natText index.modules.size ++ " modules")
  Work.printLine ("✓ Loaded " ++ Decimal.natText (← Work.ofExcept graph.size) ++ " components")
  return ⟨index, graph, docs⟩

def readAnalysis (treePath graphPath : String) : Work (Json × Json) := do
  Work.printLine "Loading analysis files..."
  let tree ← Work.readJson treePath
  return (tree, ← Work.readJson graphPath)

def load (treePath graphPath docs : String) : Work Sketch := do
  let (tree, graph) ← readAnalysis treePath graphPath
  prepare tree graph docs

def draw (sketch : Sketch) (number title name : String) (text : Except Fault String) :
    Work Unit := do
  Work.printLine (number ++ ". Generating " ++ title ++ " diagram...")
  writeFigure sketch.docs name (← Work.ofExcept text)
  Work.printLine ("   ✓ " ++ name)

def drawAll (sketch : Sketch) : Work Unit := do
  heading "Generating Architecture Diagrams"
  let index := sketch.index
  draw sketch "\n1" "system architecture" "system-architecture.mmd"
    (Figure.tree index.roots index.childrenOf (index.modules.size + 1))
  draw sketch "2" "module dependency" "module-dependencies.mmd"
    (.ok (Figure.loneModules (index.modules.keys.take 15)))
  draw sketch "3" "component overview" "component-overview.mmd"
    (sketch.shownGraph >>= Figure.components)
  draw sketch "4" "data flow" "data-flow.mmd" (sketch.shownGraph >>= Figure.flow false)
  Work.printLine "5. Generating architecture overview document..."
  Work.writeText (architecturePlace sketch.docs) (← readFigures sketch.docs)
  Work.printLine "   ✓ architecture/overview.md"
  Work.printLine "\n✓ All architecture diagrams generated!"

def illustratePages (sketch : Sketch) : Work Unit := do
  heading "Injecting Diagrams into Module Documentation"
  if ← Work.exists? (Path.below sketch.docs "modules") then
    let found ← sketch.index.modules.keys.mapM fun path =>
      (Revision.ofModule path).apply (pagePath sketch.docs path)
    Work.printLine
      ("\n✓ Updated " ++ Decimal.natText (found.count true) ++ " module documents with diagrams!")
  else Work.printLine "⚠ No modules directory found, skipping..."

/-- Puts links to the diagrams into the index, which is made if it is missing. -/
def updateIndex (sketch : Sketch) : Work Unit := do
  heading "Updating Navigation"
  let _ ← Revision.ofIndex.apply (Path.below sketch.docs "INDEX.md")

/-- Puts links to the diagrams into the overview, if there is one. -/
def updateOverview (sketch : Sketch) : Work Unit := do
  Work.printLine "Updating README..."
  let _ ← Revision.ofOverview.apply (Path.below sketch.docs "README.md")

def addTo (tree graph : Json) (docs : String) : Work Unit := do
  let sketch ← prepare tree graph docs
  sketch.drawAll
  sketch.illustratePages
  sketch.updateIndex
  sketch.updateOverview

def run (treePath graphPath docs : String) : Work Unit := do
  Work.printLine (banner ++ "\nCodeWiki Diagram Generator\n" ++
    "Adds diagrams to existing documentation\n" ++ banner)
  let (tree, graph) ← readAnalysis treePath graphPath
  addTo tree graph docs
  Work.printLine ("\n" ++ banner ++ "\n✓ Done! Diagrams added to existing documentation\n" ++ banner)
  Work.printLine ("\nGenerated files:\n  - " ++ docs ++ "/architecture/overview.md\n  - " ++ docs ++
    "/architecture/diagrams/*.mmd (4 files)\n  - Updated existing module documentation\n" ++
    "  - Updated INDEX.md and README.md")

end Sketch

end CodeAtlas.Wiki
