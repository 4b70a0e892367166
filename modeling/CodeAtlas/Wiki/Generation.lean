import CodeAtlas.Wiki.Page
import CodeAtlas.Workspace.Basic

/-!
Writing a wiki: the pages of the deepest modules first, then those of the levels above, at last
the pages of the whole wiki. Each step is announced.
-/

namespace CodeAtlas.Wiki

abbrev Pages := OrderedMap String String

def banner : String := Text.repeated 60 "="

def savePage (path text : String) : Work Unit := do
  Work.makeDirectories (Path.parent path)
  Work.writeText path text

def pageFolder (folder path : String) : String :=
  (Text.split path "/").foldl Path.below (Path.below folder "modules")

def pagePath (folder path : String) : String := Path.below (pageFolder folder path) "README.md"

def pagePlace (folder path : String) : Work String := do
  Work.makeDirectories (pageFolder folder path)
  return pagePath folder path

def linkBetween (page other : String) : Work String := do
  let current := Disk.pathOf (← Work.disk).current
  return Path.relative (Path.join current other) (Path.join current (Path.parent page))

def findModule (catalog : Catalog) (path : String) : Work ModuleInfo :=
  match catalog.modules.get? path with
  | some info => return info
  | none => throw (.fault .missingKey)

def writeModulePage (edition : Edition) (catalog : Catalog) (folder : String) (pages : Pages)
    (path : String) : Work Pages := do
  let info ← findModule catalog path
  let text := modulePage edition catalog (← Work.ofExcept (catalog.report info))
  let place ← pagePlace folder path
  savePage place text
  return pages.insert path place

def readSummaries (edition : Edition) (pages : Pages) (paths : List String) :
    Work (List (String × Option String × String)) :=
  (paths.filterMap fun path => (pages.get? path).map fun place => (path, place)).mapM
    fun (path, place) => do return (path, edition.summary? (← Work.readText place), place)

def writeParentPage (edition : Edition) (catalog : Catalog) (folder : String) (pages : Pages)
    (path : String) : Work Pages := do
  let info ← findModule catalog path
  let children ← Work.ofExcept info.childNames
  let documented ← readSummaries edition pages children
  let documented ← documented.mapM fun (child, summary, place) => do
    return (⟨child, summary, ← linkBetween (pagePath folder path) place⟩ : Child)
  let text ← Work.ofExcept (parentPage path children documented)
  let place ← pagePlace folder path
  savePage place text
  return pages.insert path place

def overviewKey : String := "_repository_overview"

def writeOverview (edition : Edition) (catalog : Catalog) (folder : String) (pages : Pages) :
    Work Pages := do
  let summary ← Work.ofExcept catalog.summary
  let place := Path.below folder "README.md"
  let roots ← (← readSummaries edition pages catalog.index.roots).mapM
    fun (path, summary, page) => do
      return (⟨path, summary, ← linkBetween place page⟩ : Child)
  savePage place (overviewPage edition catalog summary roots)
  return pages.insert overviewKey place

def writeIndex (edition : Edition) (catalog : Catalog) (folder : String) (pages : Pages) :
    Work Unit := do
  let place := Path.below folder "INDEX.md"
  let shown := (Graph.sorted pages.keys).filter fun path => !Text.startsWith path "_"
  let rows ← shown.mapM fun path => do
    let info ← findModule catalog path
    return (info.level, path, ← linkBetween place (pages.getD path ""))
  savePage place (indexPage edition rows)

/-! ## Diagrams in files -/

def figureFolder (folder : String) : String :=
  Path.below (Path.below folder "architecture") "diagrams"

def writeFigure (folder name text : String) : Work Unit :=
  Work.writeText (Path.below (figureFolder folder) name) text

def readFigure (folder name : String) : Work String :=
  tryCatch (Work.readText (Path.below (figureFolder folder) name)) fun _ =>
    return "<!-- Diagram " ++ name ++ " not found -->"

def writeFigures (catalog : Catalog) (folder : String) : Work Unit := do
  writeFigure folder "system-architecture.mmd" (← Work.ofExcept (Figure.system catalog))
  writeFigure folder "module-dependencies.mmd" (Figure.modules catalog)
  writeFigure folder "component-overview.mmd"
    (← Work.ofExcept (Figure.components (catalog.graph.take 100)))
  writeFigure folder "data-flow.mmd" (← Work.ofExcept (Figure.flow true (catalog.graph.take 50)))

def readFigures (folder : String) : Work String := do
  return diagramSections
    (← readFigure folder "system-architecture.mmd")
    (← readFigure folder "module-dependencies.mmd")
    (← readFigure folder "component-overview.mmd")
    (← readFigure folder "data-flow.mmd")

def architecturePlace (folder : String) : String :=
  Path.below (Path.below folder "architecture") "overview.md"

def writeArchitecture (catalog : Catalog) (folder : String) : Work Unit := do
  let figures ← readFigures folder
  savePage (architecturePlace folder) (figures ++ patternsPart catalog)

/-! ## The whole wiki -/

def announce (step : Nat) (title : String) : Work Unit :=
  Work.printLine ("\nStep " ++ Decimal.natText step ++ ": " ++ title ++ "...")

def counted (done total : Nat) : String :=
  "  [" ++ Decimal.natText done ++ "/" ++ Decimal.natText total ++ "] "

def writeDeepest (edition : Edition) (catalog : Catalog) (folder : String)
    (paths : List String) (pages : Pages) : Work Pages :=
  paths.zipIdx.foldlM (fun pages (path, done) => do
    let pages ← writeModulePage edition catalog folder pages path
    Work.printLine (counted (done + 1) paths.length ++ path)
    return pages) pages

def levelRows (levels : List (List String)) : List (Nat × String) :=
  levels.zipIdx.flatMap fun (paths, level) => paths.map fun path => (level + 1, path)

def writeAbove (edition : Edition) (catalog : Catalog) (folder : String)
    (levels : List (List String)) (pages : Pages) : Work Pages :=
  let rows := levelRows levels
  rows.zipIdx.foldlM (fun pages ((level, path), done) => do
    let pages ← writeParentPage edition catalog folder pages path
    Work.printLine (counted (done + 1) rows.length ++ "Level " ++ Decimal.natText level ++ ": " ++
      path)
    return pages) pages

def prepare (edition : Edition) (folder : String) : Work Unit := do
  Work.makeDirectories folder
  if edition == .illustrated then Work.makeDirectories (figureFolder folder)

def stepAfterFigures (edition : Edition) (step : Nat) : Nat :=
  match edition with
  | .plain => step
  | .illustrated => step + 1

def writeModules (edition : Edition) (catalog : Catalog) (folder : String)
    (levels : List (List String)) : Work Pages := do
  let step := stepAfterFigures edition
  announce (step 3) "Generating leaf module documentation"
  let pages ← writeDeepest edition catalog folder (levels.headD []) .empty
  if levels.length > 1 then
    announce (step 4) "Generating parent module documentation"
    writeAbove edition catalog folder (levels.drop 1) pages
  else return pages

def writeClosing (edition : Edition) (catalog : Catalog) (folder : String) (pages : Pages) :
    Work Pages := do
  let step := if edition == .illustrated then 7 else 5
  announce step "Generating repository overview"
  let pages ← writeOverview edition catalog folder pages
  Work.printLine "  ✓ README.md generated"
  announce (step + 1) "Generating navigation"
  writeIndex edition catalog folder pages
  Work.printLine "  ✓ Navigation generated"
  Work.printLine ("\n" ++ banner)
  Work.printLine ("Documentation generated in: " ++ Path.clean folder)
  Work.printLine ("Total files: " ++ Decimal.natText pages.size)
  Work.printLine banner
  return pages

def generate (edition : Edition) (catalog : Catalog) (folder : String) : Work Pages := do
  Work.printLine ("CodeWiki Documentation Generator\n" ++ banner)
  announce 1 "Analyzing repository"
  let summary ← Work.ofExcept catalog.summary
  Work.printLine ("  Modules: " ++ Decimal.natText summary.modules)
  Work.printLine ("  Components: " ++ Decimal.natText summary.components)
  Work.printLine ("  Depth: " ++ Decimal.natText summary.depth)
  announce 2 "Determining processing order"
  let levels ← Work.ofExcept catalog.index.levels
  Work.printLine ("  Levels to process: " ++ Decimal.natText levels.length)
  if edition == .illustrated then
    announce 3 "Generating architecture diagrams"
    writeFigures catalog folder
    Work.printLine ("  ✓ System architecture diagram\n  ✓ Module dependency diagram\n" ++
      "  ✓ Component overview diagram\n  ✓ Data flow diagram")
  let pages ← writeModules edition catalog folder levels
  if edition == .illustrated then
    announce 6 "Generating architecture documentation"
    writeArchitecture catalog folder
    Work.printLine "  ✓ Architecture overview\n  ✓ Pattern analysis"
  writeClosing edition catalog folder pages

def illustrate (catalog : Catalog) (folder : String) : Work Pages := do
  writeFigures catalog folder
  writeArchitecture catalog folder
  for info in catalog.modules.values do
    let report ← Work.ofExcept (catalog.report info)
    Work.printLine (Figure.moduleComponents report report.dependencies.inner)
    Work.printLine (Figure.surroundings report)
  Work.printLine (← readFigure folder "missing.mmd")
  return .empty

end CodeAtlas.Wiki
