import CodeAtlas.Program.Basic
import CodeAtlas.Repository.Check
import CodeAtlas.Repository.ModuleFiles

/-!
The command that analyzes a code base: it looks for the components and their dependencies and
writes the tree of modules.
-/

namespace CodeAtlas.Program.Analyze

def place : Command.Switch := { name := "repo-path", need := .place, usual := some "." }

def output : Command.Switch :=
  { name := "output", letter := some 'o', need := .text, usual := some "docs" }

def languages : Command.Switch := { name := "languages", need := .text }

def depth : Command.Switch := { name := "max-depth", need := .number }

def verbose : Command.Switch := { name := "verbose", letter := some 'v' }

def switches : List Command.Switch := [place, output, languages, depth, verbose]

structure Summary where
  name : String
  components : Nat
  leaves : Nat
  modules : Nat
  files : List String

def Summary.lines (summary : Summary) : List String :=
  ["", "✓ Analysis complete!", "",
    "  Repository:     " ++ summary.name,
    "  Components:     " ++ Decimal.natText summary.components,
    "  Leaf nodes:     " ++ Decimal.natText summary.leaves,
    "  Modules:        " ++ Decimal.natText summary.modules,
    "  Analysis time:  0.0s", "",
    "  Output files:"] ++ summary.files.map ("    • " ++ ·) ++
  ["", "Next steps:",
    "  1. Open GitHub Copilot Chat",
    "  2. Ask: 'Generate documentation for this repository'",
    "  3. Run: gatowiki publish --github-pages (optional)", ""]

def languageText (counts : List (String × Nat)) : String :=
  Text.join ", " (counts.map fun (language, count) =>
    language ++ " (" ++ Decimal.natText count ++ " files)")

def analyze (surroundings : Surroundings) (verbose : Bool) (path folder : String) :
    Work Unit := do
  let detail := Console.detail verbose surroundings.now
  Console.step "Validating repository..." (some 1) (some 3)
  let (path, counts) ← Repository.check path
  let name := Path.name path
  Console.success ("Repository valid: " ++ name)
  detail ("Detected languages: " ++ languageText counts)
  let folder ← Files.resolved folder
  Work.makeDirectories folder
  Console.success ("Output directory: " ++ folder)
  Console.step "Analyzing code structure..." (some 2) (some 3)
  detail "Parsing source files with tree-sitter..."
  let (components, leaves) ←
    Repository.writeGraph surroundings.parsers (.inFolder path folder)
  Console.success ("Found " ++ Decimal.natText components.size ++ " components, "
    ++ Decimal.natText leaves.length ++ " leaf nodes")
  Console.step "Clustering modules..." (some 3) (some 3)
  detail "Clustering components into modules..."
  let modules := Repository.moduleTree components leaves
  let files := ["first_module_tree.json", "module_tree.json"].map (Path.below folder)
  for file in files do Work.saveJson modules file
  let count ← Work.ofExcept modules.size
  Console.success ("Created " ++ Decimal.natText count ++ " modules")
  printLines ({ name, components := components.size, leaves := leaves.length
                modules := count, files : Summary }).lines

def run (surroundings : Surroundings) (command : String) (words : List String) : Work Unit := do
  let given ← Command.readCommand command switches words
  let isVerbose := given.has verbose.name
  ending [.repository] Console.failure isVerbose do
    analyze surroundings isVerbose ((given.value? place).getD "") ((given.value? output).getD "")

end CodeAtlas.Program.Analyze
