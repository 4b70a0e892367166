import CodeAtlas.Command.Options
import CodeAtlas.Wiki.Agent
import CodeAtlas.Wiki.Illustration

/-!
The command lines of the wiki tools. The words are those after the name of the program.
-/

namespace CodeAtlas.Wiki.Commands

def readCatalog (tree graph : String) : Work Catalog := do
  let tree ← Work.readJson tree
  let graph ← Work.readJson graph
  Work.ofExcept (Catalog.ofJson tree graph)

def title (text : String) : Work Unit :=
  Work.printLine (banner ++ "\n" ++ text ++ "\n" ++ banner)

def describeModule (catalog : Catalog) (path : String) : Work Unit := do
  let info ← findModule catalog path
  Work.printLine ("\n### " ++ path ++ " ###")
  let report ← Work.ofExcept (catalog.report info)
  Work.printLine ("Components: " ++ Decimal.natText info.items.length)
  Work.printLine ("External Dependencies: " ++ Decimal.natText report.dependencies.used.size)
  Work.printLine ("External Dependents: " ++ Decimal.natText report.dependencies.users.size)
  Work.printLine ("Detected Patterns: " ++ Decimal.natText report.patterns.patterns.length)

def describe (words : List String) : Work Unit := do
  match words with
  | treePath :: graphPath :: _ =>
    let catalog ← readCatalog treePath graphPath
    title "REPOSITORY SUMMARY"
    for (name, count) in (← Work.ofExcept catalog.summary).rows do
      Work.printLine (name ++ ": " ++ Decimal.natText count)
    Work.print "\n"
    title "PROCESSING ORDER"
    for (paths, level) in (← Work.ofExcept catalog.index.levels).zipIdx do
      Work.printLine ("\nLevel " ++ Decimal.natText level ++ ":")
      for path in paths do
        Work.printLine ("  - " ++ path)
    Work.print "\n"
    title "LEAF MODULE ANALYSIS"
    for path in catalog.index.leaves.take 2 do
      describeModule catalog path
  | _ =>
    Work.printLine
      "Usage: python codewiki_analyzer.py <module_tree.json> <dependency_graph.json>"
    throw (.exited 1)

def write (edition : Edition) (words : List String) : Work Unit := do
  match words with
  | treePath :: graphPath :: rest =>
    let folder := rest.headD "./docs"
    let catalog ← readCatalog treePath graphPath
    prepare edition folder
    let _ ← generate edition catalog folder
  | _ =>
    Work.printLine
      "Usage: python orchestrator.py <module_tree.json> <dependency_graph.json> [output_dir]"
    throw (.exited 1)

def illustrate (words : List String) : Work Unit := do
  match words with
  | treePath :: graphPath :: docs :: _ => Sketch.run treePath graphPath docs
  | _ =>
    Work.printLine ("Usage: python3 add_diagrams_to_docs.py <module_tree.json> " ++
      "<dependency_graph.json> <docs_dir>\n\nExample:\n  python3 add_diagrams_to_docs.py " ++
      "module_tree.json dependency_graph.json ./docs")
    throw (.exited 1)

def agentLine : Command.CommandLine :=
  ⟨"codewiki_agent_executor.py",
    [{ name := "repo", kind := .text }, { name := "output", kind := .text },
      { name := "quiet", kind := .none }, { name := "debug", kind := .none }]⟩

def agent (words : List String) : Work Unit := do
  let arguments ← agentLine.read words
  let agent : Agent :=
    { repository := (← Work.disk).realPath (arguments.texts.getD "repo" ".")
      docs := Path.clean (arguments.texts.getD "output" "docs")
      verbose := !arguments.switches.contains "quiet" }
  throw (.exited (← agent.run))

end CodeAtlas.Wiki.Commands
