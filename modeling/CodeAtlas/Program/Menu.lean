import CodeAtlas.Program.Analyze
import CodeAtlas.Program.Configure
import CodeAtlas.Program.Publish

/-!
The program as it is called: its commands and the code with which it ends.
-/

namespace CodeAtlas.Program

def versionSwitch : Command.Switch := { name := "version" }

def tellVersion (given : Command.Given) : Work Unit := do
  if given.has versionSwitch.name then
    Work.printLine ("GatoWiki CLI, version " ++ version)
    throw (.exited 0)

def describeVersion (command : String) (words : List String) : Work Unit := do
  let _ ← Command.readCommand command [] words
  printLines ["GatoWiki CLI v" ++ version, "Python-based documentation generator using AI analysis"]

def dispatch (surroundings : Surroundings) (words : List String) : Work Unit := do
  let program := surroundings.program
  let (name, words) ← Command.readMenu program [versionSwitch] tellVersion words
  let command := program ++ " " ++ name
  match name with
  | "version" => describeVersion command words
  | "config" => Configure.run surroundings command words
  | "analyze" => Analyze.run surroundings command words
  | "publish" => Publish.run surroundings command words
  | name => Command.noSuchCommand program name

def run (surroundings : Surroundings) (words : List String) : Work Int :=
  tryCatch (do dispatch surroundings words; return 0) fun problem =>
    match problem with
    | .exited code => return code
    | _ => return 1

end CodeAtlas.Program
