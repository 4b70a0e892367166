import CodeAtlas.Json.Shown
import CodeAtlas.Program.Basic
import CodeAtlas.Settings.Store

/-!
The commands for the settings of the user: changing, showing and checking them.
-/

namespace CodeAtlas.Program.Configure

def output : Command.Switch := { name := "output", letter := some 'o', need := .text }

def json : Command.Switch := { name := "json" }

def verbose : Command.Switch := { name := "verbose", letter := some 'v' }

def tellFailure (message : String) : Work Unit :=
  Work.printLine ("\n✗ Configuration error: " ++ message)

def change (store : Settings.Store) (folder : String) : Work Unit := do
  if folder.isEmpty then
    printLines ["\nNo options provided. Use --help for usage information.",
      "\nExample: gatowiki config set --output ./docs"]
    throw (.exited 2)
  let (store, _) ← store.load
  let (_, problem?) ← Settings.save store (some (.text folder))
  if let some problem := problem? then throw problem
  printLines ["", "✓ Default output directory: " ++ folder,
    "\nConfiguration updated successfully.", "",
    "Note: API authentication is handled by GitHub Copilot.",
    "      No API keys needed for GatoWiki v0.25.5+", ""]

def missingLines : List String := [
  "\n✗ Configuration not found.",
  "\nGatoWiki v0.25.5+ uses GitHub Copilot for authentication.",
  "No API keys needed!\n",
  "You can optionally set a default output directory:",
  "  gatowiki config set --output ./docs",
  "\nFor more help: gatowiki config set --help"]

def settingsLines (file : String) (output : Json) : List String := [
  "", "GatoWiki Configuration (v0.25.5)", Text.repeated 40 "━", "",
  "Output Settings",
  "  Default Output:   " ++ output.shown, "",
  "Authentication",
  "  Provider:         GitHub Copilot",
  "  Managed by:       Your IDE (VS Code, IntelliJ, etc.)",
  "  API Keys:         Not required", "",
  "Configuration file: " ++ file, ""]

def settingsJson (file : String) (output : Json) : Json :=
  .object [("default_output", output), ("config_file", .text file), ("version", .text "2.0.0"),
    ("authentication", .text "GitHub Copilot (managed by IDE)")]

def outputOf (store : Settings.Store) : Json := (store.known.getD .standard).output

def report (store : Settings.Store) (asJson : Bool) : Work Unit := do
  let (store, found) ← store.load
  if !found then
    printLines missingLines
    throw (.exited 0)
  let output := outputOf store
  if asJson then Work.printLine ((settingsJson store.file output).render (Json.indented 2))
  else printLines (settingsLines store.file output)

def fileLines (isVerbose found : Bool) : List String :=
  match isVerbose, found with
  | true, true => ["      ✓ File exists", "      ✓ Valid JSON format"]
  | false, true => ["✓ Configuration file exists"]
  | true, false => ["ℹ️  No configuration file found (using defaults)",
      "      This is normal for first-time usage", "      Default output directory: ./docs"]
  | false, false => ["ℹ️  No configuration file found (using defaults)"]

def outputLines (isVerbose : Bool) (output : Json) : List String :=
  if isVerbose then ["", "[2/2] Checking output directory...",
    "      Output directory: " ++ output.shown, "      ✓ Valid setting"]
  else ["✓ Output directory: " ++ output.shown]

def validate (store : Settings.Store) (isVerbose : Bool) : Work Unit := do
  printLines ["", "Validating configuration...", ""]
  if isVerbose then
    printLines ["[1/2] Checking configuration file...", "      Path: " ++ store.file]
  let (store, found) ← store.load
  printLines (fileLines isVerbose found)
  printLines (outputLines isVerbose (outputOf store))
  printLines ["", "✓ Configuration is valid!", "",
    "Note: API validation not required in v0.25.5+",
    "      GitHub Copilot handles authentication automatically", ""]

def run (surroundings : Surroundings) (command : String) (words : List String) : Work Unit := do
  let (name, words) ← Command.readMenu command [] (fun _ => return) words
  let store : Settings.Store := { home := surroundings.home }
  let below := command ++ " " ++ name
  match name with
  | "set" =>
    let given ← Command.readCommand below [output] words
    ending [.configuration] tellFailure false (change store ((given.value? output).getD ""))
  | "show" =>
    let given ← Command.readCommand below [json] words
    ending [] tellFailure false (report store (given.has json.name))
  | "validate" =>
    let given ← Command.readCommand below [verbose] words
    let isVerbose := given.has verbose.name
    ending [.configuration] tellFailure isVerbose (validate store isVerbose)
  | name => Command.noSuchCommand command name

end CodeAtlas.Program.Configure
