import CodeAtlas.Console.Message
import CodeAtlas.Hosting.Address
import CodeAtlas.Json.Shown

/-!
What to do once the documentation is there: look at it, push it and have it shown.
-/

namespace CodeAtlas.Console

structure Finished where
  output : String
  name : String
  address : String := ""
  branch : String := ""
  hasPages : Bool := false
  files : List String := []
  statistics : Json := .null

def Finished.ofJson (record : Json) : Finished :=
  { output := (record.get "output_dir").asText
    name := (record.get "repo_name").asText
    address := (record.get "repo_url").asText
    branch := (record.get "branch_name").asText
    hasPages := (record.get "github_pages").isTruthy
    files := (record.get "files_generated").asTexts
    statistics := record.get "statistics" }

def seconds : Json → Float
  | .int value => Float.ofInt value
  | .float value => value
  | _ => 0.0

def Finished.statisticLines (finished : Finished) : List String :=
  let line (name title : String) : List String :=
    ((finished.statistics.member? name).map fun value => title ++ value.shown).toList
  let time := (finished.statistics.member? "generation_time").map fun value =>
    let (minutes, seconds) := Time.minutesAndSeconds (seconds value)
    "  Generation time:   " ++ Decimal.intText minutes ++ " minutes " ++ Decimal.intText seconds ++
      " seconds"
  line "module_count" "  Total modules:     " ++
    line "total_files_analyzed" "  Files analyzed:    " ++ time.toList

def Finished.pushLines (finished : Finished) : List String :=
  if finished.branch.isEmpty then [
    "2. Commit the documentation:",
    "   git add docs/",
    "   git commit -m \"Add generated documentation\"",
    "",
    "3. Push to GitHub:",
    "   git push origin main",
    "",
    "4. Enable GitHub Pages:"]
  else [
    "2. Push the documentation branch:",
    "   git push origin " ++ finished.branch,
    ""] ++
    if finished.address.isEmpty then ["3. Enable GitHub Pages:"]
    else [
      "3. Create a Pull Request to merge documentation:",
      "   " ++ Hosting.comparisonAddress finished.address finished.branch,
      "",
      "4. After merge, enable GitHub Pages:"]

def Finished.guidance (finished : Finished) : List String :=
  let files := finished.files
  ["", "✓ Documentation generated successfully!", "", "Output directory:", "  " ++ finished.output,
    ""] ++
  (if files.isEmpty then [] else
    ["Generated files:"] ++ (files.take 10).map ("  - " ++ ·) ++
    (if files.length > 10 then
      ["  ... and " ++ Decimal.natText (files.length - 10) ++ " more"] else []) ++ [""]) ++
  (if finished.statistics.isTruthy then ["Statistics:"] ++ finished.statisticLines ++ [""] else []) ++
  ["Next steps:", "", "1. Review the generated documentation:",
    "   cat " ++ finished.output ++ "/overview.md"] ++
  (if finished.hasPages then ["   open " ++ finished.output ++ "/index.html  # View in browser"]
    else []) ++
  [""] ++ finished.pushLines ++ [
    "   - Go to repository Settings → Pages",
    "   - Source: Deploy from a branch",
    "   - Branch: main, folder: /docs",
    ""] ++
  if finished.address.isEmpty then [] else [
    "5. Your documentation will be available at:",
    "   " ++ Hosting.pagesAddress finished.address finished.name,
    ""]

def guide (finished : Finished) : Work Unit := do
  for line in finished.guidance do Work.printLine line

def summarize (succeeded : Bool) (error output : String) : Work Unit := do
  if succeeded then
    Work.printLine "\n✓ Generation completed successfully!"
    if !output.isEmpty then Work.printLine ("\nDocumentation saved to: " ++ output)
  else
    Work.printLine "\n✗ Generation failed"
    if !error.isEmpty then Work.printLine ("\n" ++ error)
  Work.printLine ""

end CodeAtlas.Console
