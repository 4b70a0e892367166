import CodeAtlas.Text.Basic

/-!
Putting diagrams and links to them into pages that are there already. A page that has them keeps
its text.
-/

namespace CodeAtlas.Wiki.Insertion

/-! ## Pages of modules -/

/-- What a heading takes up together with the blanks after it, up to the last line break among
them, and the rest; there has to be a line break. -/
def headingThroughBreak? (heading chars : List Char) : Option (List Char × List Char) := do
  let rest ← Text.Chars.dropLead? heading chars
  let blanks := rest.takeWhile Text.isBlank
  let tail := blanks.reverse.takeWhile (· != '\n')
  let used := blanks.length - tail.length
  if used == 0 then none
  else some (heading ++ rest.take used, rest.drop used)

def cutAfter? (match? : List Char → Option (List Char × List Char)) :
    List Char → Option (List Char × List Char)
  | [] => none
  | char :: rest =>
    match match? (char :: rest) with
    | some found => some found
    | none => (cutAfter? match? rest).map fun (before, after) => (char :: before, after)

def architectureHeading : String := "## Architecture"

def intoModulePage? (figure page : String) : Option String := do
  if Text.contains page "```mermaid" then none
  else
    let (before, after) ← cutAfter? (headingThroughBreak? architectureHeading.toList) page.toList
    some (String.ofList before ++ "\n### Component Diagram\n\n" ++ figure ++ "\n\n" ++
      String.ofList after)

/-! ## The index -/

def architectureLinks : String :=
  "- [Architecture Overview](architecture/overview.md)\n" ++
  "- [System Architecture Diagram](architecture/diagrams/system-architecture.mmd)\n" ++
  "- [Module Dependencies](architecture/diagrams/module-dependencies.mmd)\n"

def indexLinks : String :=
  "### Architecture\n\n" ++ architectureLinks ++
  "- [Component Overview](architecture/diagrams/component-overview.mmd)\n" ++
  "- [Data Flow](architecture/diagrams/data-flow.mmd)\n\n"

/-- Puts a line two lines after the first title; without a title, nowhere. -/
def afterTitle (added : String) : List String → List String
  | [] => []
  | line :: rest =>
    if Text.startsWith line "# " then line :: (rest.take 1 ++ added :: rest.drop 1)
    else line :: afterTitle added rest

/-- Puts the links under the quick navigation, or after the title if there is none. An index with
an architecture section is left alone. -/
def intoIndex? (page : String) : Option String :=
  if Text.contains page architectureHeading then none
  else if Text.contains page "## Quick Navigation" then
    some (Text.replace page "## Quick Navigation\n\n" ("## Quick Navigation\n\n" ++ indexLinks))
  else some (Text.join "\n" (afterTitle indexLinks (Text.split page "\n")))

/-! ## The overview -/

def overviewLinks : String :=
  "For detailed architecture information and diagrams, see:\n\n" ++ architectureLinks ++ "\n"

/-- An architecture heading with any blanks inside, and the rest. -/
def looseHeading? (chars : List Char) : Option (List Char × List Char) := do
  let rest ← Text.Chars.dropLead? ['#', '#'] chars
  let blanks := rest.takeWhile Text.isBlank
  if blanks.isEmpty then none
  else
    let word := "Architecture".toList
    let after ← Text.Chars.dropLead? word (rest.drop blanks.length)
    some (['#', '#'] ++ blanks ++ word, after)

/-- Such a heading whose line is followed by an empty one, through the latter, and the rest. -/
def looseSection? (chars : List Char) : Option (List Char × List Char) := do
  let (heading, rest) ← looseHeading? chars
  let line := rest.takeWhile (· != '\n')
  match rest.drop line.length with
  | '\n' :: '\n' :: after => some (heading ++ line ++ ['\n', '\n'], after)
  | _ => none

/-- Puts the links into the architecture section, before the module structure or at the end. An
overview with a link to the architecture page is left alone. -/
def intoOverview? (page : String) : Option String :=
  if Text.contains page "architecture/overview.md" then none
  else if (cutAfter? looseHeading? page.toList).isSome then
    match cutAfter? looseSection? page.toList with
    | some (before, after) => some (String.ofList before ++ overviewLinks ++ String.ofList after)
    | none => some page
  else if Text.contains page "## Module Structure" then
    some (Text.replace page "## Module Structure"
      ("## Architecture\n\n" ++ overviewLinks ++ "\n## Module Structure"))
  else some (page ++ "\n\n## Architecture\n\n" ++ overviewLinks)

end CodeAtlas.Wiki.Insertion
