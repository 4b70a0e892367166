import CodeAtlas.Wiki.Figure
import CodeAtlas.Wiki.Insertion

/-!
The pages of a wiki. It comes in two editions: the plain one, and the illustrated one, which has
more diagrams but takes no summaries from the pages of modules.
-/

namespace CodeAtlas.Wiki

inductive Edition where
  | plain
  | illustrated
deriving DecidableEq

/-! ## Summaries -/

def openingLines : Nat → List String → List String
  | 0, _ => []
  | _, [] => []
  | count + 1, line :: rest =>
    if Text.startsWith line "## Overview" then openingLines (count + 1) rest
    else if Text.startsWith line "#" then []
    else if Text.strip line == "" then openingLines (count + 1) rest
    else Text.strip line :: openingLines count rest

/-- The summary of a page: the first two lines of its overview. -/
def summaryOf (page : String) : String :=
  let lines := (Text.split page "\n").dropWhile fun line => !Text.startsWith line "## Overview"
  match openingLines 2 (lines.drop 1) with
  | [] => "Module documentation."
  | opening => Text.join " " opening

def Edition.summary? : Edition → String → Option String
  | .plain, page => some (summaryOf page)
  | .illustrated, _ => none

def summaryText (summary : Option String) : String := summary.getD "None"

/-! ## Pages of modules -/

def modulePurpose (roles : List String) : String :=
  if roles.contains "analyzer" || roles.contains "parser" then
    "It provides data analysis and parsing capabilities."
  else if roles.contains "service" then "It implements business logic and services."
  else if roles.contains "manager" then "It manages resources and orchestrates operations."
  else if roles.contains "generator" then "It generates or constructs data and objects."
  else "It provides core functionality for the system."

def parentPurpose (path : String) : String :=
  let path := Text.lower path
  if Text.contains path "fe" then "It manages the frontend layer of the application."
  else if Text.contains path "be" then "It manages the backend layer of the application."
  else if Text.contains path "cli" then "It provides command-line interface functionality."
  else "It coordinates its submodules to provide system functionality."

def structureText (found : ModuleDependencies) : String :=
  let cohesion := found.cohesion
  "The module is organized with the following structure:\n\n" ++
    (if found.inner.length > 0 then
      "- **Internal Dependencies**: " ++ Decimal.natText found.inner.length ++
        " relationships between components\n"
    else "") ++
    (if found.outerCount > 0 then
      "- **External Dependencies**: " ++ Decimal.natText found.outerCount ++
        " relationships with other modules\n"
    else "") ++
    (if cohesion > 0.7 then "- **High cohesion**: Components are closely related\n"
    else if cohesion > 0.4 then "- **Moderate cohesion**: Components have some independence\n"
    else "- **Low cohesion**: Components are relatively independent\n")

def listed (heading : String) : List String → String
  | [] => ""
  | lines => heading ++ ":\n" ++ String.join (lines.map fun line => "- " ++ line ++ "\n") ++ "\n"

def componentSection (catalog : Catalog) (one : Described) : String :=
  let used := catalog.dependencySide one.entry
  "### " ++ one.entry.name.shown ++ "\n\n" ++
    "**Type**: " ++ one.entry.kind.shown ++ "\n" ++
    "**File**: `" ++ one.entry.relativePath.shown ++ "`\n\n" ++
    "**Purpose**: " ++ one.purpose.description ++ "\n\n" ++
    listed "**Internal Dependencies**" (used.inner.map (·.name.shown)) ++
    listed "**External Dependencies**" (used.outer.map fun other =>
      other.name.shown ++ " (" ++ other.home.getD "None" ++ ")")

def modulesSection (heading : String) (groups : OrderedMap String (List Link)) : String :=
  if groups.isEmpty then ""
  else
    heading ++ "\n\n" ++ String.join (groups.entries.map fun (path, links) =>
      "### " ++ path ++ "\n- " ++ Decimal.natText links.length ++ " relationship(s)\n\n")

def percent (share : Float) : String := Decimal.fixedText 0 (share * 100) ++ "%"

def patternsSection (patterns : List Pattern) : String :=
  if patterns.isEmpty then ""
  else
    "## Architectural Patterns\n\n" ++ String.join (patterns.map fun pattern =>
      "### " ++ Text.title pattern.kind ++ " Pattern\n" ++
      "- **Confidence**: " ++ percent pattern.confidence ++ "\n" ++
      "- **Evidence**: " ++ Text.join ", " pattern.evidence ++ "\n\n")

def moduleFigures (edition : Edition) (report : Report) : String :=
  match edition with
  | .plain => Figure.plainComponents report ++ "\n\n"
  | .illustrated =>
    "### Component Diagram\n\n" ++ Figure.moduleComponents report [] ++ "\n\n" ++
      (if report.dependencies.used.isEmpty && report.dependencies.users.isEmpty then ""
      else "### Module Dependencies\n\n" ++ Figure.surroundings report ++ "\n\n")

def modulePage (edition : Edition) (catalog : Catalog) (report : Report) : String :=
  let roles := report.entries.values.map (·.purpose.role)
  "# Module: " ++ report.info.path ++ "\n\n" ++
    "## Overview\n\n" ++
    "This module contains " ++ Decimal.natText report.info.items.length ++ " components " ++
    "with a cohesion score of " ++
    Decimal.floatText (Decimal.roundTo 2 (report.dependencies.cohesion * 100)) ++ "%. " ++
    modulePurpose roles ++ "\n\n" ++
    "## Architecture\n\n" ++ structureText report.dependencies ++ "\n\n" ++
    moduleFigures edition report ++
    "## Components\n\n" ++
    String.join (report.entries.values.map (componentSection catalog)) ++
    modulesSection "## External Dependencies" report.dependencies.used ++
    modulesSection "## Used By" report.dependencies.users ++
    patternsSection report.patterns.patterns

structure Child where
  path : String
  summary : Option String
  link : String

/-- A child in a list; without a summary it cannot be described. -/
def Child.line (child : Child) : Except Fault String :=
  match child.summary with
  | some summary => return "- **" ++ child.path ++ "**: " ++ summary ++ "\n"
  | none => throw .wrongKind

def parentPage (path : String) (children : List String) (documented : List Child) :
    Except Fault String := do
  let described ← documented.mapM Child.line
  return "# Module: " ++ path ++ "\n\n" ++
    "## Overview\n\n" ++
    "This is a parent module containing " ++ Decimal.natText children.length ++ " submodules. " ++
    parentPurpose path ++ "\n\n" ++
    "## Architecture\n\n" ++
    "The parent module coordinates the following submodules:\n\n" ++ String.join described ++
    "\n\n" ++ Figure.family path children ++ "\n\n" ++
    "## Submodules\n\n" ++
    String.join (documented.map fun child =>
      "### [" ++ child.path ++ "](" ++ child.link ++ ")\n" ++ summaryText child.summary ++ "\n\n")

/-! ## Pages of the whole wiki -/

def overviewArchitecture (edition : Edition) (catalog : Catalog) (depth : Nat) : String :=
  "The system is organized in a " ++ Decimal.natText depth ++ "-level hierarchy" ++
    (match edition with
    | .plain => ":\n\n"
    | .illustrated =>
      ". " ++ Insertion.overviewLinks) ++
    Figure.rootModules catalog ++ "\n\n"

def overviewPage (edition : Edition) (catalog : Catalog) (summary : Catalog.Summary)
    (roots : List Child) : String :=
  "# Repository Documentation\n\n" ++
    "## Purpose\n\n" ++
    "This repository contains a modular software system organized into " ++
    Decimal.natText summary.modules ++ " modules with " ++ Decimal.natText summary.components ++
    " components.\n\n" ++
    "## Architecture Overview\n\n" ++ overviewArchitecture edition catalog summary.depth ++
    "## Module Structure\n\n" ++
    String.join (roots.map fun root =>
      "### [" ++ root.path ++ "](" ++ root.link ++ ")\n" ++ summaryText root.summary ++ "\n\n") ++
    "## Getting Started\n\nStart by exploring the root modules:\n\n" ++
    String.join (roots.map fun root => "- [" ++ root.path ++ "](" ++ root.link ++ ")\n") ++
    match edition with
    | .plain => ""
    | .illustrated =>
      "\n## Navigation\n\nSee [INDEX.md](INDEX.md) for complete documentation navigation.\n"

def indexPage (edition : Edition) (pages : List (Nat × String × String)) : String :=
  "# Documentation Index\n\n" ++
    (match edition with
    | .plain => ""
    | .illustrated =>
      "## Architecture\n\n" ++ Insertion.architectureLinks ++
        "- [Component Overview](architecture/diagrams/component-overview.mmd)\n" ++
        "- [Data Flow](architecture/diagrams/data-flow.mmd)\n\n") ++
    "## Module Documentation\n\n" ++
    String.join (pages.map fun (level, path, link) =>
      Text.repeated level "  " ++ "- [" ++ path ++ "](" ++ link ++ ")\n")

/-! ## The architecture page -/

def patternModules (catalog : Catalog) : OrderedMap String (List (String × Float)) :=
  (Figure.reports catalog).foldl (fun groups report =>
    report.patterns.patterns.foldl (fun groups pattern =>
      groups.insert pattern.kind
        (groups.getD pattern.kind [] ++ [(report.info.path, pattern.confidence)])) groups) .empty

def patternText (kind : String) (cases : List (String × Float)) : String :=
  let total := cases.foldl (fun total one => total + one.2) 0
  "### " ++ Text.title kind ++ " Pattern\n\n" ++
    "- **Occurrences**: " ++ Decimal.natText cases.length ++ " modules\n" ++
    "- **Average Confidence**: " ++ percent (total / cases.length.toFloat) ++ "\n" ++
    "- **Found in**: " ++ Text.join ", " ((cases.take 5).map Prod.fst) ++
    (if cases.length > 5 then " and " ++ Decimal.natText (cases.length - 5) ++ " more" else "") ++
    "\n\n"

def patternAnalysis (catalog : Catalog) : String :=
  let groups := patternModules catalog
  if groups.isEmpty then "No specific architectural patterns detected across modules.\n"
  else
    "Detected patterns across the codebase:\n\n" ++
      String.join (groups.entries.map fun (kind, cases) => patternText kind cases)

def diagramSections (system modules components flow : String) : String :=
  "# Architecture Overview\n\n" ++
    "## System Architecture\n\n" ++
    "The following diagram shows the complete system architecture:\n\n" ++ system ++ "\n\n" ++
    "## Module Dependencies\n\n" ++
    "This diagram illustrates dependencies between modules:\n\n" ++ modules ++ "\n\n" ++
    "## Component Overview\n\n" ++
    "Components organized by type:\n\n" ++ components ++ "\n\n" ++
    "## Data Flow\n\n" ++
    "Main data paths through the system:\n\n" ++ flow ++ "\n\n"

def patternsPart (catalog : Catalog) : String :=
  "## Architectural Patterns\n\n" ++ patternAnalysis catalog ++ "\n"

end CodeAtlas.Wiki
