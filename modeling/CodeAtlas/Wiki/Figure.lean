import CodeAtlas.Wiki.Pattern

/-!
Diagrams of the modules and components of a catalog. A figure is a fenced block: a head with the
styles, then nodes, edges and the styles of the nodes.
-/

namespace CodeAtlas.Wiki.Figure

def shorten (width : Nat) (label : String) : String :=
  if label.length > width then Text.take label (width - 3) ++ "..." else label

def lastPart (path : String) : String := (Text.split path "/").getLastD ""

def fenced (direction : String) (styles lines : List String) : String :=
  Text.join "\n" (["```mermaid", "graph " ++ direction] ++
    styles.map ("    classDef " ++ ·) ++ [""] ++ lines ++ ["```"])

def numbered (letters : String) (number : Nat) : String := letters ++ Decimal.natText number

def box (node label : String) : String := "    " ++ node ++ "[\"" ++ label ++ "\"]"

def store (node label : String) : String := "    " ++ node ++ "[(\"" ++ label ++ "\")]"

def arrow (source target : String) : String := "    " ++ source ++ " --> " ++ target

def labelled (source label target : String) : String :=
  "    " ++ source ++ " -->|" ++ label ++ "| " ++ target

def styled (node style : String) : String := "    class " ++ node ++ " " ++ style

/-! ## The tree of modules -/

/-- The lines drawn so far, the node of each module and the number of the next node. -/
structure Drawing where
  lines : List String
  nodes : OrderedMap String String
  next : Nat

/-- Draws a module and those below it. Modules that lead to themselves cannot be drawn. -/
def drawModule (children : String → Except Fault (List String)) :
    Nat → Option String → Drawing → String → Except Fault Drawing
  | 0, _, _, _ => throw .tooDeep
  | depth + 1, above, drawing, path => do
    let node := numbered "M" drawing.next
    let lines := [box node (shorten 15 (lastPart path))] ++
      (above.map (arrow · node)).toList
    let drawing : Drawing :=
      ⟨drawing.lines ++ lines, drawing.nodes.insert path node, drawing.next + 1⟩
    (← children path).foldlM (drawModule children depth (some node)) drawing

def tree (roots : List String) (children : String → Except Fault (List String)) (depth : Nat) :
    Except Fault String := do
  let drawing ← roots.foldlM (drawModule children depth none) ⟨[], .empty, 0⟩
  return fenced "TB" [
      "moduleStyle fill:#e1f5ff,stroke:#0288d1,stroke-width:2px",
      "rootStyle fill:#c8e6c9,stroke:#388e3c,stroke-width:3px"]
    (drawing.lines ++ roots.filterMap fun path =>
      (drawing.nodes.get? path).map (styled · "rootStyle"))

/-- The tree of the modules of a catalog. The children of the last module of a name come after it
in the list of visits, so the visits bound the depth. -/
def system (catalog : Catalog) : Except Fault String :=
  tree catalog.index.roots (fun path =>
    match catalog.modules.get? path with
    | some info => info.childNames
    | none => throw .missingKey) (catalog.index.visits.length + 1)

/-! ## Modules and their dependencies -/

def moduleLimit : Nat := 20

/-- The reports on the first modules; modules without one are passed over. -/
def reports (catalog : Catalog) : List Report :=
  (catalog.modules.values.take moduleLimit).filterMap fun info => (catalog.report info).toOption

def moduleStyles : List String := [
  "highDep fill:#ffcdd2,stroke:#c62828",
  "medDep fill:#fff9c4,stroke:#f9a825",
  "lowDep fill:#c8e6c9,stroke:#388e3c"]

def numberedModules (paths : List String) : OrderedMap String String :=
  .ofList (paths.zipIdx.map fun (path, number) => (path, numbered "M" number))

def moduleBoxes (nodes : OrderedMap String String) : List String :=
  nodes.entries.map fun (path, node) => box node (shorten 12 (lastPart path))

def loadStyle (count : Nat) : String :=
  if count > 5 then "highDep" else if count > 2 then "medDep" else "lowDep"

def modules (catalog : Catalog) : String :=
  let nodes := numberedModules catalog.modules.keys
  let node (path : String) : String := nodes.getD path ""
  let edges := (reports catalog).flatMap fun report =>
    report.dependencies.used.entries.map fun (target, links) =>
      (report.info.path, target, links.length)
  let load (path : String) : Nat :=
    ((edges.filter (·.2.1 == path)).map (·.2.2)).foldl (· + ·) 0
  fenced "LR" moduleStyles
    (moduleBoxes nodes ++
      edges.map (fun (source, target, count) =>
        labelled (node source) (Decimal.natText count) (node target)) ++
      nodes.entries.map fun (path, node) => styled node (loadStyle (load path)))

def loneModules (paths : List String) : String :=
  fenced "LR" moduleStyles (moduleBoxes (numberedModules paths))

/-! ## Components by kind -/

/-- The names of the components of a graph by their kinds, which are texts. -/
def namesByKind (graph : Json.Members) : Except Fault (OrderedMap String (List Json)) := do
  let rows ← graph.mapM fun (id, value) => do
    let entry : Entry := ⟨id, ← value.members⟩
    return (← entry.kind.key, entry.member "name" (.text id))
  rows.foldlM (fun groups (kind, name) => do
    let kind ← kind.textOf
    return groups.insert kind (groups.getD kind [] ++ [name])) .empty

def kindStyle (kind classStyle functionStyle otherStyle : String) : String :=
  if kind == "class" then classStyle
  else if kind == "function" then functionStyle
  else otherStyle

def plainLabel (label : String) : String :=
  Text.replace (Text.replace (Text.replace label "[" "") "]" "") "\"" "'"

def kindLines (number : Nat) (kind : String) (names : List Json) : Except Fault (List String) := do
  let group := numbered "T" number
  let lines ← (names.take 3).zipIdx.mapM fun (name, index) => do
    let node := numbered "C" number ++ "_" ++ Decimal.natText index
    return [box node (shorten 20 (plainLabel (← name.textOf))), arrow group node,
      styled node (kindStyle kind "classType" "funcType" "moduleType")]
  return box group (Text.upper kind ++ "<br/>" ++ Decimal.natText names.length ++ " components") ::
    lines.flatten

def components (graph : Json.Members) : Except Fault String := do
  let lines ← (← namesByKind graph).entries.zipIdx.mapM fun ((kind, names), number) =>
    kindLines number kind names
  return fenced "TB" [
      "classType fill:#bbdefb,stroke:#1976d2",
      "funcType fill:#c5e1a5,stroke:#689f38",
      "moduleType fill:#fff9c4,stroke:#f9a825"] lines.flatten

/-! ## The flow of data -/

inductive FlowPart where
  | source
  | store
  | processor
deriving DecidableEq

def flowPart? (name : String) : Option FlowPart :=
  let name := Text.lower name
  if Text.containsAny name ["input", "source", "reader", "loader", "fetch"] then some .source
  else if Text.containsAny name ["store", "repository", "database", "cache", "storage"] then
    some .store
  else if Text.containsAny name ["processor", "handler", "service", "manager", "controller"] then
    some .processor
  else none

/-- The part that a component of a graph has in the flow, and its name. -/
def flowRow (id : String) (value : Json) : Except Fault (Option FlowPart × String) := do
  let entry : Entry := ⟨id, ← value.members⟩
  return (flowPart? (← (entry.member "name" (.text "")).textOf),
    (entry.member "name" (.text id)).asText)

/-- The flow between the components of the three parts; if wanted, also the way back from the
first store to the second processor. -/
def flow (withReturn : Bool) (graph : Json.Members) : Except Fault String := do
  let rows ← graph.mapM fun (id, value) => flowRow id value
  let names (part : FlowPart) : List String := (rows.filter (·.1 == some part)).map Prod.snd
  let sources := names .source
  let processors := names .processor
  let stores := names .store
  let draw (letter style : String) (shape : String → String → String) (names : List String) :
      List String :=
    (names.take 3).zipIdx.flatMap fun (name, number) =>
      let node := numbered letter number
      [shape node (shorten 15 name), styled node style]
  return fenced "LR" [
      "dataSource fill:#e3f2fd,stroke:#1976d2",
      "processor fill:#fff3e0,stroke:#f57c00",
      "dataStore fill:#f3e5f5,stroke:#7b1fa2"]
    (draw "S" "dataSource" box sources ++ draw "P" "processor" box processors ++
      draw "D" "dataStore" store stores ++
      (if sources.isEmpty || processors.isEmpty then [] else [labelled "S0" "data" "P0"]) ++
      (if processors.isEmpty || stores.isEmpty then [] else [labelled "P0" "save" "D0"]) ++
      (if withReturn && stores.length > 1 && processors.length > 1 then
        [labelled "D0" "load" "P1"]
      else []))

/-! ## One module -/

def moduleComponents (report : Report) (links : List Link) : String :=
  let nodes : OrderedMap String (String × Entry) :=
    .ofList ((report.entries.entries.take 20).zipIdx.map fun ((id, one), number) =>
      (id, numbered "C" number, one.entry))
  let edges := (links.filterMap fun link => do
    let (source, _) ← nodes.get? link.source
    let (target, _) ← nodes.get? link.target
    return (source, target)).eraseDups
  fenced "LR" [
      "classNode fill:#bbdefb,stroke:#1976d2,stroke-width:2px",
      "funcNode fill:#c5e1a5,stroke:#689f38,stroke-width:2px",
      "moduleNode fill:#fff9c4,stroke:#f9a825,stroke-width:2px"]
    (nodes.values.map (fun (node, entry) => box node (shorten 20 entry.name.asText)) ++
      edges.map (fun (source, target) => arrow source target) ++
      nodes.values.map fun (node, entry) =>
        styled node (kindStyle entry.kind.asText "classNode" "funcNode" "moduleNode"))

def surroundings (report : Report) : String :=
  let used := (report.dependencies.used.keys.take 5).zipIdx.flatMap fun (path, number) =>
    let node := numbered "DEP" number
    [box node (shorten 12 (lastPart path)), labelled "THIS" "uses" node, styled node "depModule"]
  let users := (report.dependencies.users.keys.take 5).zipIdx.flatMap fun (path, number) =>
    let node := numbered "USER" number
    [box node (shorten 12 (lastPart path)), labelled node "uses" "THIS", styled node "userModule"]
  fenced "TB" [
      "thisModule fill:#c8e6c9,stroke:#388e3c,stroke-width:3px",
      "depModule fill:#ffcdd2,stroke:#c62828",
      "userModule fill:#bbdefb,stroke:#1976d2"]
    ([box "THIS" (shorten 15 (lastPart report.info.path)), styled "THIS" "thisModule", ""] ++
      used ++ users)

def loneModule (path : String) : String :=
  fenced "LR" ["componentStyle fill:#e1f5ff,stroke:#0288d1,stroke-width:2px"]
    [box "M0" (lastPart path), styled "M0" "componentStyle"]

/-! ## Plain figures -/

def plain (direction : String) (lines : List String) : String :=
  Text.join "\n" (["```mermaid", "graph " ++ direction] ++ lines ++ ["```\n"])

def plainBox (node label : String) : String := "    " ++ node ++ "[" ++ label ++ "]"

def plainComponents (report : Report) : String :=
  let nodes := report.entries.values.zipIdx.map fun (one, number) => (numbered "C" number, one)
  plain "LR" (nodes.map (fun (node, one) => plainBox node one.entry.name.shown) ++
    nodes.map fun (node, _) => "    style " ++ node ++ " fill:#e1f5ff")

def family (path : String) (children : List String) : String :=
  plain "TB" (plainBox "P" path :: children.zipIdx.flatMap fun (child, number) =>
    [plainBox (numbered "C" number) child, arrow "P" (numbered "C" number)])

def rootModules (catalog : Catalog) : String :=
  plain "TB" (catalog.index.roots.zipIdx.map fun (path, number) =>
    plainBox (numbered "M" number) path)

end CodeAtlas.Wiki.Figure
