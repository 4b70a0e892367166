import CodeAtlas.Wiki.Purpose

/-!
The architectural patterns of a module.
-/

namespace CodeAtlas.Wiki

structure Pattern where
  kind : String
  confidence : Float
  evidence : List String
  components : Json

/-- A component with its purpose. -/
structure Described where
  entry : Entry
  purpose : Purpose

def Described.isPlugin (one : Described) : Bool :=
  Text.contains (Text.lower one.entry.name.asText) "plugin"

structure PatternReport where
  patterns : List Pattern
  roles : OrderedMap String Described

namespace Pattern

def toJson (pattern : Pattern) : Json :=
  .object [("type", .text pattern.kind), ("confidence", .float pattern.confidence),
    ("evidence", .ofStrings pattern.evidence), ("components", pattern.components)]

/-- Three roles or more, one of which two components share. -/
def isLayered (roles : List String) : Bool :=
  roles.eraseDups.length ≥ 3 && roles.any fun role => roles.count role ≥ 2

end Pattern

namespace Catalog

def known (catalog : Catalog) (ids : List String) : List (String × Entry) :=
  ids.filterMap fun id => (catalog.entries.get? id).map fun entry => (id, entry)

def described (catalog : Catalog) (ids : List String) :
    Except Fault (OrderedMap String Described) := do
  return .ofList (← (catalog.known ids).mapM fun (id, entry) => do
    return (id, ⟨entry, ← catalog.purpose entry⟩))

/-- A facade is used from outside by three or more and uses three or more components inside. -/
def isFacade (catalog : Catalog) (path id : String) : Bool :=
  (catalog.entries.get? id).any fun entry =>
    let outside := (catalog.dependents id).filter fun user =>
      catalog.moduleOf? user != some path
    let inside := entry.dependsOn.filter fun used =>
      catalog.entries.contains used && catalog.moduleOf? used == some path
    outside.length ≥ 3 && inside.length ≥ 3

def patterns (catalog : Catalog) (info : ModuleInfo) (roles : OrderedMap String Described) :
    PatternReport :=
  let layered : List Pattern :=
    if Pattern.isLayered (roles.values.map (·.purpose.role)) then
      [⟨"layered", 0.7, ["Clear separation of concerns", "Unidirectional dependencies"],
        info.listed⟩]
    else []
  let plugins := (roles.filter fun _ one => one.isPlugin).keys
  let plugin : List Pattern :=
    if plugins.length ≥ 2 then
      [⟨"plugin", 0.8,
        ["Multiple plugin-like components: " ++ Decimal.natText plugins.length],
        .ofStrings plugins⟩]
    else []
  let facades := info.components.filter (catalog.isFacade info.path)
  let facade : List Pattern :=
    if facades.isEmpty then []
    else
      [⟨"facade", 0.7, ["Components with high external fan-in and internal fan-out"],
        .ofStrings facades⟩]
  ⟨layered ++ plugin ++ facade, roles⟩

end Catalog

def PatternReport.toJson (report : PatternReport) : Json :=
  .object [("patterns", .list (report.patterns.map Pattern.toJson)),
    ("component_roles", .object (report.roles.entries.map fun (id, ⟨_, purpose⟩) =>
      (id, .object [("role", .text purpose.role), ("confidence", .float purpose.confidence),
        ("reasoning", .text (purpose.reasons.headD ""))])))]

structure Report where
  info : ModuleInfo
  dependencies : ModuleDependencies
  patterns : PatternReport

def Report.entries (report : Report) : OrderedMap String Described := report.patterns.roles

namespace Catalog

def report (catalog : Catalog) (info : ModuleInfo) : Except Fault Report := do
  return {
    info
    dependencies := catalog.moduleDependencies info
    patterns := catalog.patterns info (← catalog.described info.components) }

def reportJson (catalog : Catalog) (report : Report) : Json :=
  .object [("module", .text report.info.path),
    ("summary", .object [("path", .text report.info.path),
      ("component_count", .nat report.info.items.length),
      ("is_leaf", .bool report.info.isLeaf), ("level", .nat report.info.level),
      ("has_children", .bool !report.info.isLeaf)]),
    ("dependencies", report.dependencies.usedJson),
    ("dependents", report.dependencies.usersJson),
    ("complexity", report.dependencies.complexityJson),
    ("patterns", report.patterns.toJson),
    ("components", .object (report.entries.entries.map fun (id, ⟨entry, purpose⟩) =>
      (id, .object [("info", catalog.entryJson entry),
        ("dependencies", catalog.entryDependencies entry), ("purpose", purpose.toJson)])))]

def aboutModule (catalog : Catalog) (path : String) (say : ModuleInfo → Except Fault Json) :
    Except Fault Json :=
  match catalog.modules.get? path with
  | some info => say info
  | none => return moduleMissing path

end Catalog

end CodeAtlas.Wiki
