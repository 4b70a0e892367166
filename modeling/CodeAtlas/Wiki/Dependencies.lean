import CodeAtlas.Graph.Basic
import CodeAtlas.Wiki.Catalog

/-!
What depends on what, for one component and for one module. A dependency inside a module is
internal; one that leads to another module, or to a component without one, is external.
-/

namespace CodeAtlas.Wiki

structure Neighbour where
  id : String
  name : Json
  kind : Json
  home : Option String

structure Side where
  inner : List Neighbour
  outer : List Neighbour

namespace Neighbour

def innerJson (neighbour : Neighbour) : Json.Members :=
  [("id", .text neighbour.id), ("name", neighbour.name), ("type", neighbour.kind)]

def outerJson (neighbour : Neighbour) : Json.Members :=
  neighbour.innerJson ++ [("module", .ofOption .text neighbour.home)]

end Neighbour

/-- Whether a module counts as one: it has a name that is not empty. -/
def named? : Option String → Option String
  | some "" => none
  | home => home

def Side.modules (side : Side) : List String :=
  Graph.sorted (side.outer.filterMap fun neighbour => named? neighbour.home).eraseDups

namespace Catalog

def neighbour? (catalog : Catalog) (id : String) : Option Neighbour :=
  (catalog.entries.get? id).map fun entry => ⟨id, entry.name, entry.kind, catalog.moduleOf? id⟩

def side (catalog : Catalog) (home : Option String) (ids : List String) : Side :=
  let neighbours := ids.filterMap catalog.neighbour?
  ⟨neighbours.filter (·.home == home), neighbours.filter (·.home != home)⟩

def dependencySide (catalog : Catalog) (entry : Entry) : Side :=
  catalog.side (catalog.moduleOf? entry.key) entry.dependsOn

def dependentSide (catalog : Catalog) (entry : Entry) : Side :=
  catalog.side (catalog.moduleOf? entry.key) (catalog.dependents entry.key)

def entryDependencies (catalog : Catalog) (entry : Entry) : Json :=
  let used := catalog.dependencySide entry
  let users := catalog.dependentSide entry
  .object [
    ("internal_dependencies", .list (used.inner.map fun one => .object one.innerJson)),
    ("external_dependencies", .list (used.outer.map fun one => .object one.outerJson)),
    ("internal_dependents", .list (users.inner.map fun one => .object one.innerJson)),
    ("external_dependents", .list (users.outer.map fun one => .object one.outerJson)),
    ("dependency_modules", .ofStrings used.modules),
    ("dependent_modules", .ofStrings users.modules)]

def componentMissing (id : String) : String × Json :=
  ("error", .text ("Component " ++ id ++ " not found"))

def moduleMissing (path : String) : Json :=
  .object [("error", .text ("Module " ++ path ++ " not found"))]

def dependenciesJson (catalog : Catalog) (id : String) : Json :=
  match catalog.entries.get? id with
  | some entry => catalog.entryDependencies entry
  | none =>
    .object (componentMissing id ::
      ["internal_dependencies", "external_dependencies", "internal_dependents",
        "external_dependents", "dependency_modules", "dependent_modules"].map
          fun name => (name, .list []))

end Catalog

structure Link where
  source : String
  target : String
deriving DecidableEq

def Link.toJson (link : Link) : Json :=
  .object [("from_component", .text link.source), ("to_component", .text link.target)]

/-- The dependencies of a module: those inside it, those on other modules and those of other
modules on it, the latter two by module in the order in which the modules are met. -/
structure ModuleDependencies where
  path : String
  listed : Json
  inner : List Link
  used : OrderedMap String (List Link)
  users : OrderedMap String (List Link)

def groupLinks (links : List (String × Link)) : OrderedMap String (List Link) :=
  links.foldl (fun groups (path, link) =>
    groups.insert path (groups.getD path [] ++ [link])) .empty

namespace Catalog

def linksFrom (catalog : Catalog) (id : String) : List (Option String × Link) :=
  match catalog.entries.get? id with
  | some entry =>
    (entry.dependsOn.filter catalog.entries.contains).map fun target =>
      (catalog.moduleOf? target, ⟨id, target⟩)
  | none => []

def linksTo (catalog : Catalog) (id : String) : List (Option String × Link) :=
  if catalog.entries.contains id then
    (catalog.dependents id).map fun source => (catalog.moduleOf? source, ⟨source, id⟩)
  else []

def foreign (path : String) (links : List (Option String × Link)) : List (String × Link) :=
  links.filterMap fun (home, link) => do
    let home ← named? home
    if home == path then none else some (home, link)

def moduleDependencies (catalog : Catalog) (info : ModuleInfo) : ModuleDependencies :=
  let outgoing := info.components.flatMap catalog.linksFrom
  let incoming := info.components.flatMap catalog.linksTo
  { path := info.path
    listed := info.listed
    inner := (outgoing.filter (·.1 == some info.path)).map Prod.snd
    used := groupLinks (foreign info.path outgoing)
    users := groupLinks (foreign info.path incoming) }

end Catalog

namespace ModuleDependencies

def outerCount (found : ModuleDependencies) : Nat :=
  (found.used.values.map List.length).foldl (· + ·) 0

def cohesion (found : ModuleDependencies) : Float :=
  let total := found.inner.length + found.outerCount
  if total > 0 then found.inner.length.toFloat / total.toFloat else 0

def usedJson (found : ModuleDependencies) : Json :=
  .list (found.used.entries.map fun (path, links) =>
    .object [("target_module", .text path), ("relationships", .list (links.map Link.toJson))])

def usersJson (found : ModuleDependencies) : Json :=
  .list (found.users.entries.map fun (path, links) =>
    .object [("source_module", .text path), ("relationships", .list (links.map Link.toJson))])

def complexityJson (found : ModuleDependencies) : Json :=
  .object [("component_count", .nat found.listed.itemsOf.length),
    ("internal_edge_count", .nat found.inner.length),
    ("external_edge_count", .nat found.outerCount),
    ("cohesion_score", .float found.cohesion)]

def toJson (found : ModuleDependencies) : Json :=
  .object [("module", .text found.path), ("components", found.listed),
    ("internal_dependencies", .list (found.inner.map fun link =>
      .object [("from", .text link.source), ("to", .text link.target),
        ("type", .text "depends_on")])),
    ("external_dependencies", found.usedJson), ("external_dependents", found.usersJson),
    ("complexity", found.complexityJson)]

end ModuleDependencies

end CodeAtlas.Wiki
