import CodeAtlas.Wiki.ModuleIndex

/-!
The catalog of a code base: its modules, and its components with what they depend on.
-/

namespace CodeAtlas.Wiki

/-- A component and what the graph says of it. -/
structure Entry where
  key : String
  members : Json.Members

namespace Entry

def member (entry : Entry) (name : String) (default : Json) : Json :=
  (entry.members.lookup name).getD default

def id (entry : Entry) : Json := entry.member "id" (.text entry.key)

def name (entry : Entry) : Json :=
  entry.member "name" (.text ((Text.split entry.key ".").getLastD ""))

def kind (entry : Entry) : Json := entry.member "component_type" (.text "unknown")

def filePath (entry : Entry) : Json := entry.member "file_path" (.text "")

def relativePath (entry : Entry) : Json := entry.member "relative_path" (.text "")

def used (entry : Entry) : Json := entry.member "depends_on" (.list [])

/-- What a component depends on and can be a component: the texts. -/
def dependsOn (entry : Entry) : List String := entry.used.itemsOf.filterMap Json.text?

/-- Of what is said of a component, only the number of its dependencies is looked at. -/
def ofJson (key : String) (value : Json) : Except Fault Entry := do
  let entry : Entry := ⟨key, ← value.members⟩
  let _ ← entry.used.size
  return entry

end Entry

structure Catalog where
  index : ModuleIndex
  modules : OrderedMap String ModuleInfo
  owners : OrderedMap String String
  entries : OrderedMap String Entry

namespace Catalog

def ofJson (tree graph : Json) : Except Fault Catalog := do
  let index ← ModuleIndex.ofJson tree
  let entries ← (← graph.members).mapM fun (key, value) => do
    return (key, ← Entry.ofJson key value)
  let _ ← entries.mapM fun (_, entry) => entry.used.itemsOf.mapM Json.key
  return ⟨index, index.modules, index.owners, .ofList entries⟩

def moduleOf? (catalog : Catalog) (id : String) : Option String := catalog.owners.get? id

def dependents (catalog : Catalog) (id : String) : List String :=
  catalog.entries.values.flatMap fun entry =>
    (entry.dependsOn.filter (· == id)).map fun _ => entry.key

def entryJson (catalog : Catalog) (entry : Entry) : Json :=
  let dependents := catalog.dependents entry.key
  .object [("id", entry.id), ("name", entry.name), ("component_type", entry.kind),
    ("file_path", entry.filePath), ("relative_path", entry.relativePath),
    ("depends_on", entry.used), ("depended_by", .ofStrings dependents),
    ("module", .ofOption .text (catalog.moduleOf? entry.key)),
    ("dependency_count", .nat entry.used.itemsOf.length),
    ("dependent_count", .nat dependents.length)]

def componentsJson (catalog : Catalog) : Json :=
  .object (catalog.entries.entries.map fun (key, entry) => (key, catalog.entryJson entry))

def dependentsJson (catalog : Catalog) : Json :=
  let links := catalog.entries.values.flatMap fun entry =>
    entry.used.itemsOf.map fun used => (keyName used, entry.key)
  .object ((links.map Prod.fst).eraseDups.map fun used =>
    (used, .ofStrings ((links.filter (·.1 == used)).map Prod.snd)))

/-- The graph that the components come from. -/
def graph (catalog : Catalog) : Json.Members :=
  catalog.entries.entries.map fun (key, entry) => (key, .object entry.members)

structure Summary where
  modules : Nat
  leaves : Nat
  parents : Nat
  roots : Nat
  components : Nat
  depth : Nat
  levels : Nat

def summary (catalog : Catalog) : Except Fault Summary := do
  return {
    modules := catalog.modules.size
    leaves := catalog.index.leaves.length
    parents := catalog.index.parents.length
    roots := catalog.index.roots.length
    components := catalog.entries.size
    depth := ← catalog.index.depth
    levels := (← catalog.index.levels).length }

def Summary.rows (summary : Summary) : List (String × Nat) :=
  [("total_modules", summary.modules), ("leaf_modules", summary.leaves),
    ("parent_modules", summary.parents), ("root_modules", summary.roots),
    ("total_components", summary.components), ("max_depth", summary.depth),
    ("processing_order_levels", summary.levels)]

end Catalog

end CodeAtlas.Wiki
