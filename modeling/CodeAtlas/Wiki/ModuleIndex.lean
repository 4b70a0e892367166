import CodeAtlas.Json.Access
import CodeAtlas.Json.Printer
import CodeAtlas.OrderedMap

/-!
The modules of a tree of modules. The tree is an object: each name leads to an object with the
components of the module and, again as such a tree, its children. All modules are listed parents
first; if a name occurs twice, what is said of it later counts.
-/

namespace CodeAtlas.Wiki

structure ModuleInfo where
  path : String
  listed : Json
  children : Json
  parent : Option String
  isLeaf : Bool
  level : Nat

namespace ModuleInfo

def items (info : ModuleInfo) : List Json := info.listed.itemsOf

/-- What is listed of a module and can be a component: the texts. -/
def components (info : ModuleInfo) : List String := info.items.filterMap Json.text?

end ModuleInfo

/-- What is listed as the components of a module. It has items, each of which can be looked up. -/
def componentsOf (members : Json.Members) : Except Fault Json := do
  let listed := (members.lookup "components").getD (.list [])
  let _ ← (← listed.items).mapM Json.key
  return listed

def moduleInfo (parent : Option String) (level : Nat) (path : String) (members : Json.Members) :
    Except Fault ModuleInfo := do
  let children := (members.lookup "children").getD (.object [])
  let isLeaf := (← children.size) == 0
  return ⟨path, ← componentsOf members, children, parent, isLeaf, level⟩

mutual

def listModules (parent : Option String) (level : Nat) :
    List (String × Json) → Except Fault (List ModuleInfo)
  | [] => return []
  | (path, value) :: rest => do
    let here ← listModule parent level path value
    return here ++ (← listModules parent level rest)

def listModule (parent : Option String) (level : Nat) (path : String) :
    Json → Except Fault (List ModuleInfo)
  | .object members => do
    let info ← moduleInfo parent level path members
    return info :: (← listChildren level path members)
  | _ => throw .noSuchMember

def listChildren (level : Nat) (path : String) :
    List (String × Json) → Except Fault (List ModuleInfo)
  | [] => return []
  | ("children", .object children) :: _ => listModules (some path) (level + 1) children
  | ("children", other) :: _ => if other.isTruthy then throw .noSuchMember else return []
  | _ :: rest => listChildren level path rest

end

structure ModuleIndex where
  visits : List ModuleInfo

namespace ModuleIndex

def ofJson : Json → Except Fault ModuleIndex
  | .object members => return ⟨← listModules none 0 members⟩
  | _ => throw .noSuchMember

def modules (index : ModuleIndex) : OrderedMap String ModuleInfo :=
  .ofList (index.visits.map fun info => (info.path, info))

def leaves (index : ModuleIndex) : List String :=
  (index.visits.filter (·.isLeaf)).map (·.path)

def parents (index : ModuleIndex) : List String :=
  (index.visits.filter fun info => !info.isLeaf).map (·.path)

def roots (index : ModuleIndex) : List String :=
  (index.visits.filter (·.parent.isNone)).map (·.path)

def owners (index : ModuleIndex) : OrderedMap String String :=
  .ofList (index.visits.flatMap fun info => info.components.map fun id => (id, info.path))

def depth (index : ModuleIndex) : Except Fault Nat :=
  match index.modules.values.map (·.level) with
  | [] => throw .badValue
  | first :: rest => return rest.foldl max first

def atLevel (index : ModuleIndex) (level : Nat) : List String :=
  (index.modules.values.filter (·.level == level)).map (·.path)

/-- The levels from the deepest one up, those without a module left out. -/
def levels (index : ModuleIndex) : Except Fault (List (List String)) := do
  let depth ← index.depth
  return ((List.range (depth + 1)).reverse.map index.atLevel).filter fun names => !names.isEmpty

end ModuleIndex

def ModuleInfo.toJson (info : ModuleInfo) : Json :=
  .object [("path", .text info.path), ("components", info.listed),
    ("children", info.children), ("parent", .ofOption .text info.parent),
    ("is_leaf", .bool info.isLeaf), ("level", .nat info.level)]

def ModuleInfo.childNames (info : ModuleInfo) : Except Fault (List String) := do
  return (← info.children.members).map Prod.fst

/-- The name that a value has as a key in a file. -/
def keyName : Json → String
  | .text written => written
  | value => value.render Json.compact

def ModuleIndex.ownersJson (index : ModuleIndex) : Json :=
  .object (OrderedMap.ofList (index.visits.flatMap fun info =>
    info.items.map fun id => (keyName id, Json.text info.path))).entries

def ModuleIndex.toJson (index : ModuleIndex) : Json :=
  .object [
    ("modules", .object (index.modules.entries.map fun (path, info) => (path, info.toJson))),
    ("leaf_modules", .ofStrings index.leaves), ("parent_modules", .ofStrings index.parents),
    ("root_modules", .ofStrings index.roots),
    ("component_to_module", index.ownersJson)]

end CodeAtlas.Wiki
