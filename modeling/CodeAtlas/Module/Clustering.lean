import CodeAtlas.Component

/-!
Modules from directories. A leaf component belongs to the module named by the first directories of
its file; a file at the root belongs to none.
-/

namespace CodeAtlas

structure ModuleEntry where
  components : List String
  path : String
deriving DecidableEq

abbrev ModuleTable := OrderedMap String ModuleEntry

namespace Clustering

/-- The module of a file. Some first directories only wrap the code and are passed over, together
with one more inside them for sources. -/
def moduleOf? (relativePath : String) : Option String :=
  match Text.split relativePath "/" with
  | [] => none
  | [_] => none
  | first :: second :: rest =>
    if ["gatowiki", "lib", "app"].contains first && !rest.isEmpty then
      match rest with
      | third :: _ :: _ => some (if second == "src" then second ++ "/" ++ third else second)
      | _ => some second
    else if first == "src" && !rest.isEmpty then some second
    else some first

def moduleOfLeaf? (files : OrderedMap String String) (leaf : String) : Option String :=
  (files.get? leaf).bind moduleOf?

def addLeaf (files : OrderedMap String String) (groups : OrderedMap String (List String))
    (leaf : String) : OrderedMap String (List String) :=
  match moduleOfLeaf? files leaf with
  | some name => groups.insert name (groups.getD name [] ++ [leaf])
  | none => groups

/-- The modules of the leaves, in the order in which they are first met. The map gives the relative
path of each component. -/
def cluster (leaves : List String) (files : OrderedMap String String) : ModuleTable :=
  (leaves.foldl (addLeaf files) .empty).mapValues fun name members =>
    ⟨Graph.sorted members, name⟩

end Clustering

def ModuleEntry.toJson (entry : ModuleEntry) : Json :=
  .object [("components", .ofStrings entry.components), ("path", .text entry.path),
    ("children", .object [])]

/-- A module is complex if its components stand in more than one file. -/
def isComplexModule (files : OrderedMap String String) (ids : List String) : Bool :=
  (ids.filterMap files.get?).eraseDups.length > 1

end CodeAtlas
