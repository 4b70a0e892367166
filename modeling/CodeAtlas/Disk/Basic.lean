import CodeAtlas.Disk.Tree
import CodeAtlas.Json.Access

/-!
A disk: one file tree and a current directory. Paths are followed from the top or from the current
directory, through links and double dots, as an operating system does it.
-/

namespace CodeAtlas

structure Disk where
  root : FileTree
  current : List String
deriving Inhabited

namespace Disk

def empty : Disk := ⟨.directory [], []⟩

/-- More links than this on one way are taken for a loop. -/
def maxLinks : Nat := 40

def startOf (disk : Disk) (path : String) : List String :=
  if Path.isAbsolute path then [] else disk.current

/-- Follows names from a position, which is kept innermost name first. With a strict way each step
has to start in a directory; otherwise what is missing is taken as it is written. -/
def follow (root : FileTree) (strict : Bool) (links : Nat) (position todo : List String) :
    Except Fault (List String) :=
  match todo with
  | [] => .ok position
  | name :: rest =>
    let here := root.get? position.reverse
    if strict && here.isNone then .error .noFile
    else if strict && !here.any FileTree.isDirectory then .error .notDirectory
    else if name == ".." then follow root strict links (position.drop 1) rest
    else
      match here.bind (·.child? name) with
      | some (.link target) =>
        match links with
        | 0 => .error .badValue
        | links + 1 =>
          let start := if Path.isAbsolute target then [] else position
          follow root strict links start (Path.parts target ++ rest)
      | _ => follow root strict links (name :: position) rest
termination_by (links, todo.length)

/-- No path holds a null character, and on a strict way the empty path leads nowhere. -/
def refused? (strict : Bool) (path : String) : Option Fault :=
  if Text.contains path "\x00" then some .badValue
  else if strict && path == "" then some .noFile
  else none

def resolve (disk : Disk) (strict : Bool) (path : String) : Except Fault (List String) :=
  match refused? strict path with
  | some cause => .error cause
  | none =>
    List.reverse <$>
      follow disk.root strict maxLinks (disk.startOf path).reverse (Path.parts path)

/-- The position of the entry that a path names, its last name not followed. -/
def entryPosition (disk : Disk) (path : String) : Except Fault (List String) :=
  let parts := Path.parts path
  match parts.getLast? with
  | none => .ok (disk.startOf path)
  | some ".." => disk.resolve true path
  | some name => do
    let folder ← follow disk.root true maxLinks (disk.startOf path).reverse parts.dropLast
    let here := disk.root.get? folder.reverse
    if here.isNone then throw .noFile
    if !here.any FileTree.isDirectory then throw .notDirectory
    return (name :: folder).reverse

def pathOf (position : List String) : String := "/" ++ Text.join "/" position

def get? (disk : Disk) (path : String) : Option FileTree :=
  match disk.resolve true path with
  | .ok position => disk.root.get? position
  | .error _ => none

def entry? (disk : Disk) (path : String) : Option FileTree :=
  match disk.entryPosition path with
  | .ok position => disk.root.get? position
  | .error _ => none

def exists? (disk : Disk) (path : String) : Bool := (disk.get? path).isSome

def isFile (disk : Disk) (path : String) : Bool := (disk.get? path).any FileTree.isFile

def isDirectory (disk : Disk) (path : String) : Bool := (disk.get? path).any FileTree.isDirectory

def isLink (disk : Disk) (path : String) : Bool := (disk.entry? path).any FileTree.isLink

/-- The whole path without links and double dots; missing parts are kept as they are. -/
def realPath (disk : Disk) (path : String) : String :=
  match disk.resolve false path with
  | .ok position => pathOf position
  | .error _ => path

def need (disk : Disk) (path : String) : Except Fault FileTree := do
  let position ← disk.resolve true path
  match disk.root.get? position with
  | some tree => return tree
  | none => throw .noFile

def read (disk : Disk) (path : String) : Except Fault String := do
  match ← disk.need path with
  | .file text => return text
  | .bytes _ => throw .undecodable
  | .directory _ => throw .isDirectory
  | _ => return ""

def writeFile (disk : Disk) (path : String) (file : FileTree) : Except Fault Disk := do
  let position ← disk.resolve true path
  match disk.root.get? position with
  | some (.directory _) => throw .isDirectory
  | some _ => return { disk with root := disk.root.put position file }
  | none =>
    let folder := disk.root.get? position.dropLast
    if folder.isNone then throw .noFile
    if !folder.any FileTree.isDirectory then throw .notDirectory
    return { disk with root := disk.root.put position file }

def write (disk : Disk) (path text : String) : Except Fault Disk :=
  disk.writeFile path (.file text)

/-- Makes a directory and those above it; a directory that is there already is fine, a link that
leads nowhere is in the way. -/
def makeDirectories (disk : Disk) (path : String) : Except Fault Disk :=
  match refused? true path with
  | some cause => .error cause
  | none => go disk (disk.startOf path).reverse (Path.parts path)
where
  go (disk : Disk) (position : List String) : List String → Except Fault Disk
    | [] => return disk
    | name :: rest => do
      let place ← follow disk.root false maxLinks position [name]
      match disk.root.get? place.reverse with
      | some (.directory _) => go disk place rest
      | some _ => throw (if rest.isEmpty then .fileExists else .notDirectory)
      | none =>
        if (disk.root.get? (name :: position).reverse).isSome then throw .fileExists
        go { disk with root := disk.root.put place.reverse (.directory []) } place rest

def removeEntry (disk : Disk) (path : String) : Except Fault Disk := do
  let position ← disk.entryPosition path
  match disk.root.get? position with
  | none => throw .noFile
  | some _ => return { disk with root := disk.root.remove position }

def removeFile (disk : Disk) (path : String) : Except Fault Disk := do
  if (disk.entry? path).any FileTree.isDirectory then throw .isDirectory
  disk.removeEntry path

/-- Removes a directory with all that is in it; a link to one is refused. -/
def removeTree (disk : Disk) (path : String) : Except Fault Disk := do
  let position ← disk.entryPosition path
  match disk.root.get? position with
  | none => throw .noFile
  | some (.directory _) => disk.removeEntry path
  | some _ => throw .notDirectory

def moveFile (disk : Disk) (source target : String) : Except Fault Disk := do
  let some tree := disk.entry? source | throw .noFile
  if (disk.entry? target).any FileTree.isDirectory then throw .isDirectory
  let position ← disk.entryPosition target
  let moved ← disk.removeEntry source
  return { moved with root := moved.root.put position tree }

def list (disk : Disk) (path : String) : Except Fault (List String) := do
  match ← disk.need path with
  | .directory entries => return entries.map Prod.fst
  | _ => throw .notDirectory

/-- Everything below a path, with relative paths, parents before children; links are not followed. -/
def below (disk : Disk) (path : String) : List (String × FileTree) :=
  match disk.get? path with
  | some tree => (tree.descendants []).map fun entry => (Text.join "/" entry.1, entry.2)
  | none => []

def filesBelow (disk : Disk) (path : String) : List (String × FileTree) :=
  ((disk.below path).filter fun entry => !entry.2.isDirectory).mergeSort fun left right =>
    decide (left.1 ≤ right.1)

/-- Puts a tree at a path without asking what was there. -/
def place (disk : Disk) (path : String) (tree : FileTree) : Disk :=
  { disk with root := disk.root.put (disk.startOf path ++ Path.parts path) tree }

end Disk

end CodeAtlas
