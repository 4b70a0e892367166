import CodeAtlas.Path

/-!
File trees. A directory keeps its entries in the alphabetical order of their names. A position is a
list of names from the top; looking up a position does not follow links.
-/

namespace CodeAtlas

inductive FileTree where
  | file (text : String)
  /-- A file whose bytes are not those of a text. -/
  | bytes (content : List UInt8)
  | directory (entries : List (String × FileTree))
  | link (target : String)
  | pipe
deriving Inhabited

namespace FileTree

def isFile : FileTree → Bool
  | .file _ | .bytes _ => true
  | _ => false

def isDirectory : FileTree → Bool
  | .directory _ => true
  | _ => false

def isLink : FileTree → Bool
  | .link _ => true
  | _ => false

def entries : FileTree → List (String × FileTree)
  | .directory entries => entries
  | _ => []

def child? (tree : FileTree) (name : String) : Option FileTree := tree.entries.lookup name

def size : FileTree → Nat
  | .file text => text.utf8ByteSize
  | .bytes content => content.length
  | _ => 0

def get? : FileTree → List String → Option FileTree
  | tree, [] => some tree
  | tree, name :: rest => (tree.child? name).bind fun child => child.get? rest

/-- Puts an entry at its place in the order, or in the place of an entry with its name. -/
def insertEntry (name : String) (tree : FileTree) :
    List (String × FileTree) → List (String × FileTree)
  | [] => [(name, tree)]
  | (other, old) :: rest =>
    if name == other then (name, tree) :: rest
    else if name < other then (name, tree) :: (other, old) :: rest
    else (other, old) :: insertEntry name tree rest

def eraseEntry (name : String) (entries : List (String × FileTree)) : List (String × FileTree) :=
  entries.filter fun entry => entry.1 != name

def put : FileTree → List String → FileTree → FileTree
  | _, [], value => value
  | tree, name :: rest, value =>
    let child := (tree.child? name).getD (.directory [])
    .directory (insertEntry name (child.put rest value) tree.entries)

def remove : FileTree → List String → FileTree
  | tree, [] => tree
  | tree, [name] => .directory (eraseEntry name tree.entries)
  | tree, name :: rest =>
    match tree.child? name with
    | some child => .directory (insertEntry name (child.remove rest) tree.entries)
    | none => tree

mutual

def descendants (position : List String) : FileTree → List (List String × FileTree)
  | .directory entries => descendantsOf position entries
  | _ => []

def descendantsOf (position : List String) :
    List (String × FileTree) → List (List String × FileTree)
  | [] => []
  | (name, tree) :: rest =>
    (position ++ [name], tree) :: descendants (position ++ [name]) tree ++ descendantsOf position rest

end

end FileTree

end CodeAtlas
