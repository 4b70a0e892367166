import CodeAtlas.Git.Config
import CodeAtlas.Git.Ignore
import CodeAtlas.Git.Object
import CodeAtlas.Workspace.Basic

/-!
A working directory under version control, and the folder beside its files that says which branch
is worked on, where each branch stands and which other repositories there are.
-/

namespace CodeAtlas.Git

structure Checkout where
  root : String
deriving DecidableEq

def isControlFolder (disk : Disk) (folder : String) : Bool :=
  disk.isDirectory (Path.below folder "objects") && disk.isDirectory (Path.below folder "refs")
    && disk.isFile (Path.below folder "HEAD")

/-- What a repository's head names: a branch by the path of its reference, or a commit. -/
inductive Head where
  | reference (path : String)
  | commit (id : String)
deriving DecidableEq

def isCommitId (text : String) : Bool :=
  text.length == 40 && text.toList.all fun char =>
    char.isDigit || ('a' ≤ char && char ≤ 'f') || ('A' ≤ char && char ≤ 'F')

def Head.parse? (text : String) : Option Head :=
  match Text.words text with
  | "ref:" :: path :: _ => some (.reference path)
  | word :: _ => if isCommitId word then some (.commit word) else none
  | [] => none

namespace Checkout

def folder (checkout : Checkout) : String := Path.below checkout.root ".git"

def at? (disk : Disk) (path : String) : Option Checkout :=
  if isControlFolder disk path then some ⟨Path.parent path⟩
  else if isControlFolder disk (Path.below path ".git") then some ⟨path⟩
  else none

/-- The working directory that a path is in: the path is left step by step until one is found. -/
def around? (disk : Disk) (path : String) : Option Checkout :=
  if !disk.exists? path then none
  else go (Path.parts path).reverse
where
  go : List String → Option Checkout
    | [] => at? disk "/"
    | name :: rest => (at? disk (Disk.pathOf (name :: rest).reverse)).or (go rest)

/-! ## References -/

def readReference? (checkout : Checkout) (disk : Disk) (path : String) : Option Head :=
  (disk.read (Path.below checkout.folder path)).toOption.bind Head.parse?

def head? (checkout : Checkout) (disk : Disk) : Option Head := checkout.readReference? disk "HEAD"

def commit? (checkout : Checkout) (disk : Disk) : Option String :=
  match checkout.head? disk with
  | some (.commit id) => some id
  | some (.reference path) =>
    match checkout.readReference? disk path with
    | some (.commit id) => some id
    | _ => none
  | none => none

def branchName? (path : String) : Option String :=
  if path == "HEAD" then some path
  else if Text.startsWith path "refs/" then
    match Text.split path "/" with
    | _ :: _ :: first :: rest => some (Text.join "/" (first :: rest))
    | _ => some path
  else none

def branch? (checkout : Checkout) (disk : Disk) : Option String :=
  match checkout.head? disk with
  | some (.reference path) => branchName? path
  | _ => none

def branches (checkout : Checkout) (disk : Disk) : List String :=
  (disk.filesBelow (Path.below checkout.folder "refs/heads")).map Prod.fst

def config? (checkout : Checkout) (disk : Disk) : Option Config :=
  (disk.read (Path.below checkout.folder "config")).toOption.bind Config.parse?

/-! ## The state of the files -/

def files (checkout : Checkout) (disk : Disk) : List (String × FileTree) :=
  (disk.filesBelow checkout.root).filter fun (path, tree) =>
    (tree.isFile || tree.isLink) && !(Text.split path "/").contains ".git"

def track (path : String) (tree : FileTree) : Tracked := ⟨path, tree.isLink, contentId tree⟩

def hasChanged (checkout : Checkout) (disk : Disk) (entry : Tracked) : Bool :=
  match disk.entry? (Path.below checkout.root entry.path) with
  | some tree =>
    if tree.isFile || tree.isLink then track entry.path tree ≠ entry else true
  | none => true

def changed (checkout : Checkout) (disk : Disk) (tracked : List Tracked) : List String :=
  (tracked.filter (checkout.hasChanged disk)).map (·.path)

def untracked (checkout : Checkout) (disk : Disk) (tracked : List Tracked) : List String :=
  ((checkout.files disk).map Prod.fst).filter fun path =>
    !(tracked.any fun entry => entry.path == path) && !isIgnored disk checkout.root path

end Checkout

end CodeAtlas.Git
