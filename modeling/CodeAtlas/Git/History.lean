import CodeAtlas.Git.Checkout

/-!
Work on the history of a working directory: it is put under version control, its files are taken
in, and commits and branches are made.
-/

namespace CodeAtlas.Git

def insertTracked (entry : Tracked) : List Tracked → List Tracked
  | [] => [entry]
  | other :: rest =>
    if entry.path == other.path then entry :: rest
    else if entry.path < other.path then entry :: other :: rest
    else other :: insertTracked entry rest

namespace Checkout

def create (checkout : Checkout) (branch : String) : Work Unit := do
  for name in ["objects", "refs/heads"] do
    Work.makeDirectories (Path.below checkout.folder name)
  Work.writeText (Path.below checkout.folder "HEAD") ("ref: refs/heads/" ++ branch ++ "\n")
  Work.writeText (Path.below checkout.folder "config") ""

def addRemote (checkout : Checkout) (name address : String) : Work Unit := do
  let path := Path.below checkout.folder "config"
  Work.writeText path ((← Work.readText path) ++ Config.remoteText name address)

def setTracked (tracked : List Tracked) : Work Unit :=
  modify fun workspace => { workspace with tracked }

def addAll (checkout : Checkout) : Work Unit := do
  let disk ← Work.disk
  let tracked := (← get).tracked.map (·.path)
  let chosen := (checkout.files disk).filter fun (path, _) =>
    tracked.contains path || !isIgnored disk checkout.root path
  setTracked (chosen.map fun (path, tree) => track path tree)

def add (checkout : Checkout) (path : String) : Work Unit := do
  let disk ← Work.disk
  let place := Path.below checkout.root path
  let found ← match disk.entry? place with
    | none => throw (.fault .noFile)
    | some (.directory _) =>
      pure ((checkout.files disk).filter fun (name, _) =>
        Text.startsWith name (path ++ "/") && !disk.isDirectory (Path.below checkout.root name))
    | some tree => pure [(path, tree)]
  setTracked (found.foldl (fun tracked (name, tree) => insertTracked (track name tree) tracked)
    (← get).tracked)

def writeReference (checkout : Checkout) (path text : String) : Work Unit := do
  let file := Path.below checkout.folder path
  Work.makeDirectories (Path.parent file)
  Work.writeText file text

/-- Lets the branch that is worked on, or the head itself, name a commit. -/
def moveTo (checkout : Checkout) (id : String) : Work Unit := do
  match checkout.head? (← Work.disk) with
  | some (.reference path) => checkout.writeReference path (id ++ "\n")
  | _ => checkout.writeReference "HEAD" (id ++ "\n")

def commit (checkout : Checkout) (signature message : String) : Work String := do
  let parent := checkout.commit? (← Work.disk)
  let id := Digest.hexText
    (commitId (snapshotId (← get).tracked) parent signature message)
  checkout.moveTo id
  return id

def createBranch (checkout : Checkout) (name : String) : Work Unit := do
  match checkout.commit? (← Work.disk) with
  | some id => checkout.writeReference ("refs/heads/" ++ name) (id ++ "\n")
  | none => throw (.fault .unknownName)

def switchTo (checkout : Checkout) (name : String) : Work Unit :=
  checkout.writeReference "HEAD" ("ref: refs/heads/" ++ name ++ "\n")

def detach (checkout : Checkout) : Work Unit := do
  match checkout.commit? (← Work.disk) with
  | some id => checkout.writeReference "HEAD" (id ++ "\n")
  | none => throw (.fault .unknownName)

end Checkout

end CodeAtlas.Git
