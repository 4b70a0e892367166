import CodeAtlas.Disk.Basic
import CodeAtlas.Git.Tracked
import CodeAtlas.Json.Parser
import CodeAtlas.Json.Printer

/-!
What a run works on: the files, the text printed so far, and the outside commands with their
outcomes. A run is a pure function of the workspace. When it stops early, what it has changed and
printed until then stays.
-/

namespace CodeAtlas

/-- How an outside command ends. A command that ends by itself may leave files behind. -/
inductive Outcome where
  | finished (code : Int) (output errors : String) (files : List (String × FileTree))
  | timedOut
  | missing
  | broken (message : String)

def Outcome.files : Outcome → List (String × FileTree)
  | .finished _ _ _ files => files
  | _ => []

structure Workspace where
  disk : Disk
  printed : String := ""
  outcomes : List Outcome := []
  commands : List (List String) := []
  refusals : Nat := 0
  /-- The places, directories and files, that can no longer be read. -/
  sealed : List String := []
  tracked : List Git.Tracked := []
  clones : List String := []

def Workspace.nextOutcome (workspace : Workspace) : Outcome :=
  workspace.outcomes.headD (.finished 0 "" "" [])

/-- Everything below a path that can be seen: the content of a sealed directory cannot. -/
def Workspace.visibleBelow (workspace : Workspace) (path : String) : List (String × FileTree) :=
  (workspace.disk.below path).filter fun entry =>
    !workspace.sealed.any fun place => Text.startsWith (Path.below path entry.1) (place ++ "/")

/-- The kinds of failure that the command line reports in words of its own. -/
inductive FailureKind where
  | general
  | configuration
  | repository
  | service
  | files
deriving DecidableEq

def FailureKind.exitCode : FailureKind → Nat
  | .general => 1
  | .configuration => 2
  | .repository => 3
  | .service => 4
  | .files => 5

/-- Why a run stops early. A report may end with what the system says of a failure. -/
inductive Problem where
  | fault (cause : Fault)
  | refused (message : String)
  | failed (message : String)
  | reported (kind : FailureKind) (message : String) (detail : String := "")
  | command (outcome : Outcome)
  | exited (code : Int)

/-- What a problem says of itself; the cause of a fault is not put into words. -/
def Problem.message : Problem → String
  | .refused message | .failed message | .reported _ message _ => message
  | .command (.broken message) => message
  | _ => ""

abbrev Work := ExceptT Problem (StateM Workspace)

namespace Work

def start {α : Type} (work : Work α) (workspace : Workspace) : Except Problem α × Workspace :=
  (ExceptT.run work).run workspace

def ofExcept {α : Type} : Except Fault α → Work α
  | .ok value => return value
  | .error cause => throw (.fault cause)

def print (text : String) : Work Unit :=
  modify fun workspace => { workspace with printed := workspace.printed ++ text }

def printLine (text : String) : Work Unit := print (text ++ "\n")

def disk : Work Disk := return (← get).disk

def setDisk (disk : Disk) : Work Unit := modify fun workspace => { workspace with disk }

def exists? (path : String) : Work Bool := return (← disk).exists? path

def absolutePath (path : String) : Work String := do
  return Path.normalize (Path.join (Disk.pathOf (← disk).current) path)

def readText (path : String) : Work String := do
  return Text.unifyBreaks (← ofExcept ((← disk).read path))

def writeText (path text : String) : Work Unit := do
  setDisk (← ofExcept ((← disk).write path text))

def makeDirectories (path : String) : Work Unit := do
  setDisk (← ofExcept ((← disk).makeDirectories path))

def readJson (path : String) : Work Json := do
  match Json.parse? (← readText path) with
  | some value => return value
  | none => throw (.fault .notJson)

/-- Writes a value; a file that can be opened is emptied before the value is laid out. -/
def writeJson (path : String) (layout : Json.Layout) (value : Json) : Work Unit :=
  writeText path (value.render layout)

def leaveFiles (folder : String) (files : List (String × FileTree)) : Work Unit := do
  for (path, tree) in files do
    let path := folder ++ "/" ++ path
    makeDirectories (Path.parent path)
    setDisk ((← disk).place path tree)

/-- Runs a command: it is noted, and its outcome is the next one. The files that it leaves go below
a directory. -/
def command (words : List String) (folder : String) : Work Outcome := do
  let workspace ← get
  let outcome := workspace.nextOutcome
  set { workspace with
    outcomes := workspace.outcomes.drop 1
    commands := workspace.commands ++ [words] }
  leaveFiles folder outcome.files
  return outcome

/-! ## Values kept in files -/

def keptLayout : Json.Layout := ⟨some 4, true⟩

def saveJson (value : Json) (path : String) : Work Unit := writeJson path keptLayout value

def loadJson? (path : String) : Work (Option Json) := do
  if (← disk).exists? path then return some (← readJson path) else return none

end Work

end CodeAtlas
