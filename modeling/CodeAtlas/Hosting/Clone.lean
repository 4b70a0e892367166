import CodeAtlas.Hosting.Address
import CodeAtlas.Json.Shown
import CodeAtlas.Repository.Analysis
import CodeAtlas.Workspace.Basic

/-!
Clones of repositories: made in a directory of their own, analysed and removed again.
-/

namespace CodeAtlas.Hosting

inductive Platform where
  | unix
  | windows
deriving DecidableEq, Repr

/-- What cloning needs to know of the machine: the platform, the program that clones, if it is
there, and the directory that the clone goes to. -/
structure Machine where
  platform : Platform
  program : Option String
  folder : String

/-! ## Removing a clone -/

def sealPlace (path : String) : Work Unit := do
  let path := (← Work.disk).realPath path
  modify fun workspace => { workspace with sealed := path :: workspace.sealed }

/-- Removes a directory with all that is in it, from the last name to the first; a sealed directory
inside stops the removal. -/
def removeNames (path : String) : List String → Work Unit
  | [] => return
  | name :: rest => do
    let inside := Path.below path name
    if (← get).sealed.contains inside && (← Work.disk).isDirectory inside then
      throw (.refused "denied")
    Work.setDisk (← Work.ofExcept ((← Work.disk).removeEntry inside))
    removeNames path rest

def removeDirectory (path : String) : Work Unit := do
  let workspace ← get
  if workspace.refusals > 0 then
    set { workspace with refusals := workspace.refusals - 1 }
    throw (.refused "denied")
  let place ← Work.ofExcept (workspace.disk.entryPosition path)
  match workspace.disk.root.get? place with
  | some (.directory entries) =>
    removeNames (Disk.pathOf place) (entries.map Prod.fst).reverse
    Work.setDisk (← Work.ofExcept ((← Work.disk).removeTree path))
  | _ => throw (.fault .notDirectory)

/-- Removes what is at a path. On the one platform what resists is made writable, which leaves a
link as it is and does not help with a file. -/
def removeFirst (platform : Platform) (path : String) : Work Unit := do
  match platform with
  | .unix => removeDirectory path
  | .windows =>
    tryCatch (removeDirectory path) fun problem => do
      match problem with
      | .fault _ =>
        let isLink := (← Work.disk).isLink path
        sealPlace path
        if isLink then return else throw problem
      | _ => throw problem

def removeAgain (path : String) : Work Unit := do
  let disk ← Work.disk
  if disk.exists? path then
    for name in (disk.list path).toOption.getD [] do
      if disk.exists? (Path.below path name) then sealPlace (Path.below path name)
    removeDirectory path

/-- Removes a clone, with a second try after a refusal; gives whether it is gone, and says so if it
is not. -/
def cleanUp (platform : Platform) (path : String) : Work Bool := do
  let warn (words : String) : Work Bool := do
    Work.printLine ("⚠️ Warning: Failed to cleanup " ++ path ++ words ++ ": ")
    return false
  if !(← Work.disk).exists? path then return false
  tryCatch (do removeFirst platform path; return true) fun
    | .refused _ => tryCatch (do removeAgain path; return true) fun _ => warn " after retry"
    | _ => warn ""

/-! ## Making a clone -/

def tryCommand (words : List String) : Work Bool := do
  match ← Work.command words (words.getLastD "") with
  | .finished .. => return true
  | _ => return false

def sparseRules : String :=
  "*\n!**/tests/**/CvnF9nAXfESwhrtdkjGhX2wAkKHzwr8N2rjExPK8eZYS/**\n" ++
    "!**/0x0000000000000000000000000000000000000000000000000000000000000002/**\n"

/-- Leaves paths out of a clone that the platform cannot hold; a failure ends this early. -/
def makeSparse (program folder : String) : Work Unit := do
  if ← tryCommand [program, "-C", folder, "config", "core.sparseCheckout", "true"] then
    let rules := folder ++ "/.git/info/sparse-checkout"
    tryCatch (do
      Work.makeDirectories (Path.directory rules)
      Work.writeText rules sparseRules
      let _ ← tryCommand [program, "-C", folder, "read-tree", "-m", "-u", "HEAD"])
      fun _ => return

def runClone (machine : Machine) (program address : String) : Work Outcome := do
  let folder := machine.folder
  Work.makeDirectories folder
  if machine.platform == .windows then
    let _ ← tryCommand [program, "config", "--global", "core.longpaths", "true"]
  let words := [program, "clone", "--depth", "1", "--filter=blob:none", cloneAddress address, folder]
  Work.command words folder

def abandon (machine : Machine) (message : String) : Work String := do
  if (← Work.disk).exists? machine.folder then
    let _ ← cleanUp machine.platform machine.folder
  throw (.failed message)

/-- Clones a repository; gives the directory of the clone. A clone that fails in a known way is
removed again. -/
def clone (machine : Machine) (address : String) : Work String := do
  let some program := machine.program | throw (.failed
    "Git executable not found. Please install Git and ensure it is in the system's PATH.")
  match ← runClone machine program address with
  | .timedOut => abandon machine ("Repository cloning timed out after 5 minutes. " ++
      "The repository may be too large or network is slow.")
  | .missing => abandon machine ("Git executable not found at '" ++ program ++
      "'. Please ensure Git is installed and the path is correct.")
  | .broken message => throw (.command (.broken message))
  | .finished code _ errors _ =>
    if code ≠ 0 then abandon machine ("Failed to clone repository: " ++ errors)
    else
      if machine.platform == .windows then makeSparse program machine.folder
      return machine.folder

def takeClone (machine : Machine) (address : String) : Work String := do
  let folder ← clone machine address
  modify fun workspace => { workspace with clones := workspace.clones ++ [folder] }
  return folder

/-- Removes a clone. One that resists is not tried again. -/
def releaseClone (platform : Platform) (folder : String) : Work Unit := do
  let _ ← cleanUp platform folder
  modify fun workspace => { workspace with clones := workspace.clones.erase folder }

/-! ## Analysing a clone -/

def patterns? : Json → Option (List String)
  | .list items => some (items.map fun item => item.shown)
  | .text written => some (written.toList.map fun char => .ofList [char])
  | .object members => some (members.map Prod.fst)
  | value => if value.isTruthy then none else some []

def chosenPatterns : Json → Option (List String)
  | .null => none
  | value => some ((patterns? value).getD [])

/-- The patterns of what is left out; only a list has some. -/
def excludedPatterns : Json → Except Fault (Option (List String))
  | .null => .ok none
  | .list items => .ok (some (items.map fun item => item.shown))
  | _ => .error .wrongKind

/-- The structure of a clone under patterns that may be unusable; these are noticed at the first
file. -/
def cloneStructure (folder : String) (included excluded : Json) :
    Work Repository.Structure := do
  let excluded ← Work.ofExcept (excludedPatterns excluded)
  let selection := Repository.Selection.of (chosenPatterns included) excluded
  let found ← Work.ofExcept (Repository.structureAt selection (← Work.disk) folder)
  if (patterns? included).isNone && !found.files.isEmpty then throw (.fault .wrongKind)
  return found

def cloneReport (parsers : Parsers) (address : String) (included excluded : Json)
    (folder : String) : Work Json := do
  let found ← cloneStructure folder included excluded
  let (owner, name) := match lastParts? address with
    | some label => (label.owner, label.name)
    | none => ("unknown", "unknown")
  Work.ofExcept (Repository.fullReport parsers (← Work.disk) folder found address owner name)

/-- Clones a repository, works on the clone and removes it. A clone that cannot be made leaves no
directory to look after, which the handling of failures does not expect. -/
def withClone (machine : Machine) (address : String) (work : String → Work Json) : Work Json := do
  let folder ← tryCatch (takeClone machine address) fun _ => throw (.fault .wrongKind)
  tryCatch (do
    let report ← work folder
    releaseClone machine.platform folder
    return report) fun problem => do
      if (← Work.disk).exists? folder then releaseClone machine.platform folder
      throw (.failed ("Repository analysis failed: " ++ problem.message))

def analyzeFully (parsers : Parsers) (machine : Machine) (address : String)
    (included excluded : Json) : Work Json :=
  withClone machine address (cloneReport parsers address included excluded)

def analyzeStructure (machine : Machine) (address : String) (included excluded : Json) :
    Work Json := do
  let failed {α : Type} (problem : Problem) : Work α :=
    throw (.failed ("Structure analysis failed: " ++ problem.message))
  let folder ← tryCatch (takeClone machine address) failed
  tryCatch (do
    let found ← cloneStructure folder included excluded
    releaseClone machine.platform folder
    return .object [
      ("repository", describe address),
      ("file_tree", found.toJson),
      ("file_summary", .object (found.summary ++ [("analysis_type", .text "structure_only")]))])
    fun problem => do
      releaseClone machine.platform folder
      failed problem

/-! ## Clones for the service -/

/-- Clones a repository into a directory, whole if a commit is asked for, which is then checked
out; gives whether that went well. -/
def cloneInto (address target : String) (commit : Option String) (folder : String) : Work Bool := do
  let run (words : List String) (title : String) (seconds : Nat) : Work Bool := do
    match ← Work.command words folder with
    | .finished code _ errors _ =>
      if code == 0 then return true
      Work.printLine (title ++ ": " ++ errors)
      return false
    | .timedOut => throw (.failed ("Command '" ++ (Json.ofStrings words).inspected ++
        "' timed out after " ++ Decimal.natText seconds ++ " seconds"))
    | outcome => throw (.command outcome)
  let title := "Error cloning repository"
  tryCatch (do
    Work.makeDirectories (Path.directory target)
    match commit with
    | some commit =>
      if ← run ["git", "clone", address, target] title 300 then
        run ["git", "checkout", commit] ("Error checking out commit " ++ commit) 30
      else return false
    | none => run ["git", "clone", "--depth", "1", address, target] title 300) fun problem => do
      Work.printLine (title ++ ": " ++ problem.message)
      return false

end CodeAtlas.Hosting
