import CodeAtlas.Git.History
import CodeAtlas.Time.Moment

/-!
What the documentation of a code base needs of its version control: whether there is unsaved work,
a branch of its own, a commit, and the addresses under which others find it. What the version
control itself does with unsaved work and branches is a parameter.
-/

namespace CodeAtlas.Git

def openAround (path : String) : Work Checkout := do
  match Checkout.around? (← Work.disk) (← Work.absolutePath path) with
  | some checkout => return checkout
  | none => throw (.reported .repository
      ("Not a git repository: " ++ Path.clean path ++ "\n\nTo initialize a git repository: git init"))

/-- What is asked of a version control: whether there is unsaved work and in which files, which
branches there are, to make a branch and to go over to one. -/
structure Control where
  isDirty : Work Bool
  changed : Work (List String)
  untracked : Work (List String)
  branches : Work (List String)
  createBranch : String → Work Unit
  switchTo : String → Work Unit

/-- The version control of a working directory that keeps each branch in a file of its own. -/
def Checkout.control (checkout : Checkout) : Control :=
  let changed : Work (List String) := do
    return checkout.changed (← Work.disk) (← get).tracked
  let untracked : Work (List String) := do
    return checkout.untracked (← Work.disk) (← get).tracked
  { isDirty := do return !(← changed).isEmpty || !(← untracked).isEmpty
    changed
    untracked
    branches := do return checkout.branches (← Work.disk)
    createBranch := checkout.createBranch
    switchTo := checkout.switchTo }

/-! ## Unsaved work -/

def nameLines (label : String) (names : List String) : List String :=
  if names.isEmpty then [] else
    (label ++ ": " ++ Text.join ", " (names.take 3)) ::
      if names.length > 3 then ["... and " ++ Decimal.natText (names.length - 3) ++ " more"] else []

/-- Whether all work is saved, and what is said about it. -/
def Control.status (control : Control) : Work (Bool × String) := do
  if ← control.isDirty then
    return (false, Text.join "\n" (nameLines "Modified" (← control.changed) ++
      nameLines "Untracked" (← control.untracked)))
  else return (true, "Working directory is clean")

/-! ## Branches and commits -/

def Checkout.currentBranch (checkout : Checkout) : Work String := do
  return (checkout.branch? (← Work.disk)).getD "HEAD"

def Checkout.currentCommit (checkout : Checkout) : Work String := do
  match checkout.commit? (← Work.disk) with
  | some id => return id
  | none => throw (.fault .badValue)

/-- The first of the names with a number, from a number on, that is not taken. The first argument
bounds how many are tried. -/
def firstFreeFrom (taken : List String) (base : String) : Nat → Nat → String
  | 0, number => base ++ "-" ++ Decimal.natText number
  | bound + 1, number =>
    let name := base ++ "-" ++ Decimal.natText number
    if taken.contains name then firstFreeFrom taken base bound (number + 1) else name

def firstFree (taken : List String) (base : String) : String :=
  if taken.contains base then firstFreeFrom taken base taken.length 1 else base

def branchBase (now : Time.Moment) : String :=
  let date := now.date
  "docs/gatowiki-" ++ Decimal.natText date.year ++ Decimal.paddedText 2 date.month
    ++ Decimal.paddedText 2 date.day ++ "-" ++ Text.replace now.clock ":" ""

def unsavedMessage (status : String) : String :=
  Text.join "\n" [
    "Working directory has uncommitted changes.",
    "",
    status,
    "",
    "Cannot create documentation branch with uncommitted changes.",
    "Please commit or stash your changes first:",
    "  git status",
    "  git add -A && git commit -m \"Your message\"",
    "  # or",
    "  git stash",
    "",
    "Then re-run: gatowiki generate --create-branch"]

def Control.enterBranch (control : Control) (name : String) : Work Unit := do
  try
    control.createBranch name
    control.switchTo name
  catch
    | .command outcome =>
      throw (.reported .repository "Failed to create branch: " (Problem.command outcome).message)
    | problem => throw problem

def Control.createDocumentationBranch (control : Control) (now : Time.Moment) (force : Bool) :
    Work String := do
  if !force then
    let (isClean, status) ← control.status
    if !isClean then throw (.reported .repository (unsavedMessage status))
  let name := firstFree (← control.branches) (branchBase now)
  control.enterBranch name
  return name

def documentationMessage : String := "Add generated documentation\n\nGenerated by GatoWiki CLI"

def Checkout.commitDocumentation (checkout : Checkout) (signature path : String)
    (message : Option String) : Work String := do
  checkout.add (Path.relative (Path.below checkout.root path) checkout.root)
  checkout.commit signature (message.getD documentationMessage)

/-! ## Addresses -/

def secureShellStart : String := "git@github.com:"

def Checkout.address? (checkout : Checkout) (disk : Disk) (remote : String) : Option String :=
  (checkout.config? disk).bind (·.address? remote)

/-- An address without slashes at its end and without every `.git` in it. -/
def shortened (address : String) : String :=
  Text.replace (Text.stripRightChars address ['/']) ".git" ""

def forBrowser (address : String) : String :=
  if Text.startsWith address secureShellStart then
    Text.replace address secureShellStart "https://github.com/"
  else address

def Checkout.proposalAddress? (checkout : Checkout) (disk : Disk) (branch : String) :
    Option String := do
  let address ← checkout.address? disk "origin"
  if Text.contains address "github.com" then
    some (forBrowser (shortened address) ++ "/compare/" ++ branch)
  else none

structure About where
  name : String
  address : Option String := none
  pages : Option String := none

def About.toJson (about : About) : Json :=
  .object [("name", .text about.name), ("url", .ofOption .text about.address),
    ("github_pages_url", .ofOption .text about.pages)]

def pagesOf? (address : String) : Option String :=
  if !Text.contains address "github.com" then none else
    match (Text.split address "/").reverse with
    | name :: owner :: _ => some ("https://" ++ owner ++ ".github.io/" ++ name ++ "/")
    | _ => none

def About.of (disk : Disk) (path : String) : About :=
  let address := do
    let checkout ← Checkout.at? disk path
    let config ← checkout.config? disk
    if !(← config.remotes?).contains "origin" then none
    return shortened (forBrowser (← config.address? "origin"))
  { name := Path.name path, address, pages := address.bind pagesOf? }

def isVersioned (disk : Disk) (path : String) : Bool := disk.isDirectory (Path.below path ".git")

def commitAt (disk : Disk) (path : String) : String :=
  if isVersioned disk path then
    ((Checkout.at? disk path).bind (·.commit? disk)).getD ""
  else ""

def branchAt (disk : Disk) (path : String) : String :=
  if isVersioned disk path then
    ((Checkout.at? disk path).bind (·.branch? disk)).getD ""
  else ""

end CodeAtlas.Git
