import CodeAtlas.Files.Encoding

/-!
Reading files of a repository. A link is never read, nor a file that lies outside the repository
once all links on the way to it are followed.
-/

namespace CodeAtlas.Repository

inductive AccessError where
  | refused (message : String)
  | fault (cause : Fault)

def isInside (base position : List String) : Bool := base.isPrefixOf position

def refusal? (disk : Disk) (base target : String) : Except Fault (Option String) := do
  if disk.isLink target then return some ("Symlink blocked: " ++ Path.clean target)
  let inner ← disk.resolve false target
  let outer ← disk.resolve false base
  if isInside outer inner then return none
  return some ("Path escapes repo: " ++ Path.clean target ++ " -> " ++ Disk.pathOf inner)

/-- Reads a file; what is no text in it is replaced. -/
def readReplacing (disk : Disk) (path : String) : Except Fault String := do
  match ← disk.need path with
  | .bytes content => return .ofList (Encoding.replacing content)
  | _ => disk.read path

def readInside (disk : Disk) (base target : String) : Except AccessError String :=
  match refusal? disk base target with
  | .error cause => .error (.fault cause)
  | .ok (some message) => .error (.refused message)
  | .ok none =>
    match readReplacing disk target with
    | .ok text => .ok (Text.unifyBreaks text)
    | .error cause => .error (.fault cause)

def readmeNames : List String := ["README.md", "README", "readme.md", "README.txt"]

/-- The text of the first readme that exists; nothing if that one cannot be read. -/
def readme? (disk : Disk) (base : String) : Option String := do
  let name ← readmeNames.find? fun name => disk.exists? (Path.below base name)
  (readInside disk base (Path.below base name)).toOption

end CodeAtlas.Repository
