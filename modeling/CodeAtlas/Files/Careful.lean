import CodeAtlas.Files.Encoding
import CodeAtlas.Text.Quoted
import CodeAtlas.Workspace.Basic

/-!
Work on files that reports in words what goes wrong. A file is written beside its place and moved
there in one step, so that a failed write leaves the old content.
-/

namespace CodeAtlas.Files

def report {α : Type} (message : String) (detail : String := "") : Work α :=
  throw (.reported .files message detail)

def systemText (cause : Fault) (place : String) : String :=
  let words := match cause with
    | .noFile => "[Errno 2] No such file or directory: "
    | .fileExists => "[Errno 17] File exists: "
    | .notDirectory => "[Errno 20] Not a directory: "
    | .isDirectory => "[Errno 21] Is a directory: "
    | _ => ""
  if words.isEmpty then "" else words ++ place

def resolved (path : String) : Work String := do
  let disk ← Work.disk
  match disk.resolve false path with
  | .ok position => return Disk.pathOf position
  | .error cause => throw (.fault cause)

def ensureDirectory (path : String) : Work String := do
  let path ← resolved path
  match (← Work.disk).makeDirectories path with
  | .ok disk => Work.setDisk disk
  | .error cause =>
    report ("Cannot create directory " ++ path ++ ": ") (systemText cause (Text.quoted path))
  return path

/-- Whether something can be written at a path: it is there, or the place it would be in is. -/
def isWritable (path : String) : Work Bool := do
  let path ← resolved path
  let disk ← Work.disk
  return disk.exists? path || disk.exists? (Path.parent path)

/-- A text is written beside a path and moved there. A step that fails leaves what the steps before
it have made. -/
def writeThrough (disk : Disk) (path text : String) (encoding : Option Encoding) :
    Disk × Option Fault :=
  let beside := path ++ ".tmp"
  let file? := encoding.bind (FileTree.ofText? · text)
  match disk.writeFile beside (file?.getD (.file "")) with
  | .error cause => (disk, some cause)
  | .ok written =>
    match if file?.isSome then written.moveFile beside path else .error .undecodable with
    | .error cause => (written, some cause)
    | .ok moved => (moved, none)

/-- Removes the file beside a path, on a disk as the failed step left it, and reports. -/
def giveUp (disk : Disk) (path : String) (cause : Fault) : Work Unit := do
  let beside := path ++ ".tmp"
  Work.setDisk disk
  if disk.exists? beside then Work.setDisk (← Work.ofExcept (disk.removeFile beside))
  let wasMoved := cause == .isDirectory && disk.isDirectory path
  let place := Text.quoted beside ++ if wasMoved then " -> " ++ Text.quoted path else ""
  report ("Cannot write to " ++ path ++ ": ") (systemText cause place)

/-- Writes a text; the file beside it is gone afterwards in any case. -/
def write (path text : String) (encoding : Option Encoding := some .utf8) : Work Unit := do
  let path ← resolved path
  if path == "/" then throw (.fault .badValue)
  match writeThrough (← Work.disk) path text encoding with
  | (disk, none) => Work.setDisk disk
  | (disk, some cause) => giveUp disk path cause

def read (path : String) (encoding : Option Encoding := some .utf8) : Work String := do
  let path ← resolved path
  match (← Work.disk).need path with
  | .error .noFile => report ("File not found: " ++ path)
  | .error cause => report ("Cannot read " ++ path ++ ": ") (systemText cause (Text.quoted path))
  | .ok (.directory _) =>
    report ("Cannot read " ++ path ++ ": ") (systemText .isDirectory (Text.quoted path))
  | .ok file =>
    match encoding.bind (·.decode? file.toBytes) with
    | some text => return Text.unifyBreaks text
    | none => report ("Cannot read " ++ path ++ ": ")

def size (path : String) : Work Nat := do
  return (← Work.ofExcept ((← Work.disk).need path)).size

/-- The files of a directory, also of those below it if asked for; only those with one of the
extensions if some are given. -/
def find (folder : String) (extensions : Option (List String)) (deep : Bool) :
    Work (List String) := do
  let folder ← resolved folder
  let disk ← Work.disk
  let entries := if deep then disk.below folder else
    (disk.below folder).filter fun entry => !Text.contains entry.1 "/"
  let paths := entries.map fun entry => Path.below folder entry.1
  return paths.filter fun path =>
    disk.isFile path && extensions.all (·.contains (Path.suffix path))

/-- Removes one thing in a directory that is to be emptied: a file, or a directory with all that is
in it. What leads nowhere stays. -/
def removeItem (disk : Disk) (path : String) : Except Fault Disk :=
  if disk.isFile path then disk.removeFile path
  else if disk.isDirectory path then disk.removeTree path
  else return disk

/-- Empties a directory, starting with the last name; hidden things can be kept. What was removed
before a failure stays removed. -/
def emptyDirectory (path : String) (keepHidden : Bool := true) : Work Unit := do
  let path ← resolved path
  let disk ← Work.disk
  if disk.exists? path then
    match disk.list path with
    | .error _ => report ("Cannot clean directory " ++ path ++ ": ")
    | .ok names =>
      for name in names.reverse do
        if !(keepHidden && Text.startsWith name ".") then
          match removeItem (← Work.disk) (Path.below path name) with
          | .ok disk => Work.setDisk disk
          | .error _ => report ("Cannot clean directory " ++ path ++ ": ")

/-- A folder for output may be missing, but nothing else may be in its place. -/
def checkOutputPath (path : String) : Work String := do
  if (Text.strip path).isEmpty then
    throw (.reported .configuration "Output directory cannot be empty")
  let refuse {α : Type} (cause : String) : Work α := throw (.reported .configuration
    ("Invalid output directory path: " ++ path ++ "\nError: " ++ cause))
  let disk ← Work.disk
  match disk.resolve false path with
  | .error _ => refuse ""
  | .ok position =>
    let place := Disk.pathOf position
    if disk.exists? place && !disk.isDirectory place then
      refuse ("Output path exists but is not a directory: " ++ path)
    return place

end CodeAtlas.Files
