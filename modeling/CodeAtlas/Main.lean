import CodeAtlas.Program.Menu

/-!
The command line. The files of the current directory that the program may see are named on standard
input, one path a line; an empty line ends them, and what follows is what the user types. The
program works on what it has read. What it prints and the files that it has changed are written at
the end. The variable `NOW` tells the time.
-/

namespace CodeAtlas.Program

partial def readLines (input : IO.FS.Stream) : IO (List String) := do
  let line ← input.getLine
  let text := Text.stripRightChars line ['\n', '\r']
  if text.isEmpty then return []
  return text :: (← readLines input)

def loadFile (disk : Disk) (path : String) : IO Disk := do
  try
    let content ← IO.FS.readBinFile path
    match disk.makeDirectories (Path.parent path) with
    | .ok disk => return disk.place path (.ofBytes content.toList)
    | .error _ => return disk
  catch _ => return disk

def storeChanges (before after : Disk) : IO Unit := do
  for (name, tree) in after.filesBelow "/" do
    let path := "/" ++ name
    if (before.entry? path).map FileTree.toBytes ≠ some tree.toBytes then
      IO.FS.createDirAll (Path.parent path)
      IO.FS.writeBinFile path ⟨tree.toBytes.toArray⟩

def plainParsers : Parsers :=
  { tree := fun _ text => .node "program" 0 text.utf8ByteSize []
    python := fun _ => none }

def environment (name other : String) : IO String := return (← IO.getEnv name).getD other

def runHere (words : List String) : IO UInt32 := do
  let input ← IO.getStdin
  let current ← environment "PWD" "/"
  let home ← environment "HOME" "/"
  let now ← environment "NOW" "1970-01-01T00:00:00"
  let paths := (← readLines input).map (Path.join current)
  let start : Disk := { Disk.empty.place current (.directory []) with current := Path.parts current }
  let disk ← (paths ++ [Path.below home ".gatowiki/config.json"]).foldlM loadFile start
  let surroundings : Surroundings :=
    { program := "gatowiki", home, parsers := plainParsers, typed := ← readLines input
      now := (Time.Moment.ofText? now).getD ⟨0, none⟩ }
  let (code, workspace) := (run surroundings words).start { disk }
  IO.print workspace.printed
  storeChanges disk workspace.disk
  match code with
  | .ok code => return UInt32.ofNat code.toNat
  | .error _ => return 1

end CodeAtlas.Program

def main (words : List String) : IO UInt32 := CodeAtlas.Program.runHere words
