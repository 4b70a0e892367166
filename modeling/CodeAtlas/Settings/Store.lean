import CodeAtlas.Files.Careful
import CodeAtlas.Repository.Output

/-!
The settings of a user, which are kept in a file of the home directory. A store has the settings
that were read or saved last.
-/

namespace CodeAtlas.Settings

/-- What is set: the folder for output, which is any value that the file gives. -/
structure Preferences where
  output : Json
deriving Inhabited

namespace Preferences

def standard : Preferences := ⟨.text "docs"⟩

def ofJson (value : Json) : Except Fault Preferences := do
  return ⟨← value.getOr "default_output" standard.output⟩

def updated (settings : Preferences) (output : Option Json) : Preferences :=
  ⟨output.getD settings.output⟩

def toJson (settings : Preferences) : Json := .object [("default_output", settings.output)]

/-- The folder has to be a text that is not empty. -/
def isValid (settings : Preferences) : Bool :=
  match settings.output with
  | .text folder => !folder.isEmpty
  | _ => false

def fileText (settings : Preferences) : String :=
  (Json.object [("version", .text "2.0"), ("default_output", settings.output)]).render
    (Json.indented 2)

end Preferences

structure Store where
  home : String
  known : Option Preferences := none

namespace Store

def folder (store : Store) : String := Path.below store.home ".gatowiki"

def file (store : Store) : String := Path.below store.folder "config.json"

/-- A report on a failure of the settings, with what a failed file says in its own words. -/
def failed {α : Type} (title : String) : Problem → Work α
  | .reported .files message detail => throw (.reported .configuration (title ++ message) detail)
  | problem => throw problem

def load (store : Store) : Work (Store × Bool) := do
  if !(← Work.disk).exists? store.file then return (store, false)
  let text ← tryCatch (Files.read store.file) (failed "Failed to load configuration: ")
  match Json.parse? text with
  | none => throw (.reported .configuration "Failed to load configuration: ")
  | some value =>
    return ({ store with known := some (← Work.ofExcept (Preferences.ofJson value)) }, true)

def current (store : Store) : Work Preferences := do
  match store.known with
  | some settings => return settings
  | none =>
    let (store, _) ← store.load
    return store.known.getD .standard

/-- Makes sure of the folder before the settings are looked for. -/
def prepare (store : Store) : Work Preferences := do
  let _ ← tryCatch (Files.ensureDirectory store.folder) (failed "Cannot create config directory: ")
  store.current

end Store

/-- Saves the settings with a folder for output, if one is given. The store has the new settings
already when they turn out to be invalid or cannot be written. -/
def save (store : Store) (output : Option Json) : Work (Store × Option Problem) := do
  let settings := (← store.prepare).updated output
  let store := { store with known := some settings }
  if !settings.isValid then
    return (store, some (.reported .configuration "default_output must be a non-empty string"))
  tryCatch (do Files.write store.file settings.fileText; return (store, none)) fun
    | .reported .files message detail => return (store,
        some (.reported .configuration ("Failed to save configuration: " ++ message) detail))
    | problem => return (store, some problem)

namespace Store

def isComplete (store : Store) : Bool := store.known.any (·.output.isTruthy)

def clear (store : Store) : Work Store := do
  let disk ← Work.disk
  if disk.exists? store.file then Work.setDisk (← Work.ofExcept (disk.removeFile store.file))
  return { store with known := none }

end Store

end CodeAtlas.Settings
