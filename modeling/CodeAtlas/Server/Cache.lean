import CodeAtlas.Digest
import CodeAtlas.OrderedMap
import CodeAtlas.Time.Reading
import CodeAtlas.Workspace.Basic

/-!
The cache of generated documentation: for each repository where its documentation is and since
when. An entry is used for a limited time. The operations work on the index in memory and note
whether it has to be saved; saving and loading go through one file. A failure there is printed
without its cause, which the operating system words.
-/

namespace CodeAtlas.Server

/-- What is known of the documentation of one repository. The address, the key and the place are
kept as they were found in the file. -/
structure CacheEntry where
  address : Json
  key : Json
  docs : Json
  created : Time.Moment
  accessed : Time.Moment

namespace CacheEntry

def toJson (entry : CacheEntry) : Json :=
  .object [("repo_url", entry.address), ("repo_url_hash", entry.key), ("docs_path", entry.docs),
    ("created_at", .text entry.created.text), ("last_accessed", .text entry.accessed.text)]

def ofJson (value : Json) : Except Fault CacheEntry := do
  return ⟨← value.need "repo_url", ← value.need "repo_url_hash", ← value.need "docs_path",
    ← Time.Moment.ofJson (← value.need "created_at"),
    ← Time.Moment.ofJson (← value.need "last_accessed")⟩

end CacheEntry

def repositoryKey (address : String) : String :=
  Text.take (Digest.hexText (Digest.Sha256.digest address.toUTF8.toList)) 16

def usualDays : Int := 365

structure Cache where
  folder : String
  days : Int := usualDays
  index : OrderedMap String CacheEntry := .empty
  unsaved : Bool := false
  key : String → String := repositoryKey

namespace Cache

/-- The cache of a folder. If no number of days is given, or zero, the usual one is meant. -/
def ofFolder (folder : String) (days : Option Int) : Cache :=
  let given := days.getD 0
  { folder, days := if given = 0 then usualDays else given }

/-! ## Operations -/

def put (cache : Cache) (key : String) (entry : CacheEntry) : Cache :=
  { cache with index := cache.index.insert key entry, unsaved := true }

def add (cache : Cache) (now : Time.Moment) (address docs : String) : Cache :=
  let key := cache.key address
  cache.put key ⟨.text address, .text key, .text docs, now, now⟩

def remove (cache : Cache) (address : String) : Cache :=
  let key := cache.key address
  if cache.index.contains key then
    { cache with index := cache.index.erase key, unsaved := true }
  else cache

/-- Looks up the documentation of a repository; null if there is none. An entry that is used is
marked with the time, one that is too old is removed. -/
def lookUp (cache : Cache) (now : Time.Moment) (address : String) : Except Fault (Cache × Json) := do
  let key := cache.key address
  match cache.index.get? key with
  | none => return (cache, .null)
  | some entry =>
    match now.since? entry.created with
    | none => throw .wrongKind
    | some age =>
      if age < (← Time.spanOfDays cache.days) then
        return (cache.put key { entry with accessed := now }, entry.docs)
      else return (cache.remove address, .null)

def dropExpired (cache : Cache) (now : Time.Moment) : Except Fault Cache := do
  let limit ← now.earlier (← Time.spanOfDays cache.days)
  let expired ← cache.index.entries.filterMapM fun (key, entry) => do
    return if ← entry.created.isBefore limit then some key else none
  if expired.isEmpty then return cache
  return { cache with index := cache.index.filter fun key _ => !expired.contains key, unsaved := true }

inductive Operation where
  | add (address docs : String)
  | lookUp (address : String)
  | remove (address : String)
  | dropExpired
deriving DecidableEq

structure Event where
  now : Time.Moment
  operation : Operation
deriving DecidableEq

/-- The cache after an operation; one that fails leaves it as it was. -/
def perform (cache : Cache) : Event → Cache
  | ⟨now, .add address docs⟩ => cache.add now address docs
  | ⟨now, .lookUp address⟩ =>
    match cache.lookUp now address with
    | .ok (after, _) => after
    | .error _ => cache
  | ⟨_, .remove address⟩ => cache.remove address
  | ⟨now, .dropExpired⟩ =>
    match cache.dropExpired now with
    | .ok after => after
    | .error _ => cache

/-- What an operation gives: null, if it is no look-up. -/
def answer (cache : Cache) : Event → Except Fault Json
  | ⟨now, .lookUp address⟩ => (cache.lookUp now address).map Prod.snd
  | ⟨now, .dropExpired⟩ => (cache.dropExpired now).map fun _ => .null
  | _ => .ok .null

/-! ## The file -/

def file (cache : Cache) : String := Path.below cache.folder "cache_index.json"

def indexJson (index : OrderedMap String CacheEntry) : Json :=
  .object (index.entries.map fun (key, entry) => (key, entry.toJson))

/-- Reads entries up to the first that is not well formed; says whether all were. -/
def readEntries (index : OrderedMap String CacheEntry) :
    List (String × Json) → OrderedMap String CacheEntry × Bool
  | [] => (index, true)
  | (key, value) :: rest =>
    match CacheEntry.ofJson value with
    | .ok entry => readEntries (index.insert key entry) rest
    | .error _ => (index, false)

def readIndex : Json → OrderedMap String CacheEntry × Bool
  | .object members => readEntries .empty members
  | _ => (.empty, false)

def save (cache : Cache) : Work Cache := do
  if cache.unsaved then
    try Work.saveJson (indexJson cache.index) cache.file
    catch _ => Work.printLine "Error saving cache index: "
  return { cache with unsaved := false }

/-- Performs an operation and saves the index if it was changed. -/
def carryOut (cache : Cache) (event : Event) : Work Cache := (cache.perform event).save

/-- A cache with what the file in its folder says. What stands before a mistake is used. -/
def load (cache : Cache) : Work Cache := do
  Work.makeDirectories cache.folder
  if !(← Work.disk).exists? cache.file then return cache
  let (index, complete) ←
    try pure (readIndex (← Work.readJson cache.file))
    catch _ => pure (.empty, false)
  if !complete then Work.printLine "Error loading cache index: "
  return { cache with index }

end Cache

end CodeAtlas.Server
