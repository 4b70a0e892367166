import CodeAtlas.Url.Basic

/-!
Addresses of repositories at the hosting service. A repository is named by its owner and its own
name; the addresses of it are read in several ways, from the front, from the end, or strictly as
an address of the service.
-/

namespace CodeAtlas.Hosting

def nameEnding : String := ".git"

structure CloneTarget where
  scheme : String
  owner : String
  name : String
deriving DecidableEq, Repr

def CloneTarget.address (target : CloneTarget) : String :=
  target.scheme ++ "github.com/" ++ target.owner ++ "/" ++ target.name

def cutScheme (address : String) : String × String :=
  match Text.dropStart? address "https://", Text.dropStart? address "http://" with
  | some rest, _ => ("https://", rest)
  | none, some rest => ("http://", rest)
  | none, none => ("https://", address)

/-- Reads the target from the front: the service's name, if written, then owner and name. Only one
ending is taken off the name. -/
def cloneTarget? (address : String) : Option CloneTarget :=
  let (scheme, place) := cutScheme (Text.strip address)
  let place := (Text.dropStart? place "www.").getD place
  let target (owner name : String) : CloneTarget :=
    ⟨scheme, owner, (Text.dropEnding? name nameEnding).getD name⟩
  if Text.startsWith place "github.com/" then
    match Text.split place "/" with
    | _ :: owner :: name :: _ => some (target owner name)
    | _ => none
  else if Text.startsWith place "github.com" then none
  else
    match Text.split place "/" with
    | owner :: name :: _ => some (target owner name)
    | _ => none

def cloneAddress (address : String) : String :=
  match cloneTarget? address with
  | some target => target.address
  | none => address

structure Label where
  owner : String
  name : String
deriving DecidableEq, Repr

def Label.fullName (label : Label) : String := label.owner ++ "/" ++ label.name

/-- The last two parts of an address, however it starts; the ending is taken out of the name
wherever it stands. -/
def lastParts? (address : String) : Option Label :=
  match (Text.split (Text.stripRightChars address ['/']) "/").reverse with
  | name :: owner :: _ => some ⟨owner, Text.replace name nameEnding ""⟩
  | _ => none

def describe (address : String) : Json :=
  let (owner, name, fullName) := match lastParts? address with
    | some label => (label.owner, label.name, label.fullName)
    | none => ("unknown", "unknown", "unknown")
  .object [("owner", .text owner), ("name", .text name), ("full_name", .text fullName),
    ("url", .text address)]

/-- Whether an address names a repository of the service: its authority is the service and the
path starts with an owner and a name. -/
def isRepository (address : String) : Bool :=
  match Url.parse address with
  | .ok url =>
    ["github.com", "www.github.com"].contains (Text.lower url.authority)
      && match url.segments with
        | owner :: name :: _ => !owner.isEmpty && !name.isEmpty
        | _ => false
  | .error _ => false

def label (address : String) : Except Fault Label := do
  match (← Url.parse address).segments with
  | owner :: name :: _ => return ⟨owner, (Text.dropEnding? name nameEnding).getD name⟩
  | _ => throw .badIndex

def Label.cloneAddress (label : Label) : String :=
  "https://github.com/" ++ label.fullName ++ nameEnding

def Label.toJson (label : Label) : Json :=
  .object [("owner", .text label.owner), ("repo", .text label.name),
    ("full_name", .text label.fullName), ("clone_url", .text label.cloneAddress)]

def pagesAddress (address name : String) : String :=
  let pages (owner name : String) : String := "https://" ++ owner ++ ".github.io/" ++ name ++ "/"
  match if Text.contains address "github.com" then lastParts? address else none with
  | some label => pages label.owner label.name
  | none => pages "YOUR_USERNAME" name

def comparisonAddress (address branch : String) : String :=
  Text.replace (Text.stripRightChars address ['/']) nameEnding "" ++ "/compare/" ++ branch

end CodeAtlas.Hosting
