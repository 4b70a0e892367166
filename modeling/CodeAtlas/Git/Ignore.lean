import CodeAtlas.Disk.Basic
import CodeAtlas.Git.Wildcard

/-!
Which files are left out of the version control. Each directory may hold a list of patterns for
what is below it; the last pattern that fits decides, and what is in a directory that is left out
is left out too.
-/

namespace CodeAtlas.Git

structure IgnoreRule where
  folder : String
  pattern : String
  negated : Bool
  onlyFolders : Bool
deriving DecidableEq

namespace IgnoreRule

/-- A line without the spaces at its end, of which one that is escaped stays. -/
def trimSpaces (line : List Char) : List Char :=
  go [] line
where
  /-- The spaces seen last are only kept if something follows. -/
  go (spaces : List Char) : List Char → List Char
    | [] => []
    | ['\\'] => spaces ++ ['\\']
    | '\\' :: char :: rest => spaces ++ '\\' :: char :: go [] rest
    | ' ' :: rest => go (' ' :: spaces) rest
    | char :: rest => spaces ++ char :: go [] rest

def ofLine? (folder line : String) : Option IgnoreRule :=
  if line.isEmpty || Text.startsWith line "#" then none else
    let line := String.ofList (trimSpaces ((Text.dropEnding? line "\r").getD line).toList)
    let (negated, pattern) := match Text.dropStart? line "!" with
      | some pattern => (true, pattern)
      | none => (false, line)
    let (onlyFolders, pattern) := match Text.dropEnding? pattern "/" with
      | some pattern => (true, pattern)
      | none => (false, pattern)
    some { folder, pattern, negated, onlyFolders }

def pathSeen? (rule : IgnoreRule) (path : String) : Option String :=
  if rule.folder.isEmpty then some path else Text.dropStart? path (rule.folder ++ "/")

/-- Whether a path fits. A pattern with a slash is for paths, another one for names. -/
def fits (rule : IgnoreRule) (path : String) (isFolder : Bool) : Bool :=
  (!rule.onlyFolders || isFolder) &&
    if Text.contains rule.pattern "/" then
      (rule.pathSeen? path).any
        (Wildcard.acceptsPath ((Text.dropStart? rule.pattern "/").getD rule.pattern))
    else Wildcard.acceptsName rule.pattern (Path.name path)

end IgnoreRule

def rulesIn (disk : Disk) (root folder : String) : List IgnoreRule :=
  match disk.entry? (Path.below (Path.below root folder) ".gitignore") with
  | some (.file text) =>
    (Text.split ((Text.dropStart? text "\ufeff").getD text) "\n").filterMap
      (IgnoreRule.ofLine? folder)
  | _ => []

def isLeftOut (rules : List IgnoreRule) (path : String) (isFolder : Bool) : Bool :=
  (rules.reverse.find? fun rule => rule.fits path isFolder).any fun rule => !rule.negated

/-- Whether a file is left out; the directories on the way are looked at first. The rules known so
far are those of the directories above. -/
def isIgnoredFrom (disk : Disk) (root folder : String) (rules : List IgnoreRule) :
    List String → Bool
  | [] => false
  | name :: rest =>
    let rules := rules ++ rulesIn disk root folder
    let path := if folder.isEmpty then name else folder ++ "/" ++ name
    isLeftOut rules path (!rest.isEmpty) || isIgnoredFrom disk root path rules rest

def isIgnored (disk : Disk) (root path : String) : Bool :=
  isIgnoredFrom disk root "" [] (Text.split path "/")

end CodeAtlas.Git
