import CodeAtlas.Digest
import CodeAtlas.Files.Encoding
import CodeAtlas.Git.Tracked

/-!
The names of contents, directories and commits. A name is the digest of the kind, the size and the
bytes of an object, so that equal objects have equal names.
-/

namespace CodeAtlas.Git

def bytesOf (text : String) : List UInt8 := text.toUTF8.toList

def objectId (kind : String) (content : List UInt8) : ObjectId :=
  Digest.Sha1.digest (bytesOf (kind ++ " " ++ Decimal.natText content.length) ++ 0 :: content)

def contentId : FileTree → ObjectId
  | .link target => objectId "blob" (bytesOf target)
  | tree => objectId "blob" tree.toBytes

/-- Entries with the parts of their paths, gathered by the first part; the entries of a directory
stand together. -/
def gather : List (List String × Tracked) → List (String × List (List String × Tracked))
  | [] => []
  | ([], _) :: rest => gather rest
  | (name :: parts, tracked) :: rest =>
    match gather rest with
    | (other, members) :: groups =>
      if name == other && !parts.isEmpty then (name, (parts, tracked) :: members) :: groups
      else (name, [(parts, tracked)]) :: (other, members) :: groups
    | [] => [(name, [(parts, tracked)])]

/-- The name of a directory. The first argument bounds the depth of the paths. -/
def treeId : Nat → List (List String × Tracked) → ObjectId
  | 0, _ => objectId "tree" []
  | depth + 1, entries => objectId "tree" ((gather entries).flatMap fun (name, members) =>
    match members with
    | [([], tracked)] =>
      bytesOf ((if tracked.isLink then "120000 " else "100644 ") ++ name) ++ 0 :: tracked.id
    | members => bytesOf ("40000 " ++ name) ++ 0 :: treeId depth members)

/-- The name of the directory that holds the tracked files, which are in the order of their paths. -/
def snapshotId (tracked : List Tracked) : ObjectId :=
  let entries := tracked.map fun entry => (Text.split entry.path "/", entry)
  treeId ((entries.map (·.1.length)).foldl max 0 + 1) entries

def commitId (tree : ObjectId) (parent : Option String) (signature message : String) : ObjectId :=
  objectId "commit" (bytesOf ("tree " ++ Digest.hexText tree ++ "\n"
    ++ (parent.map fun parent => "parent " ++ parent ++ "\n").getD ""
    ++ "author " ++ signature ++ "\ncommitter " ++ signature ++ "\n\n" ++ message))

end CodeAtlas.Git
