import CodeAtlas.Json.Access
import CodeAtlas.Language
import CodeAtlas.Text.Case

/-!
The code files in the record of a structure, in the order of the walk.
-/

namespace CodeAtlas.Repository

structure CodeFile where
  path : String
  name : String
  extension : String
  language : String
deriving DecidableEq

def CodeFile.toJson (file : CodeFile) : Json :=
  .object [("path", .text file.path), ("name", .text file.name),
    ("extension", .text file.extension), ("language", .text file.language)]

def lowered : Json → Except Fault String
  | .text value => return Text.lower value
  | _ => throw .noSuchMember

def codeFile? (record : Json) : Except Fault (Option CodeFile) := do
  let extension ← lowered (← record.getOr "extension" (.text ""))
  match languageOfExtension? extension with
  | none => return none
  | some language =>
    let name ← record.need "name"
    let _ ← lowered name
    let path ← record.need "path"
    match name, path with
    | .text name, .text path => return some ⟨path, name, extension, language⟩
    | _, _ => throw .wrongKind

mutual

def codeFiles : Json → Except Fault (List CodeFile)
  | .object members => do
    match ← (Json.object members).need "type" with
    | .text "file" => return (← codeFile? (.object members)).toList
    | .text "directory" => codeFilesOfMembers members
    | _ => return []
  | _ => throw .wrongKind

def codeFilesOfMembers : List (String × Json) → Except Fault (List CodeFile)
  | [] => return []
  | ("children", .list children) :: _ => codeFilesOfChildren children
  | ("children", other) :: _ => if other.isTruthy then throw .wrongKind else return []
  | _ :: rest => codeFilesOfMembers rest

def codeFilesOfChildren : List Json → Except Fault (List CodeFile)
  | [] => return []
  | child :: rest => do
    let here ← codeFiles child
    return here ++ (← codeFilesOfChildren rest)

end

def supportedLanguages : List String :=
  ["python", "javascript", "typescript", "java", "csharp", "c", "cpp", "go", "rust"]

def CodeFile.isSupported (file : CodeFile) : Bool := supportedLanguages.contains file.language

end CodeAtlas.Repository
