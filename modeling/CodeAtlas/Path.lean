import CodeAtlas.Text.Basic

/-!
Paths as texts with the slash as separator. The functions here look only at the text; what a path
leads to is the business of the file tree.
-/

namespace CodeAtlas.Path

def isAbsolute (path : String) : Bool :=
  Text.startsWith path "/"

def parts (path : String) : List String :=
  (Text.split path "/").filter fun part => part ≠ "" && part ≠ "."

/-- The slashes a path starts with: exactly two are kept, any other number counts as one. -/
def anchor (path : String) : String :=
  let slashes := (path.toList.takeWhile (· == '/')).length
  if slashes == 0 then "" else if slashes == 2 then "//" else "/"

/-- A path without repeated slashes and single dots; nothing left is the current directory. -/
def clean (path : String) : String :=
  let text := anchor path ++ Text.join "/" (parts path)
  if text == "" then "." else text

def join (base path : String) : String :=
  if isAbsolute path then path
  else if base == "" || Text.endsWith base "/" then base ++ path
  else base ++ "/" ++ path

def below (base path : String) : String :=
  clean (join base path)

def name (path : String) : String :=
  (parts path).getLast?.getD ""

def baseName (path : String) : String :=
  match Text.cutLast? path "/" with
  | some (_, last) => last
  | none => path

/-- What precedes the last slash, without slashes at its end unless it has nothing else. -/
def directory (path : String) : String :=
  match Text.cutLast? path "/" with
  | some (before, _) =>
    let head := before ++ "/"
    if head.toList.all (· == '/') then head else Text.stripRightChars head ['/']
  | none => ""

def parent (path : String) : String :=
  let remaining := (parts path).dropLast
  let text := anchor path ++ Text.join "/" remaining
  if text == "" then "." else text

def splitName (name : String) : String × String :=
  match Text.cutLast? name "." with
  | some (stem, ending) => if stem == "" || ending == "" then (name, "") else (stem, "." ++ ending)
  | none => (name, "")

def suffix (path : String) : String :=
  (splitName (name path)).2

def stem (path : String) : String :=
  (splitName (name path)).1

/-- Resolves double dots from left to right; at the root they vanish. -/
def resolveParts (absolute : Bool) : List String → List String → List String
  | done, [] => done.reverse
  | done, part :: rest =>
    if part == ".." then
      match done with
      | [] => resolveParts absolute (if absolute then [] else [".."]) rest
      | last :: before =>
        if last == ".." then resolveParts absolute (".." :: done) rest
        else resolveParts absolute before rest
    else resolveParts absolute (part :: done) rest

/-- A path with single and double dots resolved in the text alone. -/
def normalize (path : String) : String :=
  let start := anchor path
  let text := start ++ Text.join "/" (resolveParts (start ≠ "") [] (parts path))
  if text == "" then "." else text

/-- The parts of a normalized path seen from the root; a relative path is taken from there. -/
def absoluteParts (path : String) : List String :=
  resolveParts true [] (parts path)

def dropCommon : List String → List String → List String × List String
  | left :: lefts, right :: rights =>
    if left == right then dropCommon lefts rights else (left :: lefts, right :: rights)
  | lefts, rights => (lefts, rights)

def relative (path start : String) : String :=
  let (up, down) := dropCommon (absoluteParts start) (absoluteParts path)
  let steps := List.replicate up.length ".." ++ down
  if steps.isEmpty then "." else Text.join "/" steps

end CodeAtlas.Path
