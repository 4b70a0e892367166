/-!
File name patterns. A star stands for any text, a question mark for one character, and a bracket
for one character of a set; a bracket that is not closed stands for itself.
-/

namespace CodeAtlas

inductive Glob where
  | anyText
  | anyChar
  | literal (char : Char)
  | oneOf (negated : Bool) (ranges : List (Char × Char))
  | nothing
deriving DecidableEq, Repr

namespace Glob

/-! ## Brackets

The inside of a bracket is cut at its hyphens into chunks: a hyphen joins the last character of a
chunk to the first of the next one as a range. The first two characters after a cut are never a
hyphen of that kind. A range that runs backwards disappears. -/

/-- The text before the first hyphen that is preceded by at least so many characters, and the text
after it. -/
def cutHyphen? (skip : Nat) : List Char → Option (List Char × List Char)
  | [] => none
  | char :: rest =>
    match skip with
    | 0 =>
      if char == '-' then some ([], rest)
      else (cutHyphen? 0 rest).map fun (before, after) => (char :: before, after)
    | skip + 1 => (cutHyphen? skip rest).map fun (before, after) => (char :: before, after)

def chunksFrom (skip : Nat) : Nat → List Char → List (List Char)
  | 0, inside => [inside]
  | fuel + 1, inside =>
    match cutHyphen? skip inside with
    | none => [inside]
    | some (before, []) => [before ++ ['-']]
    | some (before, after) => before :: chunksFrom 2 fuel after

/-- Joins a chunk to the chunks after it; a backwards range takes both its ends along. -/
def joinChunk (chunk : List Char) (rest : List (List Char)) : List (List Char) :=
  match chunk.getLast?, rest with
  | some last, (first :: tail) :: more =>
    if last > first then (chunk.dropLast ++ tail) :: more else chunk :: rest
  | _, _ => chunk :: rest

def forwardChunks (chunks : List (List Char)) : List (List Char) :=
  chunks.foldr joinChunk []

def rangesOf : List (List Char) → List (Char × Char)
  | [] => []
  | [chunk] => chunk.map fun char => (char, char)
  | chunk :: next :: rest =>
    match chunk.getLast?, next with
    | some last, first :: tail =>
      (chunk.dropLast.map fun char => (char, char)) ++ (last, first) :: rangesOf (tail :: rest)
    | _, _ => (chunk.map fun char => (char, char)) ++ rangesOf (next :: rest)
termination_by chunks => chunks.length

def ofBracket (inside : List Char) : Glob :=
  let skip := if inside.head? == some '!' then 2 else 1
  let chunks :=
    if inside.contains '-' then forwardChunks (chunksFrom skip inside.length inside) else [inside]
  match chunks with
  | [[]] => .nothing
  | [['!']] => .anyChar
  | ('!' :: first) :: rest => .oneOf true (rangesOf (first :: rest))
  | chunks => .oneOf false (rangesOf chunks)

/-- The inside of a bracket and the rest behind it. An exclamation mark and a closing bracket at
the start belong to the inside. -/
def bracket? (text : List Char) : Option (List Char × List Char) :=
  let (mark, afterMark) :=
    match text with
    | '!' :: rest => (['!'], rest)
    | rest => ([], rest)
  let (close, afterClose) :=
    match afterMark with
    | ']' :: rest => ([']'], rest)
    | rest => ([], rest)
  match afterClose.dropWhile (· != ']') with
  | [] => none
  | _ :: rest => some (mark ++ close ++ afterClose.takeWhile (· != ']'), rest)

/-! ## Patterns -/

def parseFrom : Nat → List Char → List Glob
  | 0, _ => []
  | _ + 1, [] => []
  | fuel + 1, char :: rest =>
    match char with
    | '*' => .anyText :: parseFrom fuel rest
    | '?' => .anyChar :: parseFrom fuel rest
    | '[' =>
      match bracket? rest with
      | some (inside, after) => ofBracket inside :: parseFrom fuel after
      | none => .literal '[' :: parseFrom fuel rest
    | _ => .literal char :: parseFrom fuel rest

def parse (pattern : String) : List Glob :=
  parseFrom pattern.length pattern.toList

def accepts (char : Char) : Glob → Bool
  | .anyText => false
  | .anyChar => true
  | .literal expected => expected == char
  | .oneOf negated ranges =>
    negated != ranges.any fun (low, high) => low ≤ char && char ≤ high
  | .nothing => false

def matchFrom : List Glob → List Char → Bool
  | [], text => text.isEmpty
  | .anyText :: parts, [] => matchFrom parts []
  | .anyText :: parts, char :: rest =>
    matchFrom parts (char :: rest) || matchFrom (.anyText :: parts) rest
  | _ :: _, [] => false
  | part :: parts, char :: rest => part.accepts char && matchFrom parts rest
termination_by parts text => (text.length, parts.length)

def isMatch (text pattern : String) : Bool :=
  matchFrom (parse pattern) text.toList

end Glob

end CodeAtlas
