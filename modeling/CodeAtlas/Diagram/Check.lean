import CodeAtlas.Disk.Basic
import CodeAtlas.Text.Word

/-!
Diagrams in the text of a page and the report on them. A diagram stands between a line that starts
with an opening fence and the next line that is a closing fence, or the end of the text. A first
validator either accepts a diagram or fails with a text; if no message can be found in that text, a
second validator answers with a text or fails.
-/

namespace CodeAtlas.Diagram

structure Block where
  line : Nat
  body : List String
deriving DecidableEq

def opensBlock (line : String) : Bool :=
  Text.startsWith (Text.strip line) "```mermaid"

def closesBlock (line : String) : Bool :=
  Text.strip line == "```"

/-- The blocks in some lines, the first of which has the given number. A block without lines is
left out. -/
def blocksFrom (number : Nat) : List String → List Block
  | [] => []
  | line :: rest =>
    if opensBlock line then
      let body := rest.takeWhile fun line => !closesBlock line
      let more := blocksFrom (number + body.length + 2) (rest.drop (body.length + 1))
      if body.isEmpty then more else ⟨number, body⟩ :: more
    else blocksFrom (number + 1) rest
termination_by lines => lines.length
decreasing_by
  all_goals simp only [List.length_cons, List.length_drop]
  all_goals omega

def blocks (text : String) : List Block :=
  blocksFrom 1 (Text.split text "\n")

def Block.text (block : Block) : String :=
  Text.join "\n" block.body

/-- What the second validator does with a diagram. -/
inductive Fallback where
  | answers (text : String)
  | fails (text : String)

structure Validators where
  first : List (Option String)
  second : List Fallback

def coreMessage? (failure : String) : Option String := do
  let (_, rest) ← Text.cut? failure "Error:"
  let message :=
    match Text.cut? rest "Stack Trace:" with
    | some (before, _) => before
    | none => rest
  return Text.strip ("Error:" ++ message)

def lineNumber? (message : List Char) : Option Nat :=
  match message with
  | [] => none
  | char :: rest =>
    match Text.Chars.dropLead? "line ".toList (char :: rest) with
    | some after =>
      let digits := after.takeWhile Text.isDecimal
      if digits.isEmpty then lineNumber? rest
      else some (digits.foldl (fun value digit => value * 10 + Text.decimalValue digit) 0)
    | none => lineNumber? rest

/-- The report on a message about a diagram; an empty message is no report. A line number counts
from the opening fence. -/
def describe (number line : Nat) (message : String) : Option String :=
  if message == "" then none
  else
    let start := "Diagram " ++ Decimal.natText number ++ ": "
    match lineNumber? message.toList with
    | some inside =>
      some (start ++ "Parse error on line " ++ Decimal.natText (line + inside) ++ ":\n" ++
        Text.join "\n" ((Text.split message "\n").drop 1))
    | none => some (start ++ message)

def checkBlock (number : Nat) (block : Block) (validators : Validators) :
    Option String × Validators :=
  let failure := validators.first.head?.join
  let validators := { validators with first := validators.first.drop 1 }
  match failure with
  | none => (none, validators)
  | some failure =>
    match coreMessage? failure with
    | some message => (describe number block.line message, validators)
    | none =>
      let failed (text : String) :=
        "  Diagram " ++ Decimal.natText number ++ ": Exception during validation - " ++ text
      match validators.second with
      | [] => (some (failed "pop from empty list"), validators)
      | .fails text :: rest => (some (failed text), { validators with second := rest })
      | .answers text :: rest =>
        (describe number block.line text, { validators with second := rest })

def checkBlocks (number : Nat) (validators : Validators) : List Block → List String
  | [] => []
  | block :: rest =>
    let (report, validators) := checkBlock number block validators
    report.toList ++ checkBlocks (number + 1) validators rest

def check (relativePath text : String) (validators : Validators) : String :=
  match blocks text with
  | [] => "No mermaid diagrams found in the file"
  | found =>
    match checkBlocks 1 validators found with
    | [] => "All mermaid diagrams in file: " ++ relativePath ++ " are syntax correct"
    | reports =>
      "Mermaid syntax errors found in file: " ++ relativePath ++ "\n" ++
        Text.join "\n" (reports.flatMap fun report => ["\n", report])

/-- Checks the diagrams of a file. Why a file cannot be read is not put into words. -/
def checkFile (disk : Disk) (path relativePath : String) (validators : Validators) : String :=
  if !disk.exists? path then "Error: File '" ++ path ++ "' does not exist"
  else
    match disk.read path with
    | .ok text => check relativePath (Text.unifyBreaks text) validators
    | .error _ => "Error processing file: "

end CodeAtlas.Diagram
