import CodeAtlas.Decimal.Reading
import CodeAtlas.OrderedMap
import CodeAtlas.Text.Case
import CodeAtlas.Text.Quoted
import CodeAtlas.Workspace.Basic

/-!
Command lines made of long options. An option takes a text, a whole number or nothing. It may be
shortened as long as it stays clear which one is meant, and its value follows in the next word or
after an equals sign. What is wrong with a command line is printed with a short usage.
-/

namespace CodeAtlas.Command

inductive ValueKind where
  | text
  | number
  | none
deriving DecidableEq

structure OptionRule where
  name : String
  kind : ValueKind
  required : Bool := false
deriving DecidableEq

structure CommandLine where
  program : String
  rules : List OptionRule

/-- The values of the options that are given; of an option given twice the last value counts. -/
structure Arguments where
  texts : OrderedMap String String := .empty
  numbers : OrderedMap String Int := .empty
  switches : List String := []

inductive Refusal where
  | help
  | because (message : String)

/-! ## Usage -/

def OptionRule.shown (rule : OptionRule) : String :=
  let value := Text.replace (Text.upper rule.name) "-" "_"
  let plain := "--" ++ rule.name ++ (if rule.kind == .none then "" else " " ++ value)
  if rule.required then plain else "[" ++ plain ++ "]"

/-- Fills lines of a width with words; each line but the first starts with an indentation. The
first argument is the length of the line so far, the second its words in reverse. -/
def fill (width indent : Nat) : Nat → List String → List String → List (List String)
  | _, line, [] => [line.reverse]
  | used, line, word :: rest =>
    if used + 1 + word.length > width && !line.isEmpty then
      line.reverse :: fill width indent (indent + word.length) [word] rest
    else fill width indent (used + 1 + word.length) (word :: line) rest

def CommandLine.usage (line : CommandLine) : String :=
  let words := line.program :: "[-h]" :: line.rules.map OptionRule.shown
  let lead := "usage: "
  let whole := lead ++ Text.join " " words
  if whole.length ≤ 78 then whole
  else
    let indent := lead.length + line.program.length + 1
    let lines := (fill 78 indent (lead.length - 1) [] words).map (Text.join " ")
    lead ++ Text.join ("\n" ++ Text.repeated indent " ") lines

/-! ## Words -/

inductive Word where
  | plain
  | unknown
  | help
  | option (rule : OptionRule) (value : Option String)

def isNegativeNumber (word : String) : Bool :=
  match word.toList with
  | '-' :: digits =>
    let whole := digits.takeWhile Text.isDecimal
    match digits.drop whole.length with
    | [] => !whole.isEmpty
    | '.' :: places => !places.isEmpty && places.all Text.isDecimal
    | _ => false
  | _ => false

def CommandLine.candidates (line : CommandLine) (start : String) : List (Option OptionRule) :=
  (none :: line.rules.map some).filter fun rule =>
    Text.startsWith ("--" ++ (rule.elim "help" (·.name))) start

def candidateName (rule : Option OptionRule) : String := "--" ++ rule.elim "help" (·.name)

def CommandLine.classify (line : CommandLine) (word : String) : Except Refusal Word := do
  let ofRule (rule : Option OptionRule) (value : Option String) : Word :=
    match rule with
    | some rule => .option rule value
    | none => .help
  if !Text.startsWith word "-" then return .plain
  if word == "-h" || word == "--help" then return .help
  if let some rule := line.rules.find? fun rule => "--" ++ rule.name == word then
    return .option rule none
  if word == "-" then return .plain
  let (start, value) := match Text.cut? word "=" with
    | some (before, after) => (before, some after)
    | none => (word, none)
  if let some rule := line.rules.find? fun rule => "--" ++ rule.name == start then
    return .option rule value
  if Text.startsWith word "--" then
    match line.candidates start with
    | [rule] => return ofRule rule value
    | _ :: _ :: _ =>
      throw (.because ("ambiguous option: " ++ word ++ " could match " ++
        Text.join ", " ((line.candidates start).map candidateName)))
    | [] => pure ()
  else if Text.startsWith word "-h" then return .help
  if isNegativeNumber word || Text.contains word " " then return .plain
  return .unknown

def CommandLine.classifyAll (line : CommandLine) : List String → Except Refusal (List (String × Word))
  | [] => return []
  | "--" :: rest => return ("--", .unknown) :: rest.map fun word => (word, .plain)
  | word :: rest => do return (word, ← line.classify word) :: (← line.classifyAll rest)

/-! ## Arguments -/

def Arguments.enter (arguments : Arguments) (rule : OptionRule) (value : String) :
    Except Refusal Arguments :=
  match rule.kind with
  | .number =>
    match Decimal.readInt? value with
    | some number => return { arguments with numbers := arguments.numbers.insert rule.name number }
    | none =>
      throw (.because ("argument --" ++ rule.name ++ ": invalid int value: " ++
        Text.quoted value))
  | .text => return { arguments with texts := arguments.texts.insert rule.name value }
  | .none =>
    throw (.because ("argument --" ++ rule.name ++ ": ignored explicit argument " ++
      Text.quoted value))

def consume (arguments : Arguments) (extras : List String) :
    List (String × Word) → Except Refusal (Arguments × List String)
  | [] => return (arguments, extras)
  | (word, .plain) :: rest => consume arguments (extras ++ [word]) rest
  | (word, .unknown) :: rest => consume arguments (extras ++ [word]) rest
  | (_, .help) :: _ => throw .help
  | (_, .option rule (some value)) :: rest => do
    consume (← arguments.enter rule value) extras rest
  | (_, .option rule none) :: rest =>
    if rule.kind == .none then
      consume { arguments with switches := arguments.switches ++ [rule.name] } extras rest
    else
      match rest with
      | (value, .plain) :: rest => do consume (← arguments.enter rule value) extras rest
      | _ => throw (.because ("argument --" ++ rule.name ++ ": expected one argument"))

def Arguments.isGiven (arguments : Arguments) (rule : OptionRule) : Bool :=
  match rule.kind with
  | .text => arguments.texts.contains rule.name
  | .number => arguments.numbers.contains rule.name
  | .none => arguments.switches.contains rule.name

def CommandLine.parse (line : CommandLine) (words : List String) : Except Refusal Arguments := do
  let (arguments, extras) ← consume {} [] (← line.classifyAll words)
  let missing := line.rules.filter fun rule => rule.required && !arguments.isGiven rule
  if !missing.isEmpty then
    throw (.because ("the following arguments are required: " ++
      Text.join ", " (missing.map fun rule => "--" ++ rule.name)))
  if !extras.isEmpty then
    throw (.because ("unrecognized arguments: " ++ Text.join " " extras))
  return arguments

def CommandLine.read (line : CommandLine) (words : List String) : Work Arguments :=
  match line.parse words with
  | .ok arguments => return arguments
  | .error .help => do
    Work.printLine line.usage
    throw (.exited 0)
  | .error (.because message) => do
    Work.printLine line.usage
    Work.printLine (line.program ++ ": error: " ++ message)
    throw (.exited 2)

end CodeAtlas.Command
