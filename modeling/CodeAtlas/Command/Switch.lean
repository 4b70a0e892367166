import CodeAtlas.Decimal.Reading
import CodeAtlas.OrderedMap
import CodeAtlas.Text.Quoted
import CodeAtlas.Text.Similar
import CodeAtlas.Workspace.Basic

/-!
Command lines with long and short switches. Short ones may stand together behind one dash. A value
follows in the next word, behind an equals sign, or directly behind a short switch.
-/

namespace CodeAtlas.Command

/-- What a switch takes: nothing, any text, a whole number, or a path that leads somewhere. -/
inductive Need where
  | nothing
  | text
  | number
  | place
deriving DecidableEq

structure Switch where
  name : String
  letter : Option Char := none
  need : Need := .nothing
  usual : Option String := none
deriving DecidableEq

namespace Switch

def long (switch : Switch) : String := "--" ++ switch.name

def short (letter : Char) : String := String.ofList ['-', letter]

def shown (switch : Switch) : String :=
  Text.join " / " ((switch.long :: (switch.letter.map short).toList).map Text.quoted)

end Switch

/-- Why a command line is refused; whether the usage is shown before it. -/
structure Complaint where
  message : String
  withUsage : Bool := true
deriving DecidableEq

/-- What a command line gives: the switches, with their values if they take some, in the order of
the words, and the words that belong to no switch. -/
structure Given where
  switches : List (Switch × String) := []
  others : List String := []

namespace Given

def enter (given : Given) (switch : Switch) (value : String) : Given :=
  { given with switches := given.switches ++ [(switch, value)] }

def has (given : Given) (name : String) : Bool :=
  given.switches.any fun entry => entry.1.name == name

def value? (given : Given) (switch : Switch) : Option String :=
  match given.switches.reverse.find? fun entry => entry.1 == switch with
  | some (_, value) => some value
  | none => switch.usual

end Given

def unknown (name : String) (similar : List String := []) : Complaint :=
  { message := "No such option: " ++ name ++
      match similar with
      | [] => ""
      | [only] => " Did you mean " ++ only ++ "?"
      | several =>
        let sorted := several.mergeSort fun left right => decide (left ≤ right)
        " (Possible options: " ++ Text.join ", " sorted ++ ")" }

def withoutValue (name : String) : Complaint :=
  ⟨"Option " ++ Text.quoted name ++ " requires an argument.", false⟩

def unwantedValue (name : String) : Complaint :=
  ⟨"Option " ++ Text.quoted name ++ " does not take a value.", false⟩

/-- Reads the letters behind a dash; gives also the switch that waits for its value. -/
def readLetters (switches : List Switch) (given : Given) :
    List Char → Except Complaint (Given × Option (String × Switch))
  | [] => .ok (given, none)
  | letter :: rest =>
    match switches.find? fun switch => switch.letter == some letter with
    | none => .error (unknown (Switch.short letter))
    | some switch =>
      if switch.need = .nothing then readLetters switches (given.enter switch "") rest
      else if rest.isEmpty then .ok (given, some (Switch.short letter, switch))
      else .ok (given.enter switch (String.ofList rest), none)

/-- Reads a word that starts with a dash; gives also the switch that waits for its value. -/
def readSwitch (switches : List Switch) (given : Given) (word : String) :
    Except Complaint (Given × Option (String × Switch)) :=
  let (name, value?) := match Text.cut? word "=" with
    | some (name, value) => (name, some value)
    | none => (word, none)
  match switches.find? fun switch => switch.long == name with
  | none =>
    if Text.startsWith word "--" then
      .error (unknown name (Text.similar name (switches.map Switch.long)))
    else readLetters switches given (word.toList.drop 1)
  | some switch =>
    match switch.need, value? with
    | .nothing, none => .ok (given.enter switch "", none)
    | .nothing, some _ => .error (unwantedValue name)
    | _, some value => .ok (given.enter switch value, none)
    | _, none => .ok (given, some (name, switch))

/-- Reads all words. After two dashes no word is a switch; unless the words may be mixed, the same
holds from the first word on that is none. -/
def readWords (switches : List Switch) (mixed : Bool) (given : Given) :
    List String → Except Complaint Given
  | [] => .ok given
  | word :: rest =>
    if word == "--" then .ok { given with others := given.others ++ rest }
    else if Text.startsWith word "-" && word.length > 1 then
      match readSwitch switches given word with
      | .error complaint => .error complaint
      | .ok (given, none) => readWords switches mixed given rest
      | .ok (given, some (name, switch)) =>
        match rest with
        | [] => .error (withoutValue name)
        | value :: rest => readWords switches mixed (given.enter switch value) rest
    else if mixed then
      readWords switches mixed { given with others := given.others ++ [word] } rest
    else .ok { given with others := given.others ++ word :: rest }

def valueFault? (disk : Disk) (need : Need) (value : String) : Option String :=
  match need with
  | .number =>
    if (Decimal.readInt? value).isSome then none
    else some (Text.quoted value ++ " is not a valid integer.")
  | .place =>
    if disk.exists? value then none else some ("Path " ++ Text.quoted value ++ " does not exist.")
  | _ => none

def Given.inOrder (given : Given) (switches : List Switch) : List Switch :=
  (given.switches.map Prod.fst ++ switches).eraseDups

/-- Looks at all values, then at the words that belong to no switch. -/
def Given.check (given : Given) (disk : Disk) (switches : List Switch) : Except Complaint Unit := do
  for switch in given.inOrder switches do
    if let some fault := (given.value? switch).bind (valueFault? disk switch.need) then
      throw { message := "Invalid value for " ++ switch.shown ++ ": " ++ fault }
  match given.others with
  | [] => return
  | [word] => throw { message := "Got unexpected extra argument (" ++ word ++ ")" }
  | words =>
    throw { message := "Got unexpected extra arguments (" ++ Text.join " " words ++ ")" }

/-! ## Refusals -/

def showUsage {α : Type} (command usage : String) : Work α := do
  Work.printLine ("Usage: " ++ command ++ usage)
  throw (.exited 0)

def refuse {α : Type} (command usage : String) (complaint : Complaint) : Work α := do
  if complaint.withUsage then
    Work.printLine ("Usage: " ++ command ++ usage)
    Work.printLine ("Try '" ++ command ++ " --help' for help.\n")
  Work.printLine ("Error: " ++ complaint.message)
  throw (.exited 2)

def help : Switch := { name := "help" }

def ordinaryUsage : String := " [OPTIONS]"

def menuUsage : String := " [OPTIONS] COMMAND [ARGS]..."

def readCommand (command : String) (switches : List Switch) (words : List String) : Work Given := do
  let switches := switches ++ [help]
  let refuse {α : Type} : Complaint → Work α := refuse command ordinaryUsage
  match readWords switches true {} words with
  | .error complaint => refuse complaint
  | .ok given =>
    if given.has help.name then showUsage command ordinaryUsage
    match given.check (← Work.disk) switches with
    | .error complaint => refuse complaint
    | .ok () => return given

/-- Reads the words of a menu up to the name of a command; gives its own switches, that name and
the rest. A switch may end the run before a command is asked for. -/
def readMenu (command : String) (switches : List Switch) (early : Given → Work Unit)
    (words : List String) : Work (String × List String) := do
  if words.isEmpty then showUsage command menuUsage
  match readWords (switches ++ [help]) false {} words with
  | .error complaint => refuse command menuUsage complaint
  | .ok given =>
    if given.switches.head?.any (·.1.name == help.name) then showUsage command menuUsage
    early given
    match given.others with
    | [] => refuse command menuUsage { message := "Missing command." }
    | name :: rest => return (name, rest)

def noSuchCommand {α : Type} (command name : String) : Work α :=
  refuse command menuUsage { message := "No such command " ++ Text.quoted name ++ "." }

end CodeAtlas.Command
