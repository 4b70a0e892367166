import CodeAtlas.Text.Basic
import CodeAtlas.Text.Case

/-!
The settings of a repository: sections with options, each on a line of its own.
-/

namespace CodeAtlas.Git

/-- The sections with their options, in the order of the file. An option may have several values. -/
structure Config where
  sections : List (String × List (String × String)) := []

namespace Config

/-- How far a file is read: the sections so far, the last one's name, and the option whose quoted
value goes on in the next line. -/
structure Reading where
  config : Config := {}
  current : Option String := none
  open? : Option (String × String) := none

def add (config : Config) (name option value : String) : Config :=
  ⟨config.sections.map fun (other, options) =>
    (other, if other == name then options ++ [(option, value)] else options)⟩

def addSection (config : Config) (name : String) : Config :=
  if config.sections.any fun entry => entry.1 == name then config
  else ⟨config.sections ++ [(name, [])]⟩

def sectionName? (line : String) : Option String := do
  let rest ← Text.dropStart? line "["
  let (name, _) ← Text.cutLast? rest "]"
  if name.isEmpty then none else some (Text.strip name)

def option? (line : String) : Option (String × Option String) :=
  let chars := line.toList
  let name := Text.strip (String.ofList (chars.takeWhile fun char => char ≠ '=' && char ≠ ':'))
  match chars.dropWhile fun char => char ≠ '=' && char ≠ ':' with
  | [] => some (name, none)
  | _ :: rest =>
    if name.isEmpty then none else some (name, some (Text.stripLeft (String.ofList rest)))

/-- A value without the comment that follows a blank and a semicolon. -/
def withoutComment (value : String) : String :=
  if Text.startsWith value "\"" then value else
    match Text.cut? value ";" with
    | some (before, _) =>
      let last := if before.isEmpty then value else before
      if last.toList.getLast?.any Text.isBlank then before else value
    | none => value

def dropBackslash (text : String) : String := (Text.dropEnding? text "\\").getD text

def readOption? (reading : Reading) (name line : String) : Option Reading := do
  let (option, value?) ← option? line
  match value? with
  | none => some reading
  | some value =>
    let value := Text.strip (withoutComment value)
    let inner := Text.dropLast (Text.drop value 1) 1
    if value.length < 2 || !Text.startsWith value "\"" then
      some { reading with config := reading.config.add name option value }
    else if !Text.endsWith value "\"" then
      some { reading with open? := some (option, dropBackslash (Text.drop value 1)) }
    else if Text.contains inner "\"" || Text.contains inner "\\" then
      some { reading with config := reading.config.add name option value }
    else some { reading with config := reading.config.add name option inner }

def isComment (line : String) : Bool :=
  let stripped := Text.strip line
  stripped.isEmpty || Text.startsWithAny stripped ["#", ";"]
    || ((Text.words line).headD "" |> Text.lower) == "rem" && Text.startsWithAny line ["r", "R"]

def readLine? (reading : Reading) (line : String) : Option Reading :=
  if isComment line then some reading else
    match reading.open?, reading.current with
    | some (option, value), some name =>
      let line := Text.stripRight line
      match Text.dropEnding? line "\"" with
      | some rest => some { reading with
          config := reading.config.add name option (value ++ dropBackslash rest), open? := none }
      | none => some { reading with open? := some (option, value ++ dropBackslash line) }
    | _, current =>
      match sectionName? (Text.strip line), current with
      | some name, _ =>
        some { reading with config := reading.config.addSection name, current := some name }
      | none, some name => readOption? reading name line
      | none, none => none

def parse? (text : String) : Option Config := do
  let reading ← (Text.split text "\n").foldlM readLine? {}
  match reading.open?, reading.current with
  | some (option, value), some name => some (reading.config.add name option value)
  | _, _ => some reading.config

def get? (config : Config) (name option : String) : Option String := do
  let options ← config.sections.lookup name
  (options.reverse.find? fun entry => entry.1 == option).map (·.2)

def remoteSection (name : String) : String := "remote \"" ++ name ++ "\""

def address? (config : Config) (remote : String) : Option String :=
  config.get? (remoteSection remote) "url"

/-- The names of the other repositories; none if one of their sections has no quoted name. -/
def remotes? (config : Config) : Option (List String) :=
  (config.sections.filter fun entry => Text.startsWith entry.1 "remote ").mapM fun entry => do
    let (_, rest) ← Text.cut? entry.1 "\""
    some (((Text.cutLast? rest "\"").map (·.1)).getD "")

/-- A value as it is written: in quotes if it would be misread. -/
def written (value : String) : String :=
  let escaped := String.ofList (value.toList.flatMap fun char =>
    match char with
    | '\n' => ['\\', 'n']
    | '\t' => ['\\', 't']
    | '"' => ['\\', '"']
    | '\\' => ['\\', '\\']
    | char => [char])
  if Text.containsAny value [";", "#"] || Text.startsWith value " " || Text.endsWith value " " then
    "\"" ++ escaped ++ "\""
  else escaped

def remoteText (name address : String) : String :=
  "[" ++ remoteSection name ++ "]\n\turl = " ++ written address
    ++ "\n\tfetch = +refs/heads/*:refs/remotes/" ++ name ++ "/*\n"

end Config

end CodeAtlas.Git
