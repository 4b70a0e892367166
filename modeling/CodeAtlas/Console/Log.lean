import CodeAtlas.Text.Filled
import CodeAtlas.Workspace.Basic

/-!
Logs in colour. A channel writes the records that reach its level; the root channel serves all
those that have none of their own.
-/

namespace CodeAtlas.Console

def styleCode (code : String) : String := "\x1b[" ++ code ++ "m"

def resetCode : String := styleCode "0"

def levelName (level : Int) : String :=
  match level with
  | 0 => "NOTSET"
  | 10 => "DEBUG"
  | 20 => "INFO"
  | 30 => "WARNING"
  | 40 => "ERROR"
  | 50 => "CRITICAL"
  | _ => "Level " ++ Decimal.intText level

def levelStyle (level : Int) : String :=
  match level with
  | 10 => styleCode "34"
  | 20 => styleCode "36"
  | 30 => styleCode "33"
  | 40 => styleCode "31"
  | 50 => styleCode "31" ++ styleCode "1"
  | _ => ""

def logLine (clock : String) (level : Int) (message : String) : String :=
  let style := levelStyle level
  styleCode "34" ++ "[" ++ clock ++ "]" ++ resetCode ++ " " ++ style ++
    Text.padRight 8 (levelName level) ++ resetCode ++ " " ++ style ++ message ++ resetCode

/-- A channel of the log, as it is set up: its level, whether the root channel gets its records too,
and how many outputs the root and the channel itself have. -/
structure Channel where
  level : Int
  passesOn : Bool
  rootOutputs : Nat
  outputs : Nat
  least : Int

/-- The level of a root channel that nobody set. -/
def restingLevel : Int := 30

def Channel.ofRoot (isRoot : Bool) (level : Int) : Channel :=
  ⟨if isRoot then level else 0, true, 1, if isRoot then 1 else 0, level⟩

def Channel.alone (isRoot : Bool) (level : Int) : Channel :=
  ⟨level, false, if isRoot then 1 else 0, 1, if level == 0 && !isRoot then restingLevel else level⟩

def Channel.takes (channel : Channel) (level : Int) : Bool := 0 < level && channel.least ≤ level

def Channel.write (channel : Channel) (clock : String) (level : Int) (message : String)
    (values : List Json) : Work Unit := do
  if channel.takes level then
    if let some message := Text.fill? message values then
      Work.printLine (logLine clock level message)

end CodeAtlas.Console
