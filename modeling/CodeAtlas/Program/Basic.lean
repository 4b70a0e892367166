import CodeAtlas.Command.Switch
import CodeAtlas.Console.Message
import CodeAtlas.Source.Analysis

/-!
What the program is told by its surroundings, how it asks its user and how it ends.
-/

namespace CodeAtlas.Program

structure Surroundings where
  program : String
  home : String
  now : Time.Moment
  parsers : Parsers
  typed : List String := []

def version : String := "0.25.5"

def printLines (lines : List String) : Work Unit := do
  for line in lines do Work.printLine line

/-- Asks until the user agrees or declines. No answer means declining, also after the last line. -/
def confirm (question : String) : List String → Work Bool
  | [] => do
    Work.printLine (question ++ " [y/N]: ")
    return false
  | line :: rest => do
    Work.printLine (question ++ " [y/N]: " ++ line)
    match Text.strip (Text.lower line) with
    | "y" | "yes" => return true
    | "n" | "no" | "" => return false
    | _ =>
      Work.printLine "Error: invalid input"
      confirm question rest

/-- Runs work whose problems end the program. Problems of the expected kinds are told briefly, all
others with a title. -/
def ending (expected : List FailureKind) (tell : String → Work Unit) (verbose : Bool)
    (work : Work Unit) : Work Unit :=
  tryCatch work fun problem => do
    match problem with
    | .exited code => throw (.exited code)
    | .reported kind message detail =>
      if expected.contains kind then
        tell (message ++ detail)
        throw (.exited kind.exitCode)
      else throw (.exited (← Console.explain verbose problem))
    | problem => throw (.exited (← Console.explain verbose problem))

end CodeAtlas.Program
