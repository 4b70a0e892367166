import CodeAtlas.Workspace.Basic
import CodeAtlas.Time.Moment
import CodeAtlas.Time.Span

/-!
What the command line tells its user: notes, warnings, errors and the steps of the work.
-/

namespace CodeAtlas.Console

def success (message : String) : Work Unit := Work.printLine ("✓ " ++ message)

def warning (message : String) : Work Unit := Work.printLine ("⚠️  " ++ message)

def failure (message : String) : Work Unit := Work.printLine ("✗ " ++ message)

def detail (verbose : Bool) (now : Time.Moment) (message : String) : Work Unit := do
  if verbose then Work.printLine ("[" ++ now.clock ++ "] " ++ message)

def step (message : String) (number total : Option Int) : Work Unit :=
  match number, total with
  | some number, some total =>
    Work.printLine ("[" ++ Decimal.intText number ++ "/" ++ Decimal.intText total ++ "] " ++ message)
  | _, _ => Work.printLine ("→ " ++ message)

def elapsed (start now : Time.Moment) : String :=
  let ticks := now.ticks - start.ticks
  let span := Float.ofScientific ticks.natAbs true 6
  Time.brief (if ticks < 0 then -span else span)

/-- Tells why the work ended; gives the exit code. Problems that the program foresees have codes of
their own. -/
def explain (verbose : Bool) : Problem → Work Nat
  | .reported kind message detail => do
    Work.printLine ("\n✗ Error: " ++ message ++ detail)
    return kind.exitCode
  | problem => do
    Work.printLine ("\n✗ Unexpected error: " ++ problem.message)
    if verbose then Work.printLine "NoneType: None\n"
    return FailureKind.general.exitCode

def advise (message advice : String) (code : Int := 1) : Work Unit := do
  Work.printLine ("\n✗ Error: " ++ message)
  Work.printLine ("\n" ++ advice)
  throw (.exited code)

def moduleLine (number : Nat) (total : Int) (name : String) (ready : Bool) : String :=
  "  [" ++ Decimal.natText number ++ "/" ++ Decimal.intText total ++ "] " ++ name ++ "... " ++
    if ready then "✓ (cached)" else "⟳ (generating)"

/-- The lines for the modules of a run. Without details only the title of the bar is seen. -/
def modules (verbose : Bool) (total : Int) (names : List (String × Bool)) : Work Unit := do
  if verbose then
    for ((name, ready), index) in names.zipIdx do
      Work.printLine (moduleLine (index + 1) total name ready)
  else Work.printLine "Generating modules"

end CodeAtlas.Console
