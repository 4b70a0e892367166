import CodeAtlas.Console.Message

/-!
The progress of a run through its stages. Each stage has a weight, the share of the whole time that
it is expected to take, and the time left is estimated from the time spent.
-/

namespace CodeAtlas.Console

structure Progress where
  stages : Int
  verbose : Bool
  start : Float
  stageStart : Float
  stage : Int := 0
  done : Float := 0.0

namespace Progress

def begin (stages : Int) (verbose : Bool) (now : Float) : Progress :=
  { stages, verbose, start := now, stageStart := now }

def stageTable : List (Int × Float × String) := [
  (1, 0.40, "Dependency Analysis"),
  (2, 0.20, "Module Clustering"),
  (3, 0.30, "Documentation Generation"),
  (4, 0.05, "HTML Generation"),
  (5, 0.05, "Finalization")]

def weight (stage : Int) : Float := ((stageTable.lookup stage).map Prod.fst).getD 0.0

def stageName (stage : Int) : String :=
  ((stageTable.lookup stage).map Prod.snd).getD ("Stage " ++ Decimal.intText stage)

def elapsed (progress : Progress) (now : Float) : String := Time.clockText (now - progress.start)

def startStage (progress : Progress) (now : Float) (stage : Int) (name : String) :
    Work Progress := do
  let name := if name.isEmpty then stageName stage else name
  let number := Decimal.intText stage ++ "/" ++ Decimal.intText progress.stages
  if progress.verbose then
    Work.printLine ("\n[" ++ progress.elapsed now ++ "] Phase " ++ number ++ ": " ++ name)
  else Work.printLine ("[" ++ number ++ "] " ++ name)
  return { progress with stage, done := 0.0, stageStart := now }

def update (progress : Progress) (now share : Float) (message : String) : Work Progress := do
  if progress.verbose && !message.isEmpty then
    Work.printLine ("[" ++ progress.elapsed now ++ "]   " ++ message)
  return { progress with done := if share > 1.0 then 1.0 else if share > 0.0 then share else 0.0 }

def complete (progress : Progress) (now : Float) (message : String) : Work Progress := do
  if progress.verbose then
    let before := "[" ++ progress.elapsed now ++ "]   "
    Work.printLine (before ++ stageName progress.stage ++ " complete (" ++
      Decimal.fixedText 1 (now - progress.stageStart) ++ "s)")
    if !message.isEmpty then Work.printLine (before ++ message)
  return { progress with done := 1.0 }

def overall (progress : Progress) : Float :=
  let before := (List.range progress.stage.toNat).drop 1
  before.foldl (fun sum (stage : Nat) => sum + weight stage) 0.0 + weight progress.stage * progress.done

def timeLeft? (progress : Progress) (now : Float) : Option String :=
  let elapsed := now - progress.start
  let overall := progress.overall
  if overall ≤ 0.0 then none
  else
    let left := elapsed / overall - elapsed
    let (minutes, _) := Time.minutesAndSeconds left
    if left < 0.0 then some "< 1 min"
    else if minutes > 60 then
      some (Decimal.intText (minutes / 60) ++ "h " ++ Decimal.intText (minutes % 60) ++ "m")
    else some (Time.brief left)

end Progress

end CodeAtlas.Console
