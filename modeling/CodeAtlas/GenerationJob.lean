import CodeAtlas.Json.Printer
import CodeAtlas.Time.Moment

/-!
The record of one generation of documentation: what it works on, its options, when it started and
ended, and how. Most of its fields are free values that come with the record.
-/

namespace CodeAtlas

inductive GenerationStatus where
  | pending
  | running
  | completed
  | failed
deriving DecidableEq, Repr

def GenerationStatus.name : GenerationStatus → String
  | .pending => "pending"
  | .running => "running"
  | .completed => "completed"
  | .failed => "failed"

def GenerationStatus.ofJson (value : Json) : Except Fault GenerationStatus :=
  match value with
  | .text "pending" => .ok .pending
  | .text "running" => .ok .running
  | .text "completed" => .ok .completed
  | .text "failed" => .ok .failed
  | _ => .error .badValue

structure GenerationJob where
  id : Json
  repositoryPath : Json
  repositoryName : Json
  outputDirectory : Json
  commit : Json
  branch : Json
  started : Json
  ended : Json
  status : GenerationStatus
  error : Json
  files : Json
  moduleCount : Json
  options : Json.Members
  statistics : Json.Members

namespace GenerationJob

def standardOptions : Json.Members := [
  ("create_branch", .bool false), ("github_pages", .bool false), ("no_cache", .bool false),
  ("custom_output", .null)]

def standardStatistics : Json.Members := [
  ("total_files_analyzed", .int 0), ("leaf_nodes", .int 0), ("max_depth", .int 0),
  ("total_tokens_used", .int 0)]

/-- The standard members with some of them set anew; no other may be set. -/
def setMembers (standard : Json.Members) (value : Json) : Except Fault Json.Members :=
  match value with
  | .object given =>
    if given.all fun member => standard.any (·.1 == member.1) then
      .ok (standard.map fun (name, value) => (name, (given.lookup name).getD value))
    else .error .wrongKind
  | _ => .error .wrongKind

/-- Reads a record; what is missing has a standard value, a new name or the current time. -/
def ofJson (now : Time.Moment) (freshId : String) (value : Json) : Except Fault GenerationJob := do
  let field := value.getOr
  let members (name : String) (standard : Json.Members) : Except Fault Json.Members :=
    match value.member? name with
    | some given => setMembers standard given
    | none => return standard
  return {
    id := ← field "job_id" (.text freshId)
    repositoryPath := ← field "repository_path" (.text "")
    repositoryName := ← field "repository_name" (.text "")
    outputDirectory := ← field "output_directory" (.text "")
    commit := ← field "commit_hash" (.text "")
    branch := ← field "branch_name" .null
    started := ← field "timestamp_start" (.text now.text)
    ended := ← field "timestamp_end" .null
    status := ← GenerationStatus.ofJson (← field "status" (.text "pending"))
    error := ← field "error_message" .null
    files := ← field "files_generated" (.list [])
    moduleCount := ← field "module_count" (.int 0)
    options := ← members "generation_options" standardOptions
    statistics := ← members "statistics" standardStatistics }

def start (job : GenerationJob) (now : Time.Moment) : GenerationJob :=
  { job with status := .running, started := .text now.text }

def complete (job : GenerationJob) (now : Time.Moment) : GenerationJob :=
  { job with status := .completed, ended := .text now.text }

def fail (job : GenerationJob) (now : Time.Moment) (error : Json) : GenerationJob :=
  { job with status := .failed, error, ended := .text now.text }

def toJson (job : GenerationJob) : Json := .object [
  ("job_id", job.id),
  ("repository_path", job.repositoryPath),
  ("repository_name", job.repositoryName),
  ("output_directory", job.outputDirectory),
  ("commit_hash", job.commit),
  ("branch_name", job.branch),
  ("timestamp_start", job.started),
  ("timestamp_end", job.ended),
  ("status", .text job.status.name),
  ("error_message", job.error),
  ("files_generated", job.files),
  ("module_count", job.moduleCount),
  ("generation_options", .object job.options),
  ("statistics", .object job.statistics)]

def text (job : GenerationJob) : String := job.toJson.render (Json.indented 2)

end GenerationJob

end CodeAtlas
