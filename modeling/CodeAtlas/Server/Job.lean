import CodeAtlas.OrderedMap
import CodeAtlas.Time.Reading

/-!
Jobs that generate the documentation of a repository. The finished ones are kept in a file; what
stands there in a field is kept as it is.
-/

namespace CodeAtlas.Server

inductive JobState where
  | queued
  | processing
  | completed
  | failed
deriving DecidableEq, Repr

def JobState.name : JobState → String
  | .queued => "queued"
  | .processing => "processing"
  | .completed => "completed"
  | .failed => "failed"

structure Job where
  id : Json
  address : Json
  state : JobState
  created : Time.Moment
  started : Option Time.Moment := none
  finished : Option Time.Moment := none
  error : Json := .null
  progress : Json := .text ""
  docs : Json := .null
  model : Option String := none
  commit : Option String := none

abbrev Jobs := OrderedMap String Job

namespace Job

/-! ## Steps -/

def start (job : Job) (now : Time.Moment) : Job :=
  { job with state := .processing, started := some now, progress := .text "Starting repository clone..." }

def fail (job : Job) (now : Time.Moment) (message : String) : Job :=
  { job with
    state := .failed, finished := some now, error := .text message
    progress := .text ("Failed: " ++ message) }

def done (id : String) (address docs : Json) (now : Time.Moment) (progress : String)
    (commit : Option String := none) : Job :=
  { id := .text id, address, state := .completed, created := now, finished := some now, docs
    progress := .text progress, commit }

def waiting (id address : String) (now : Time.Moment) (commit : Option String) : Job :=
  { id := .text id, address := .text address, state := .queued, created := now
    progress := .text "Waiting in queue...", commit }

def hasDocs (job : Job) : Bool := job.state == .completed && job.docs.isTruthy

/-! ## Written forms -/

def momentJson : Option Time.Moment → Json := .ofOption fun moment => .text moment.text

def record (job : Job) : List (String × Json) :=
  [("job_id", job.id), ("repo_url", job.address), ("status", .text job.state.name),
    ("created_at", .text job.created.text), ("started_at", momentJson job.started),
    ("completed_at", momentJson job.finished), ("error_message", job.error),
    ("progress", job.progress), ("docs_path", job.docs)]

def toJson (job : Job) : Json :=
  .object (job.record ++
    [("main_model", .ofOption .text job.model), ("commit_id", .ofOption .text job.commit)])

/-- Whether the fields of a job have the kinds that a report of it promises. -/
def isSound (job : Job) : Bool :=
  let isText : Json → Bool
    | .text _ => true
    | _ => false
  let mayBeText : Json → Bool
    | .null => true
    | value => isText value
  isText job.id && isText job.address && isText job.progress && mayBeText job.error
    && mayBeText job.docs

def moment? (record : Json) (name : String) : Except Fault (Option Time.Moment) := do
  let value ← record.getOr name .null
  if value.isTruthy then return some (← Time.Moment.ofJson value) else return none

/-- A job that was kept; only completed ones are taken up again. -/
def ofRecord? (record : Json) : Except Fault (Option Job) := do
  match ← record.getOr "status" .null with
  | .text "completed" => return some {
      id := ← record.need "job_id"
      address := ← record.need "repo_url"
      state := .completed
      created := ← Time.Moment.ofJson (← record.need "created_at")
      started := ← moment? record "started_at"
      finished := ← moment? record "completed_at"
      error := ← record.getOr "error_message" .null
      progress := ← record.getOr "progress" (.text "")
      docs := ← record.getOr "docs_path" .null }
  | _ => return none

end Job

namespace Jobs

def toJson (jobs : Jobs) : Json := .object (jobs.entries.map fun (id, job) => (id, .object job.record))

/-- Reads records up to the first that is not well formed; says whether all were. -/
def readRecords (jobs : Jobs) : List (String × Json) → Jobs × Bool
  | [] => (jobs, true)
  | (id, record) :: rest =>
    match Job.ofRecord? record with
    | .ok (some job) => readRecords (jobs.insert id job) rest
    | .ok none => readRecords jobs rest
    | .error _ => (jobs, false)

def ofJson : Json → Jobs × Bool
  | .object members => readRecords .empty members
  | _ => (.empty, false)

def newestFirst (jobs : Jobs) : Except Fault (List Job) :=
  let values := jobs.values
  if values.any (·.created.ahead.isSome) && values.any (·.created.ahead.isNone) then
    .error .wrongKind
  else .ok (values.mergeSort fun job other => other.created.position ≤ job.created.position)

def dropOld (jobs : Jobs) (limit : Time.Moment) : Except Fault Jobs := do
  let old ← jobs.entries.filterMapM fun (id, job) => do
    let isOld ← job.created.isBefore limit
    return if isOld && (job.state == .completed || job.state == .failed) then some id else none
  return jobs.filter fun id _ => !old.contains id

end Jobs

end CodeAtlas.Server
