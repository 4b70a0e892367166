import CodeAtlas.Hosting.Address
import CodeAtlas.Json.Shown
import CodeAtlas.Markup.Escape
import CodeAtlas.Server.Cache
import CodeAtlas.Server.Job

/-!
The state of the service: the cache, the jobs and the names of the jobs that wait. A worker takes
the waiting jobs one after the other.
-/

namespace CodeAtlas.Server

structure Service where
  cache : Cache
  jobs : Jobs := .empty
  queue : List String := []
  running : Bool := false
  engine : Markup.Engine := Markup.byEnding

def jobName (fullName : String) : String := Text.replace fullName "/" "--"

def repositoryOfJob (name : String) : String := Text.replace name "--" "/"

/-- Why every job fails: the model to generate with is not known. -/
def missingModel : String := "name 'MAIN_MODEL' is not defined"

namespace Service

/-! ## Jobs -/

def file (service : Service) : String := Path.below service.cache.folder "jobs.json"

def enqueue (service : Service) (id : String) (job : Job) : Service :=
  { service with jobs := service.jobs.insert id job, queue := service.queue ++ [id] }

def startJob (service : Service) (now : Time.Moment) (id : String) : Service :=
  { service with jobs := service.jobs.modify id (·.start now) }

def failJob (service : Service) (now : Time.Moment) (id : String) : Service :=
  { service with jobs := service.jobs.modify id (·.fail now missingModel) }

def process (service : Service) (now : Time.Moment) (id : String) : Work Service := do
  if !service.jobs.contains id then return service
  Work.printLine ("Job " ++ id ++ ": Failed with error: " ++ missingModel)
  return (service.startJob now id).failJob now id

def processAll (service : Service) (now : Time.Moment) : Work Service := do
  let worked ← service.queue.foldlM (fun service id => service.process now id) service
  return { worked with queue := [] }

def startWorker (service : Service) : Work Service := do
  if service.running then return service
  Work.printLine "Background worker started"
  return { service with running := true }

/-! ## The file -/

def saveJobs (service : Service) : Work Unit := do
  try
    Work.makeDirectories (Path.parent service.file)
    Work.saveJson service.jobs.toJson service.file
  catch _ => Work.printLine "Error saving job statuses: "

/-- The job for an entry of the cache, if its address is one of a repository. -/
def jobOfEntry (entry : CacheEntry) : Except Fault (String × Job) := do
  let label ← Hosting.label (← entry.address.string)
  let id := jobName label.fullName
  return (id, .done id entry.address entry.docs entry.created "Reconstructed from cache")

def restoreJobs (service : Service) : Work Service := do
  let mut jobs := service.jobs
  for entry in service.cache.index.values do
    match jobOfEntry entry with
    | .ok (id, job) => if !jobs.contains id then jobs := jobs.insert id job
    | .error _ =>
      Work.printLine ("Failed to reconstruct job for " ++ entry.address.shown ++ ": ")
  let service := { service with jobs }
  if jobs.size > 0 then
    Work.printLine ("Reconstructed " ++ Decimal.natText jobs.size ++ " job statuses from cache")
    service.saveJobs
  return service

/-- A service with the jobs in its file; without a file they are found out from the cache. -/
def loadJobs (service : Service) : Work Service := do
  if !(← Work.disk).exists? service.file then return ← service.restoreJobs
  let (jobs, complete) ←
    try pure (Jobs.ofJson (← Work.readJson service.file))
    catch _ => pure (.empty, false)
  Work.printLine (if complete then
    "Loaded " ++ Decimal.natText jobs.size ++ " completed jobs from disk"
    else "Error loading job statuses: ")
  return { service with jobs }

def openFolder (folder : String) : Work Service := do
  let cache ← (Cache.ofFolder folder (some usualDays)).load
  Service.loadJobs { cache }

def saveCache (service : Service) : Work Service := do
  return { service with cache := ← service.cache.save }

end Service

end CodeAtlas.Server
