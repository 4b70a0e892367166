import CodeAtlas.Server.Page.Home
import CodeAtlas.Server.Reply
import CodeAtlas.Server.Service

/-!
The requests to the service that generates documentation: submitting a repository, asking for a job
and reading its documents.
-/

namespace CodeAtlas.Server.Service

/-! ## Submissions -/

def normalized (address : String) : String :=
  match Hosting.label address with
  | .ok label => "https://github.com/" ++ label.fullName
  | .error _ => Text.lower (Text.stripRightChars address ['/'])

def cooldown : Nat := 3 * Time.minute

def memory : Nat := 24000 * Time.hour

def forgetOld (service : Service) (now : Time.Moment) : Except Fault Service := do
  return { service with jobs := ← service.jobs.dropOld (← now.earlier memory) }

def blocks (now : Time.Moment) (job : Job) : Except Fault Bool := do
  let limit ← now.earlier cooldown
  match job.state with
  | .queued | .processing => return true
  | .failed => limit.isBefore job.created
  | .completed => return false

def blocking (service : Service) (now : Time.Moment) (id : String) : Except Fault (Option Job) := do
  let _ ← now.earlier cooldown
  match service.jobs.get? id with
  | none => return none
  | some job => return if ← blocks now job then some job else none

def blockedMessage (job : Job) : String :=
  (if job.state == .failed then
    "Repository recently failed processing. Please wait a few minutes before retrying"
    else "Repository is already being processed") ++ " (Job ID: " ++ job.id.shown ++ ")"

def docsExist (isThere : String → Bool) (docs : Json) : Except Fault Bool := do
  if !docs.isTruthy then return false
  return isThere (← docs.string)

/-- Takes in a repository for which no job stands in the way: what the cache has is shown, and else
a job is entered. Gives also the address to show in the form. -/
def takeIn (service : Service) (now : Time.Moment) (isThere : String → Bool)
    (id address shown : String) (commit : Option String) :
    Service × Except Fault (Page.Message × String) :=
  match service.cache.lookUp now address with
  | .error cause => (service, .error cause)
  | .ok (cache, docs) =>
    let service := { service with cache }
    match docsExist isThere docs with
    | .error cause => (service, .error cause)
    | .ok true =>
      let job := Job.done id (.text address) docs now "Retrieved from cache" commit
      ({ service with jobs := service.jobs.insert id job },
        .ok (⟨true, "Documentation found in cache! Redirecting to view..."⟩, shown))
    | .ok false =>
      (service.enqueue id (.waiting id address now commit),
        .ok (⟨true, "Repository added to processing queue! Job ID: " ++ id⟩, ""))

/-- Answers the submission of an address. Gives the message and the address to show in the form. -/
def submitAddress (service : Service) (now : Time.Moment) (isThere : String → Bool)
    (address commit : String) : Service × Except Fault (Page.Message × String) :=
  if address.isEmpty then
    (service, .ok (⟨false, "Please enter a GitHub repository URL"⟩, address))
  else if !Hosting.isRepository address then
    (service, .ok (⟨false, "Please enter a valid GitHub repository URL"⟩, address))
  else
    let plain := normalized address
    match Hosting.label plain with
    | .error cause => (service, .error cause)
    | .ok label =>
      let id := jobName label.fullName
      let commit := if commit.isEmpty then none else some commit
      match service.blocking now id with
      | .error cause => (service, .error cause)
      | .ok (some job) => (service, .ok (⟨false, blockedMessage job⟩, address))
      | .ok none => service.takeIn now isThere id plain address commit

/-- Answers a submission; the address may be missing. Old jobs are forgotten first. -/
def submit (service : Service) (now : Time.Moment) (isThere : String → Bool)
    (address : Option String) (commit : String) : Service × Except Fault Reply :=
  match service.forgetOld now with
  | .error cause => (service, .error cause)
  | .ok remembered =>
    match address with
    | none => (remembered, .error .noSuchMember)
    | some address =>
      let commit := Text.strip commit
      let (after, answer) :=
        remembered.submitAddress now isThere (Text.strip address) commit
      (after, do
        let (message, shown) ← answer
        return .page (Page.home service.engine (some message) shown commit
          (← after.jobs.newestFirst)))

/-- Answers a submission on the disk as it is, and saves what the cache has noted of it. -/
def post (service : Service) (now : Time.Moment) (address : Option String) (commit : String) :
    Work (Service × Except Fault Reply) := do
  let (after, reply) := service.submit now (← Work.disk).exists? address commit
  return (← after.saveCache, reply)

def home (service : Service) : Except Fault Reply := do
  return .page (Page.home service.engine none "" "" ((← service.jobs.newestFirst).take 100))

/-! ## Jobs and documents -/

def jobNotFound : Reply := .refused 404 "Job not found"

def report (service : Service) (id : String) : Except Fault Reply :=
  match service.jobs.get? id with
  | none => .ok jobNotFound
  | some job => if job.isSound then .ok (.record job.toJson) else .error .unfit

def view (service : Service) (isThere : String → Bool) (id : String) : Except Fault Reply := do
  match service.jobs.get? id with
  | none => return jobNotFound
  | some job =>
    if !job.hasDocs then return .refused 404 "Documentation not available"
    if !isThere (← job.docs.string) then return .refused 404 "Documentation files not found"
    return .redirect (Url.quote ("/static-docs/" ++ id ++ "/"))

abbrev Found := String × Json

/-- Finds the documentation of a job. Without the job it is looked for in the cache, and a job is
entered for what is found there. -/
def findDocs (service : Service) (now : Time.Moment) (isThere : String → Bool) (id : String) :
    Service × Except Fault (Except Reply Found) :=
  match service.jobs.get? id with
  | some job =>
    (service, do
      if !job.hasDocs then return .error (.refused 404 "Documentation not available")
      return .ok (← job.docs.string, job.address))
  | none =>
    let address := "https://github.com/" ++ repositoryOfJob id
    match service.cache.lookUp now address with
    | .error cause => (service, .error cause)
    | .ok (cache, docs) =>
      let service := { service with cache }
      match docsExist isThere docs with
      | .error cause => (service, .error cause)
      | .ok true =>
        let job := Job.done id (.text address) docs now "Loaded from cache"
        ({ service with jobs := service.jobs.insert id job },
          .ok (.ok (docs.asText, .text address)))
      | .ok false => (service, .ok (.error (.refused 404 "Documentation not found")))

/-- The value in a file; null if there is no file, or if it cannot be read. -/
def valueAt (disk : Disk) (path : String) : Json :=
  match disk.read path with
  | .ok text => (Json.parse? (Text.unifyBreaks text)).getD .null
  | .error _ => .null

def lastPart (address : Json) : Except Fault String :=
  match address with
  | .text written => .ok ((Text.split written "/").getLastD "")
  | _ => .error .noSuchMember

def documentOf (disk : Disk) (id name : String) (found : Found) (title content : String) :
    Except Fault Page.Document := do
  let repository ← lastPart found.2
  return {
    title, content, current := name, job := id, repository
    modules := valueAt disk (Path.join found.1 "module_tree.json")
    description := valueAt disk (Path.join found.1 "metadata.json") }

/-- The document of a name in the documentation that was found. -/
def answer (render : Renderer) (disk : Disk) (id name : String) (found : Found) : Reply :=
  if !disk.exists? found.1 then .refused 404 "Documentation files not found"
  else if !disk.exists? (Path.join found.1 name) then
    .refused 404 ("File " ++ name ++ " not found")
  else shown render disk (Path.join found.1 name) name (documentOf disk id name found)

/-- What a request is answered with once the documentation was looked for. -/
def answerTo (render : Renderer) (disk : Disk) (id name : String) :
    Except Fault (Except Reply Found) → Except Fault Reply
  | .error cause => .error cause
  | .ok (.error reply) => .ok reply
  | .ok (.ok found) => .ok (answer render disk id name found)

/-- The name that a request asks for; without one it is the overview. -/
def requested (name : String) : String := if name.isEmpty then "overview.md" else name

def serve (service : Service) (now : Time.Moment) (render : Renderer) (id name : String) :
    Work (Service × Except Fault Reply) := do
  let (after, found) := service.findDocs now (← Work.disk).exists? id
  let after ← after.saveCache
  if !service.jobs.contains id && after.jobs.contains id then after.saveJobs
  return (after, answerTo render (← Work.disk) id (requested name) found)

end CodeAtlas.Server.Service
