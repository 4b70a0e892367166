import CodeAtlas.Proofs.Json.RoundTrip
import CodeAtlas.Proofs.Server.Opening
import CodeAtlas.Proofs.Time.Reading

/-!
The file of the jobs. All jobs are saved, and whoever opens the file takes up the completed ones. The
record that is kept of a job says nothing of its model and of its commit, and a distance from the
common time below a second is lost with its written form. The main statement: what is found again is
the same as before exactly if no completed job had one of these.
-/

namespace CodeAtlas

variable {job : Job} {jobs : Jobs} {service : Service} {workspace : Workspace}

/-! ## Moments in a record -/

namespace Time.Moment

/-- How far the clock is ahead is not known, or it is nothing or at least a second. -/
def Coarse (moment : Moment) : Prop :=
  ∀ ahead, moment.ahead = some ahead → ahead = 0 ∨ second ≤ ahead.natAbs

theorem reread_eq_self_iff {moment : Moment} : moment.reread = moment ↔ moment.Coarse := by
  rcases moment with ⟨ticks, _ | ahead⟩
  · simp [reread, Coarse]
  · simp only [reread, Option.map_some, Coarse, rereadAhead, mk.injEq, true_and, Option.some.injEq,
      forall_eq']
    split
    · omega
    · omega

theorem isEmpty_text (moment : Moment) : moment.text.isEmpty = false := by
  rw [← Bool.not_eq_true, String.isEmpty_iff]
  intro empty
  have mark : 'T' ∈ moment.text.toList := by
    rw [toList_text]
    exact List.mem_append_right _ List.mem_cons_self
  rw [empty] at mark
  cases mark

end Time.Moment

namespace Server

/-! ## Jobs as values -/

namespace Job

/-- A job that can be written and read again. -/
structure Regular (job : Job) : Prop where
  id : job.id.Regular
  address : job.address.Regular
  error : job.error.Regular
  progress : job.progress.Regular
  docs : job.docs.Regular
  created : job.created.Valid
  started : ∀ moment, job.started = some moment → moment.Valid
  finished : ∀ moment, job.finished = some moment → moment.Valid

/-- What is found again of a job. -/
def reread (job : Job) : Job :=
  { job with
    created := job.created.reread, started := job.started.map (·.reread)
    finished := job.finished.map (·.reread), model := none, commit := none }

/-- A job of which all is found again. -/
structure Keepable (job : Job) : Prop where
  model : job.model = none
  commit : job.commit = none
  created : job.created.Coarse
  started : ∀ moment, job.started = some moment → moment.Coarse
  finished : ∀ moment, job.finished = some moment → moment.Coarse

theorem map_reread_eq_self_iff {moment : Option Time.Moment} :
    moment.map (·.reread) = moment ↔ ∀ value, moment = some value → value.Coarse := by
  cases moment with
  | none => simp
  | some value => simp [Time.Moment.reread_eq_self_iff]

theorem reread_eq_self_iff : job.reread = job ↔ job.Keepable := by
  rcases job with
    ⟨id, address, state, created, started, finished, error, progress, docs, model, commit⟩
  simp only [reread, mk.injEq, true_and, Time.Moment.reread_eq_self_iff, map_reread_eq_self_iff]
  constructor
  · rintro ⟨created, started, finished, model, commit⟩
    exact ⟨model.symm, commit.symm, created, started, finished⟩
  · rintro ⟨model, commit, created, started, finished⟩
    exact ⟨created, started, finished, model.symm, commit.symm⟩

theorem regular_momentJson (moment : Option Time.Moment) : (momentJson moment).Regular := by
  cases moment with
  | none => exact .null
  | some moment => exact .text _

theorem Regular.json (regular : job.Regular) : (Json.object job.record).Regular := by
  refine .object ?_ ?_
  · have names : ["job_id", "repo_url", "status", "created_at", "started_at", "completed_at",
        "error_message", "progress", "docs_path"].Nodup := by
      decide
    exact names
  · intro member present
    simp only [record, List.mem_cons, List.not_mem_nil, or_false] at present
    rcases present with rfl | rfl | rfl | rfl | rfl | rfl | rfl | rfl | rfl
    · exact regular.id
    · exact regular.address
    · exact .text _
    · exact .text _
    · exact regular_momentJson _
    · exact regular_momentJson _
    · exact regular.error
    · exact regular.progress
    · exact regular.docs

theorem moment?_of_getOr {record : Json} {name : String} {moment : Option Time.Moment}
    (found : record.getOr name .null = .ok (momentJson moment))
    (valid : ∀ value, moment = some value → value.Valid) :
    moment? record name = .ok (moment.map (·.reread)) := by
  refine bind_eq_ok_iff.mpr ⟨_, found, ?_⟩
  cases moment with
  | none => rfl
  | some value =>
    have filled : (momentJson (some value)).isTruthy = true :=
      (congrArg not value.isEmpty_text : (!value.text.isEmpty) = !false)
    rw [if_pos filled]
    have read := Time.ofJson_eq_ok (Time.ofText?_of_valid (valid value rfl))
    exact bind_eq_ok_iff.mpr ⟨value.reread, read, rfl⟩

theorem ofRecord?_record (regular : job.Regular) :
    ofRecord? (.object job.record) =
      .ok (if job.state = .completed then some job.reread else none) := by
  have created := Time.ofJson_eq_ok (Time.ofText?_of_valid regular.created)
  have started := @moment?_of_getOr (.object job.record) "started_at" job.started rfl regular.started
  have finished :=
    @moment?_of_getOr (.object job.record) "completed_at" job.finished rfl regular.finished
  refine bind_eq_ok_iff.mpr ⟨.text job.state.name, rfl, ?_⟩
  cases state : job.state with
  | completed =>
    refine bind_eq_ok_iff.mpr ⟨job.id, rfl, bind_eq_ok_iff.mpr ⟨job.address, rfl, ?_⟩⟩
    refine bind_eq_ok_iff.mpr ⟨.text job.created.text, rfl, bind_eq_ok_iff.mpr ⟨_, created, ?_⟩⟩
    refine bind_eq_ok_iff.mpr ⟨_, started, bind_eq_ok_iff.mpr ⟨_, finished, ?_⟩⟩
    refine bind_eq_ok_iff.mpr ⟨job.error, rfl, bind_eq_ok_iff.mpr ⟨job.progress, rfl, ?_⟩⟩
    refine bind_eq_ok_iff.mpr ⟨job.docs, rfl, ?_⟩
    rw [if_pos rfl, reread, state]
    rfl
  | _ => rfl

end Job

/-! ## The table as a value -/

namespace Jobs

def Regular (jobs : Jobs) : Prop := ∀ id job, jobs.get? id = some job → job.Regular

def reread (jobs : Jobs) : Jobs :=
  OrderedMap.mapValues (OrderedMap.filter jobs fun _ job => job.state == .completed) fun _ =>
    Job.reread

/-- A table has the completed jobs of another one unchanged, and no others. -/
def Restores (reopened jobs : Jobs) : Prop :=
  ∀ id job, reopened.get? id = some job ↔ jobs.get? id = some job ∧ job.state = .completed

theorem get?_reread (jobs : Jobs) (id : String) :
    jobs.reread.get? id =
      ((jobs.get? id).filter fun job => job.state == .completed).map Job.reread := by
  rw [reread, OrderedMap.get?_mapValues, OrderedMap.get?_filter]

theorem reread_restores_iff :
    jobs.reread.Restores jobs ↔
      ∀ id job, jobs.get? id = some job → job.state = .completed → job.Keepable := by
  constructor
  · intro restores id job found completed
    have kept := (restores id job).mpr ⟨found, completed⟩
    rw [get?_reread, found, Option.filter_some, completed] at kept
    exact Job.reread_eq_self_iff.mp (Option.some.inj kept)
  · intro keepable id job
    rw [get?_reread]
    constructor
    · intro kept
      rcases Option.map_eq_some_iff.mp kept with ⟨old, selected, same⟩
      rcases Option.filter_eq_some_iff.mp selected with ⟨found, completed⟩
      have completed : old.state = .completed := by simpa using completed
      rw [Job.reread_eq_self_iff.mpr (keepable id old found completed)] at same
      subst same
      exact ⟨found, completed⟩
    · rintro ⟨found, completed⟩
      rw [found, Option.filter_some, completed]
      exact congrArg some (Job.reread_eq_self_iff.mpr (keepable id job found completed))

theorem regular_toJson (regular : jobs.Regular) : jobs.toJson.Regular := by
  refine .object ?_ ?_
  · simpa [List.map_map, Function.comp_def] using jobs.distinct
  · intro member present
    rcases List.mem_map.mp present with ⟨⟨id, job⟩, entered, rfl⟩
    exact (regular id job ((jobs.get?_eq_some_iff id job).mpr entered)).json

theorem readRecords_written {entries : List (String × Job)}
    (regular : ∀ entry ∈ entries, entry.2.Regular)
    (distinct : ((jobs.entries ++ entries).map Prod.fst).Nodup) :
    (jobs.readRecords (entries.map fun (id, job) => (id, .object job.record))).1.entries =
        jobs.entries ++ (entries.filter fun entry => entry.2.state == .completed).map
          (fun entry => (entry.1, entry.2.reread)) ∧
      (jobs.readRecords (entries.map fun (id, job) => (id, .object job.record))).2 = true := by
  induction entries generalizing jobs with
  | nil => simp [readRecords]
  | cons entry rest induction =>
    rcases entry with ⟨id, job⟩
    have read := Job.ofRecord?_record (regular _ List.mem_cons_self)
    have others := fun entry member => regular entry (List.mem_cons_of_mem (id, job) member)
    by_cases completed : job.state = .completed
    · -- A name that is new is entered at the end, so the order is kept.
      have absent : id ∉ jobs.entries.map Prod.fst := by
        intro member
        rw [List.map_append] at distinct
        exact (List.nodup_append.mp distinct).2.2 id member id List.mem_cons_self rfl
      have inserted : (jobs.insert id job.reread).entries = jobs.entries ++ [(id, job.reread)] :=
        OrderedMap.insertEntry_of_not_mem absent job.reread
      have further := @induction (jobs.insert id job.reread) others (by
        rw [inserted]
        simpa using distinct)
      rw [if_pos completed] at read
      simp only [List.map_cons, readRecords, read, further, inserted]
      simp [completed]
    · have further := @induction jobs others (by
        refine distinct.sublist (.map Prod.fst ?_)
        exact .append_left (List.sublist_cons_self _ _) _)
      rw [if_neg completed] at read
      simp only [List.map_cons, readRecords, read, further]
      simp [completed]

theorem ofJson_toJson (regular : jobs.Regular) :
    ofJson jobs.toJson = (jobs.reread, true) := by
  have read := @readRecords_written .empty jobs.entries (fun entry member =>
    regular entry.1 entry.2 ((jobs.get?_eq_some_iff entry.1 entry.2).mpr member)) jobs.distinct
  exact Prod.ext (OrderedMap.eq_of_entries read.1) read.2

def text (jobs : Jobs) : String := jobs.toJson.render Work.keptLayout

end Jobs

/-! ## Saving and loading -/

namespace Service

theorem start_saveJobs {made written : Disk}
    (created : workspace.disk.makeDirectories (Path.parent service.file) = .ok made)
    (success : made.write service.file service.jobs.text = .ok written) :
    service.saveJobs.start workspace = (.ok (), { workspace with disk := written }) := by
  rw [Jobs.text] at success
  simp only [saveJobs, Work.start_tryCatch, Work.start_bind, Work.start_makeDirectories, created,
    Work.saveJson, Work.writeJson, Work.start_writeText, success]

theorem start_loadJobs_of_file (regular : jobs.Regular)
    (found : workspace.disk.get? service.file = some (.file jobs.text)) :
    ∃ later, service.loadJobs.start workspace =
      (.ok { service with jobs := jobs.reread }, later) := by
  have there := Disk.exists?_of_get? found
  have read : (Work.readJson service.file).start workspace = (.ok jobs.toJson, workspace) := by
    refine Work.start_readJson_of_file found ?_
    rw [Jobs.text, Json.unifyBreaks_render (Jobs.regular_toJson regular)]
    exact Json.parse?_render (Jobs.regular_toJson regular) Work.keptLayout
  simp only [loadJobs, Work.start_bind, Work.start_disk, there, Bool.not_true, Bool.false_eq_true,
    if_false, Work.start_tryCatch, read, Work.start_pure, Jobs.ofJson_toJson regular]
  exact ⟨_, rfl⟩

theorem start_loadJobs_of_saved {made : Disk} (regular : service.jobs.Regular)
    (grounded : workspace.disk.Grounded)
    (created : workspace.disk.makeDirectories (Path.parent service.file) = .ok made)
    (writable : made.Writable service.file)
    (plain : ∀ old, made.get? service.file = some old → old.isPlain = true) :
    ∃ later, service.saveJobs.start workspace = (.ok (), later) ∧
      ∀ cache : Cache, cache.folder = service.cache.folder → ∃ final,
        (loadJobs { cache }).start later = (.ok { cache, jobs := service.jobs.reread }, final) := by
  rcases writable service.jobs.text with ⟨written, success⟩
  have groundedMade := (Disk.keeps_makeDirectories grounded created).grounded grounded
  have there := (Disk.write_eq_ok groundedMade success plain).2
  refine ⟨_, start_saveJobs created success, fun cache folder => ?_⟩
  have file : file { cache } = service.file := by
    rw [Service.file, folder, ← Service.file]
  refine start_loadJobs_of_file regular ?_
  rw [file]
  exact there

/-- The completed jobs are restored as they were exactly if each of them can be kept. -/
theorem saved_jobs_restored_iff {service : Service} {workspace : Workspace} {made : Disk}
    (regular : service.jobs.Regular) (grounded : workspace.disk.Grounded)
    (created : workspace.disk.makeDirectories (Path.parent service.file) = .ok made)
    (writable : made.Writable service.file)
    (plain : ∀ old, made.get? service.file = some old → old.isPlain = true) :
    ∃ later, service.saveJobs.start workspace = (.ok (), later) ∧
      ∀ cache : Cache, cache.folder = service.cache.folder → ∃ jobs final,
        (loadJobs { cache }).start later = (.ok { cache, jobs }, final) ∧
        jobs = service.jobs.reread ∧
        (jobs.Restores service.jobs ↔
          ∀ id job, service.jobs.get? id = some job → job.state = .completed → job.Keepable) := by
  rcases start_loadJobs_of_saved regular grounded created writable plain with ⟨later, saved, found⟩
  refine ⟨later, saved, fun cache folder => ?_⟩
  rcases found cache folder with ⟨final, loaded⟩
  exact ⟨_, final, loaded, rfl, Jobs.reread_restores_iff⟩

theorem parent_jobsFile_bare : Path.parent (Path.below "/cache" "jobs.json") = "/cache" := by
  decide +kernel

theorem savable_bare (folder : service.cache.folder = "/cache") :
    bare.disk.makeDirectories (Path.parent service.file) = .ok bare.disk ∧
    bare.disk.Writable service.file ∧
    ∀ old, bare.disk.get? service.file = some old → old.isPlain = true := by
  rw [file, folder, parent_jobsFile_bare]
  refine ⟨makeDirectories_bare, ?_, Disk.isPlain_of_missing noJobs_bare⟩
  rw [jobsFile_bare]
  exact writable_bare (by decide)

/-- A job for what the cache had. -/
def taken (commit : Option String) : Job :=
  .done "owner--first" (.text "https://github.com/owner/first") (.text "docs")
    ⟨63000000000000000, none⟩ "Retrieved from cache" commit

/-- A job of another repository that failed. -/
def broken : Job :=
  (Job.waiting "owner--second" "https://github.com/owner/second" ⟨63000000000000000, none⟩ none).fail
    ⟨63000000000000001, none⟩ "no such repository"

def settled (commit : Option String) : Service :=
  { fresh with
    jobs := (OrderedMap.empty.insert "owner--first" (taken commit)).insert "owner--second" broken }

theorem get?_settled {commit : Option String} {id : String}
    (found : (settled commit).jobs.get? id = some job) : job = broken ∨ job = taken commit := by
  rw [settled, OrderedMap.get?_insert, OrderedMap.get?_insert] at found
  split at found
  · exact .inl (Option.some.inj found).symm
  · split at found
    · exact .inr (Option.some.inj found).symm
    · cases found

theorem regular_settled (commit : Option String) : (settled commit).jobs.Regular := by
  have valid {ticks : Int} (started : 0 ≤ ticks) (inTime : ticks < Time.Moment.endOfTime) :
      Time.Moment.Valid ⟨ticks, none⟩ := ⟨started, inTime, nofun⟩
  intro id job found
  rcases get?_settled found with rfl | rfl
  · refine ⟨.text _, .text _, .text _, .text _, .null, valid (by decide) (by decide), nofun, ?_⟩
    rintro _ ⟨⟩
    exact valid (by decide) (by decide)
  · refine ⟨.text _, .text _, .null, .text _, .text _, valid (by decide) (by decide), nofun, ?_⟩
    rintro _ ⟨⟩
    exact valid (by decide) (by decide)

theorem settled_jobs_restored :
    (settled none).jobs.Regular ∧ bare.disk.Grounded ∧
    bare.disk.makeDirectories (Path.parent (settled none).file) = .ok bare.disk ∧
    bare.disk.Writable (settled none).file ∧
    (∀ old, bare.disk.get? (settled none).file = some old → old.isPlain = true) ∧
    (settled none).jobs.get? "owner--first" = some (taken none) ∧
    (settled none).jobs.get? "owner--second" = some broken ∧
    ∃ later, (settled none).saveJobs.start bare = (.ok (), later) ∧
      ∃ jobs final, fresh.loadJobs.start later = (.ok { fresh with jobs }, final) ∧
        jobs.Restores (settled none).jobs := by
  have regular := regular_settled none
  have grounded : bare.disk.Grounded := ⟨_, rfl⟩
  rcases @savable_bare (settled none) rfl with ⟨created, writable, plain⟩
  refine ⟨regular, grounded, created, writable, plain, rfl, rfl, ?_⟩
  rcases saved_jobs_restored_iff regular grounded created writable plain with ⟨later, saved, found⟩
  rcases found fresh.cache rfl with ⟨jobs, final, loaded, _, restores⟩
  refine ⟨later, saved, jobs, final, loaded, restores.mpr ?_⟩
  intro id job found completed
  rcases get?_settled found with rfl | rfl
  · cases completed
  · refine ⟨rfl, rfl, nofun, nofun, ?_⟩
    rintro _ ⟨⟩
    exact nofun

/-- The commit of a completed job is not found again. -/
theorem commit_not_restored :
    ∃ later jobs final,
      (settled (some "abc1234")).saveJobs.start bare = (.ok (), later) ∧
      fresh.loadJobs.start later = (.ok { fresh with jobs }, final) ∧
      (settled (some "abc1234")).jobs.get? "owner--first" = some (taken (some "abc1234")) ∧
      jobs.get? "owner--first" = some (taken none) ∧
      ¬ jobs.Restores (settled (some "abc1234")).jobs := by
  rcases @savable_bare (settled (some "abc1234")) rfl with ⟨created, writable, plain⟩
  rcases start_loadJobs_of_saved (regular_settled _) ⟨_, rfl⟩ created writable plain with
    ⟨later, saved, found⟩
  rcases found fresh.cache rfl with ⟨final, loaded⟩
  refine ⟨later, _, final, saved, loaded, rfl, rfl, fun restores => ?_⟩
  have keepable :=
    Jobs.reread_restores_iff.mp restores "owner--first" (taken (some "abc1234")) rfl rfl
  cases keepable.commit

end Service

end Server

end CodeAtlas
