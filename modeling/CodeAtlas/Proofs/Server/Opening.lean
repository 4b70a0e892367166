import CodeAtlas.Proofs.Disk.Writing
import CodeAtlas.Proofs.Server.Requests

/-!
A service that was just opened on a folder. No job waits, and all jobs that it knows are completed,
whether they come from its file or from the cache.
-/

namespace CodeAtlas

open Work

/-! ## Values in files -/

theorem Disk.exists?_of_get? {disk : Disk} {path : String} {value : FileTree}
    (found : disk.get? path = some value) : disk.exists? path = true := by
  rw [exists?, found]
  rfl

theorem Disk.isPlain_of_missing {disk : Disk} {path : String} (missing : disk.exists? path = false)
    (old : FileTree) (found : disk.get? path = some old) : old.isPlain = true := by
  rw [exists?_of_get? found] at missing
  cases missing

theorem Work.start_readJson_of_file {workspace : Workspace} {path text : String} {value : Json}
    (found : workspace.disk.get? path = some (.file text))
    (parsed : Json.parse? (Text.unifyBreaks text) = some value) :
    (readJson path).start workspace = (.ok value, workspace) := by
  have content : workspace.disk.read path = .ok text := by
    rw [Disk.read_eq_ok_iff, found]
    rfl
  simp only [readJson, start_bind, start_readText, content, Functor.map, Except.map, Except.mapError,
    parsed, start_pure]

namespace Server

/-! ## Jobs -/

/-- All jobs are completed. -/
def Jobs.AllCompleted (jobs : Jobs) : Prop :=
  ∀ id job, jobs.get? id = some job → job.state = .completed

namespace Jobs

theorem allCompleted_empty : AllCompleted .empty := by
  intro id job found
  cases found

theorem AllCompleted.insert {jobs : Jobs} (completed : jobs.AllCompleted) (id : String) {job : Job}
    (done : job.state = .completed) : AllCompleted (jobs.insert id job) := by
  intro other entered found
  rw [OrderedMap.get?_insert] at found
  split at found
  · cases found
    exact done
  · exact completed other entered found

theorem state_ofRecord? {record : Json} {job : Job} (read : Job.ofRecord? record = .ok (some job)) :
    job.state = .completed := by
  rcases bind_eq_ok_iff.mp read with ⟨state, _, rest⟩
  split at rest
  · iterate 9
      rcases bind_eq_ok_iff.mp rest with ⟨_, _, rest⟩
    cases rest
    rfl
  · cases rest

theorem AllCompleted.readRecords {jobs : Jobs} (completed : jobs.AllCompleted)
    (records : List (String × Json)) : AllCompleted (jobs.readRecords records).1 := by
  fun_induction Jobs.readRecords jobs records with
  | case1 => exact completed
  | case2 jobs id record rest job read induction =>
    exact induction (completed.insert id (state_ofRecord? read))
  | case3 jobs id record rest read induction => exact induction completed
  | case4 => exact completed

theorem allCompleted_ofJson (value : Json) : AllCompleted (ofJson value).1 := by
  cases value with
  | object members => exact allCompleted_empty.readRecords members
  | _ => exact allCompleted_empty

end Jobs

/-! ## Opening -/

theorem Cache.start_load_of_new {cache : Cache} {workspace : Workspace} {made : Disk}
    (created : workspace.disk.makeDirectories cache.folder = .ok made)
    (noFile : made.exists? cache.file = false) :
    cache.load.start workspace = (.ok cache, { workspace with disk := made }) := by
  simp only [load, start_bind, start_makeDirectories, created, noFile, start_disk]
  rfl

namespace Service

theorem state_jobOfEntry {entry : CacheEntry} {id : String} {job : Job}
    (made : jobOfEntry entry = .ok (id, job)) : job.state = .completed := by
  rcases bind_eq_ok_iff.mp made with ⟨address, _, rest⟩
  rcases bind_eq_ok_iff.mp rest with ⟨label, _, same⟩
  cases same
  rfl

theorem restoreJobs_eq_ok {service restored : Service} {workspace later : Workspace}
    (completed : service.jobs.AllCompleted)
    (run : service.restoreJobs.start workspace = (.ok restored, later)) :
    restored.queue = service.queue ∧ restored.jobs.AllCompleted := by
  rcases start_bind_eq_ok_iff.mp run with ⟨jobs, between, looped, rest⟩
  have completed : jobs.AllCompleted := by
    refine forIn_invariant completed ?_ looped
    intro entry member jobs step workspace later completed turned
    simp only at turned
    split at turned
    · rename_i id job made
      split at turned
      · cases turned
        exact completed.insert id (state_jobOfEntry made)
      · cases turned
        exact completed
    · cases turned
      exact completed
  simp only at rest
  split at rest
  · rcases start_bind_eq_ok_iff.mp rest with ⟨_, _, _, rest⟩
    rcases start_bind_eq_ok_iff.mp rest with ⟨_, _, _, same⟩
    cases same
    exact ⟨rfl, completed⟩
  · cases rest
    exact ⟨rfl, completed⟩

theorem loadJobs_eq_ok {service loaded : Service} {workspace later : Workspace}
    (completed : service.jobs.AllCompleted)
    (run : service.loadJobs.start workspace = (.ok loaded, later)) :
    loaded.queue = service.queue ∧ loaded.jobs.AllCompleted := by
  rw [loadJobs] at run
  simp only [start_bind, start_disk] at run
  split at run
  · exact restoreJobs_eq_ok completed run
  · rcases start_bind_eq_ok_iff.mp run with ⟨found, between, read, rest⟩
    have completed : found.1.AllCompleted := by
      rw [start_tryCatch] at read
      split at read
      · rename_i tried
        cases read
        rcases start_bind_eq_ok_iff.mp tried with ⟨value, _, _, same⟩
        rw [start_pure, Prod.mk.injEq, Except.ok.injEq] at same
        rw [← same.1]
        exact Jobs.allCompleted_ofJson value
      · cases read
        exact Jobs.allCompleted_empty
    cases rest
    exact ⟨rfl, completed⟩

theorem openFolder_eq_ok {folder : String} {opened : Service} {workspace later : Workspace}
    (run : (openFolder folder).start workspace = (.ok opened, later)) :
    opened.queue = [] ∧ opened.jobs.AllCompleted := by
  rcases start_bind_eq_ok_iff.mp run with ⟨cache, between, _, rest⟩
  exact loadJobs_eq_ok Jobs.allCompleted_empty rest

theorem start_openFolder_of_new {folder : String} {workspace : Workspace} {made : Disk}
    (created : workspace.disk.makeDirectories folder = .ok made)
    (noIndex : made.exists? (Path.below folder "cache_index.json") = false)
    (noJobs : made.exists? (Path.below folder "jobs.json") = false) :
    (openFolder folder).start workspace =
      (.ok { cache := { folder } }, { workspace with disk := made }) := by
  have usual : Cache.ofFolder folder (some usualDays) = { folder } := rfl
  have loaded := @Cache.start_load_of_new { folder } workspace made created noIndex
  simp only [openFolder, usual, start_bind, loaded, loadJobs, start_disk, file, noJobs]
  rfl

/-- A workspace with one folder, where nothing is. -/
def bare : Workspace where
  disk := { root := .directory [("cache", .directory [])], current := [] }

theorem straight_bare : Disk.Straight bare.disk.root ["cache"] :=
  .of_get? (by decide) rfl rfl

theorem exists?_bare {name : String} (isName : Path.IsName name) :
    bare.disk.exists? (Disk.pathOf ["cache", name]) = false := by
  have missing : bare.disk.root.get? ["cache", name] = none := rfl
  have straight : Disk.Straight bare.disk.root ["cache", name] :=
    straight_bare.concat isName fun target found => absurd (missing.symm.trans found) nofun
  rw [Disk.exists?, straight.get?_pathOf, missing]
  rfl

theorem writable_bare {name : String} (isName : Path.IsName name) :
    bare.disk.Writable (Disk.pathOf ["cache", name]) := by
  have named : ∀ part ∈ ["cache", name], Path.IsName part := by
    intro part member
    rcases List.mem_pair.mp member with rfl | rfl
    · decide
    · exact isName
  have resolved : bare.disk.resolve true (Disk.pathOf ["cache", name]) = .ok ["cache", name] := by
    rw [Disk.resolve_eq_ok_iff, Disk.startOf_pathOf, Disk.parts_pathOf named]
    refine ⟨Disk.not_refused_pathOf true named, ?_⟩
    refine .down (fun _ => ⟨_, rfl⟩) (by decide) nofun ?_
    exact .down (fun _ => ⟨_, rfl⟩) isName.notUp nofun .arrived
  intro text
  refine ⟨⟨.directory [("cache", .directory [(name, .file text)])], []⟩, ?_⟩
  simp only [Disk.write, Disk.writeFile, resolved, bind, Except.bind]
  rfl

/-- The service that was just opened there. -/
def fresh : Service where
  cache := { folder := "/cache" }

theorem makeDirectories_bare : bare.disk.makeDirectories "/cache" = .ok bare.disk := by
  have parts : Path.parts "/cache" = ["cache"] := by decide +kernel
  have arrived : Disk.follow bare.disk.root false Disk.maxLinks [] ["cache"] = .ok ["cache"] :=
    straight_bare.follow nofun
  have accepted : Disk.refused? true "/cache" = none := by decide +kernel
  have start : bare.disk.startOf "/cache" = [] := by decide +kernel
  simp only [Disk.makeDirectories, accepted, start, parts, List.reverse_nil,
    Disk.makeDirectories.go, arrived]
  rfl

theorem indexFile_bare :
    Path.below "/cache" "cache_index.json" = Disk.pathOf ["cache", "cache_index.json"] := by
  decide +kernel

theorem noIndex_bare : bare.disk.exists? (Path.below "/cache" "cache_index.json") = false := by
  rw [indexFile_bare]
  exact exists?_bare (by decide)

theorem jobsFile_bare : Path.below "/cache" "jobs.json" = Disk.pathOf ["cache", "jobs.json"] := by
  decide +kernel

theorem noJobs_bare : bare.disk.exists? (Path.below "/cache" "jobs.json") = false := by
  rw [jobsFile_bare]
  exact exists?_bare (by decide)

theorem start_openFolder_bare : (openFolder "/cache").start bare = (.ok fresh, bare) :=
  start_openFolder_of_new makeDirectories_bare noIndex_bare noJobs_bare

end Service

end Server

end CodeAtlas
