import CodeAtlas.Proofs.Server.Opening
import CodeAtlas.Proofs.Server.Submission
import Mathlib.Data.List.Nodup
import Mathlib.Logic.Relation

/-!
Runs of the service together with its worker. Between the requests the worker takes a name from the
queue, starts the job and ends it; requests and steps of the worker may come in any order. The queue
and the jobs are two structures that hold on to each other by names only. The main statement is that
they agree all the time: the queue has each waiting job once, except the one that the worker has just
taken.
-/

namespace CodeAtlas.Server

open OrderedMap List

variable {jobs : Jobs} {later workspace : Workspace} {id : String} {service after : Service}
  {now : Time.Moment} {situation : Situation}

/-! ## Steps -/

/-- What the worker is at: nothing, a name that it took from the queue, or a job that it started. -/
inductive Worker where
  | idle
  | holding (id : String)
  | working (id : String)

/-- The service and its worker between two steps. -/
structure Situation where
  service : Service
  worker : Worker

/-- A step at a time: a request that is answered, on the disk as it is then, or one step of the
worker. There is no limit to the queue here; a limit only keeps submissions from being answered. -/
inductive StepAt (now : Time.Moment) : Situation → Situation → Prop
  | submit {service after : Service} {worker : Worker} {address : Option String} {commit : String}
      {reply : Except Fault Reply} {workspace later : Workspace}
      (answered : (service.post now address commit).start workspace = (.ok (after, reply), later)) :
      StepAt now ⟨service, worker⟩ ⟨after, worker⟩
  | serve {service after : Service} {worker : Worker} {render : Renderer} {id name : String}
      {reply : Except Fault Reply} {workspace later : Workspace}
      (answered : (service.serve now render id name).start workspace = (.ok (after, reply), later)) :
      StepAt now ⟨service, worker⟩ ⟨after, worker⟩
  | take {service : Service} {id : String} {rest : List String} (next : service.queue = id :: rest) :
      StepAt now ⟨service, .idle⟩ ⟨{ service with queue := rest }, .holding id⟩
  | drop {service : Service} {id : String} (unknown : service.jobs.contains id = false) :
      StepAt now ⟨service, .holding id⟩ ⟨service, .idle⟩
  | begin {service : Service} {id : String} (known : service.jobs.contains id = true) :
      StepAt now ⟨service, .holding id⟩ ⟨service.startJob now id, .working id⟩
  | finish {service : Service} {id : String} :
      StepAt now ⟨service, .working id⟩ ⟨service.failJob now id, .idle⟩

/-- A step at some time. -/
def Step (situation next : Situation) : Prop := ∃ now, StepAt now situation next

theorem StepAt.step {next : Situation} (stepAt : StepAt now situation next) : Step situation next :=
  ⟨now, stepAt⟩

abbrev Run := Relation.ReflTransGen Step

theorem StepAt.of_submit (service : Service) (worker : Worker) (now : Time.Moment)
    (workspace : Workspace) (address : Option String) (commit : String) :
    StepAt now ⟨service, worker⟩
      ⟨(service.submit now workspace.disk.exists? address commit).1.saved, worker⟩ := by
  rcases service.exists_start_post now workspace address commit with ⟨_, answered⟩
  exact .submit answered

/-! The worker's own loop is made of these steps. -/

/-- The service after the worker has done with a name. -/
def Service.workedOn (service : Service) (now : Time.Moment) (id : String) : Service :=
  if service.jobs.contains id then (service.startJob now id).failJob now id else service

theorem Service.exists_start_process (service : Service) (now : Time.Moment) (id : String)
    (workspace : Workspace) :
    ∃ later, (service.process now id).start workspace = (.ok (service.workedOn now id), later) := by
  rw [process, workedOn]
  cases service.jobs.contains id with
  | true => exact ⟨_, rfl⟩
  | false => exact ⟨_, rfl⟩

theorem run_workedOn (service : Service) (now : Time.Moment) (id : String) :
    Run ⟨service, .holding id⟩ ⟨service.workedOn now id, .idle⟩ := by
  rw [Service.workedOn]
  cases known : service.jobs.contains id with
  | true => exact (Relation.ReflTransGen.single ⟨now, .begin known⟩).tail ⟨now, .finish⟩
  | false => exact .single ⟨now, .drop known⟩

theorem Service.workedOn_queue (service : Service) (queue : List String) (now : Time.Moment)
    (id : String) :
    { service with queue }.workedOn now id = { service.workedOn now id with queue } := by
  simp only [workedOn]
  split <;> rfl

theorem exists_start_processEach (service : Service) (now : Time.Moment) (ids : List String)
    (workspace : Workspace) :
    ∃ worked later,
      (ids.foldlM (fun service id => Service.process service now id) service).start workspace =
        (.ok worked, later) ∧
      Run ⟨{ service with queue := ids }, .idle⟩ ⟨{ worked with queue := [] }, .idle⟩ := by
  induction ids generalizing service workspace with
  | nil => exact ⟨service, workspace, rfl, .refl⟩
  | cons id rest induction =>
    rcases service.exists_start_process now id workspace with ⟨between, processed⟩
    rcases induction (service.workedOn now id) between with ⟨worked, later, folded, run⟩
    refine ⟨worked, later, ?_, ?_⟩
    · rw [foldlM_cons, Work.start_bind, processed]
      exact folded
    · have taken : Step ⟨{ service with queue := id :: rest }, .idle⟩
          ⟨{ service with queue := rest }, .holding id⟩ := ⟨now, .take rfl⟩
      have ended := run_workedOn { service with queue := rest } now id
      rw [Service.workedOn_queue] at ended
      exact (ended.head taken).trans run

theorem exists_start_processAll (service : Service) (now : Time.Moment) (workspace : Workspace) :
    ∃ worked later, (service.processAll now).start workspace = (.ok worked, later) ∧
      worked.queue = [] ∧ Run ⟨service, .idle⟩ ⟨worked, .idle⟩ := by
  rcases exists_start_processEach service now service.queue workspace with
    ⟨worked, later, folded, run⟩
  refine ⟨{ worked with queue := [] }, later, ?_, rfl, run⟩
  rw [Service.processAll, Work.start_bind, folded]
  rfl

/-! ## The invariant -/

/-- The name that the worker took from the queue and has not started. -/
def Worker.held : Worker → List String
  | .holding id => [id]
  | _ => []

/-- The names that are still to be started, the next one first. -/
def Situation.pending (situation : Situation) : List String :=
  situation.worker.held ++ situation.service.queue

def Jobs.Waits (jobs : Jobs) (id : String) : Prop :=
  ∃ job, jobs.get? id = some job ∧ job.state = .queued

/-- The queue and the jobs agree. -/
structure Orderly (situation : Situation) : Prop where
  once : situation.pending.Nodup
  agrees : ∀ id, id ∈ situation.pending ↔ situation.service.jobs.Waits id
  worked : ∀ id, situation.worker = .working id →
    ∃ job, situation.service.jobs.get? id = some job ∧ job.state = .processing

theorem Carried.waits_iff {later : Jobs} (carried : Carried jobs later) (id : String) :
    later.Waits id ↔ jobs.Waits id := by
  constructor
  · rintro ⟨job, found, queued⟩
    rcases carried.origin id job found with completed | before
    · rw [queued] at completed
      cases completed
    · exact ⟨job, before, queued⟩
  · rintro ⟨job, found, queued⟩
    exact ⟨job, carried.stays id job found (Job.isOpen_iff.mpr (.inl queued)), queued⟩

theorem Jobs.waits_insert_iff {job : Job} (queued : job.state = .queued) (other : String) :
    Waits (jobs.insert id job) other ↔ other = id ∨ jobs.Waits other := by
  simp only [Waits, get?_insert]
  by_cases equal : other = id
  · simp [equal, queued]
  · simp [equal]

theorem Jobs.waits_modify_iff {change : Job → Job} (ended : ∀ job, (change job).state ≠ .queued)
    (other : String) :
    Waits (jobs.modify id change) other ↔ other ≠ id ∧ jobs.Waits other := by
  simp only [Waits, get?_modify]
  by_cases equal : other = id
  · simp only [equal, if_true, ne_eq, not_true, false_and, iff_false]
    rintro ⟨job, found, queued⟩
    rcases Option.map_eq_some_iff.mp found with ⟨old, _, rfl⟩
    exact ended old queued
  · simp [equal]

theorem Jobs.mem_iff_waits_modify {change : Job → Job} {queue : List String}
    (ended : ∀ job, (change job).state ≠ .queued) (absent : id ∉ queue)
    (agrees : ∀ other, other ≠ id → (other ∈ queue ↔ jobs.Waits other)) (other : String) :
    other ∈ queue ↔ Waits (jobs.modify id change) other := by
  rw [waits_modify_iff ended]
  by_cases same : other = id
  · simp [same, absent]
  · simp [same, agrees other same]

/-! ## What one step keeps -/

variable {reply : Except Fault Reply}

theorem eq_saved_of_submit {address : Option String} {commit : String}
    (answered : (service.post now address commit).start workspace = (.ok (after, reply), later)) :
    after = (service.submit now workspace.disk.exists? address commit).1.saved := by
  rcases service.exists_start_post now workspace address commit with ⟨_, direct⟩
  cases direct.symm.trans answered
  rfl

theorem eq_saved_of_serve {render : Renderer} {name : String}
    (answered : (service.serve now render id name).start workspace = (.ok (after, reply), later)) :
    after = (service.findDocs now workspace.disk.exists? id).1.saved := by
  rcases service.exists_start_serve_saved now render id workspace with ⟨_, direct⟩
  cases (direct name).symm.trans answered
  rfl

theorem effect_of_submit {address : Option String} {commit : String}
    (answered : (service.post now address commit).start workspace = (.ok (after, reply), later)) :
    service.Effect after := by
  rw [eq_saved_of_submit answered]
  exact (service.effect_submit now _ address commit).saved

theorem effect_of_serve {render : Renderer} {name : String}
    (answered : (service.serve now render id name).start workspace = (.ok (after, reply), later)) :
    service.Effect after := by
  rw [eq_saved_of_serve answered]
  exact (service.effect_findDocs now _ id).saved

namespace Orderly

theorem effect {worker : Worker} (orderly : Orderly ⟨service, worker⟩)
    (effect : service.Effect after) : Orderly ⟨after, worker⟩ := by
  have worked : ∀ id, worker = .working id →
      ∃ job, after.jobs.get? id = some job ∧ job.state = .processing := by
    intro id working
    rcases orderly.worked id working with ⟨job, found, processing⟩
    exact ⟨job, effect.stays found (Job.isOpen_iff.mpr (.inr processing)), processing⟩
  cases effect with
  | carried jobs queue =>
    have pending : Situation.pending ⟨after, worker⟩ = Situation.pending ⟨service, worker⟩ := by
      simp only [Situation.pending, queue]
    refine ⟨?_, ?_, worked⟩
    · rw [pending]
      exact orderly.once
    · intro id
      rw [pending, orderly.agrees id]
      exact (jobs.waits_iff id).symm
  | @admitted middle address label now commit submittable jobs free entered queue =>
    generalize jobName label.fullName = name at free entered queue
    have pending : Situation.pending ⟨after, worker⟩ =
        Situation.pending ⟨service, worker⟩ ++ [name] := by
      simp only [Situation.pending, queue, append_assoc]
    -- A name without an open job is not pending.
    have new : name ∉ Situation.pending ⟨service, worker⟩ := by
      intro member
      rcases (jobs.waits_iff name).mpr ((orderly.agrees name).mp member) with ⟨job, found, queued⟩
      have closed := free job found
      rw [Job.isOpen_iff.mpr (.inl queued)] at closed
      cases closed
    refine ⟨?_, ?_, worked⟩
    · rw [pending]
      simpa using (nodup_concat _ name).mpr ⟨new, orderly.once⟩
    · intro id
      rw [pending, mem_append, mem_singleton, orderly.agrees id, ← jobs.waits_iff id,
        entered, Jobs.waits_insert_iff rfl, or_comm]

theorem step {next : Situation} (orderly : Orderly situation) (step : Step situation next) :
    Orderly next := by
  rcases step with ⟨now, step⟩
  cases step with
  | submit answered => exact orderly.effect (effect_of_submit answered)
  | serve answered => exact orderly.effect (effect_of_serve answered)
  | @take service id rest first =>
    have pending : Situation.pending ⟨{ service with queue := rest }, .holding id⟩ =
        Situation.pending ⟨service, .idle⟩ := first.symm
    constructor
    · rw [pending]
      exact orderly.once
    · rw [pending]
      exact orderly.agrees
    · intro other working
      cases working
  | @drop service id unknown =>
    rcases (orderly.agrees id).mp mem_cons_self with ⟨job, found, _⟩
    have known := (service.jobs.contains_iff id).mpr (mem_keys_of_get? found)
    rw [unknown] at known
    cases known
  | @«begin» service id known =>
    have parts := nodup_cons.mp orderly.once
    constructor
    · exact parts.2
    · refine Jobs.mem_iff_waits_modify (by simp [Job.start]) parts.1 fun other different => ?_
      have agrees : other ∈ id :: service.queue ↔ service.jobs.Waits other := orderly.agrees other
      rwa [mem_cons, or_iff_right different] at agrees
    · intro other working
      cases working
      rcases (orderly.agrees id).mp mem_cons_self with ⟨job, found, _⟩
      exact ⟨job.start now, by simp [Service.startJob, get?_modify, found], rfl⟩
  | @finish service id =>
    constructor
    · exact orderly.once
    · refine Jobs.mem_iff_waits_modify (by simp [Job.fail]) ?_ fun other _ => orderly.agrees other
      -- The job that is worked on is in process, so it is none of those that wait.
      intro member
      rcases (orderly.agrees id).mp member with ⟨job, found, queued⟩
      rcases orderly.worked id rfl with ⟨same, again, processing⟩
      cases found.symm.trans again
      rw [queued] at processing
      cases processing
    · intro other working
      cases working

theorem run {final : Situation} (orderly : Orderly situation) (run : Run situation final) :
    Orderly final := by
  induction run with
  | refl => exact orderly
  | tail _ step induction => exact induction.step step

theorem opened {folder : String}
    (constructed : (Service.openFolder folder).start workspace = (.ok service, later)) :
    Orderly ⟨service, .idle⟩ := by
  rcases Service.openFolder_eq_ok constructed with ⟨queue, completed⟩
  have pending : Situation.pending ⟨service, .idle⟩ = [] := queue
  constructor
  · rw [pending]
    exact nodup_nil
  · intro id
    rw [pending]
    constructor
    · intro member
      cases member
    · rintro ⟨job, found, queued⟩
      rw [completed id job found] at queued
      cases queued
  · intro id working
    cases working

end Orderly

/-! ## Waiting jobs -/

theorem mem_held_iff {worker : Worker} : id ∈ worker.held ↔ worker = .holding id := by
  cases worker with
  | holding other => simp [Worker.held, eq_comm]
  | _ => simp [Worker.held]

theorem Orderly.nodup_queue (orderly : Orderly situation) :
    situation.service.queue.Nodup :=
  (nodup_append.mp orderly.once).2.1

theorem Orderly.held (orderly : Orderly situation) (id : String)
    (holding : situation.worker = .holding id) :
    id ∉ situation.service.queue ∧ situation.service.jobs.Waits id := by
  have held := mem_held_iff.mpr holding
  constructor
  · intro member
    exact (nodup_append.mp orderly.once).2.2 id held id member rfl
  · exact (orderly.agrees id).mp (mem_append_left _ held)

theorem Orderly.keeps_waiting {next : Situation} (orderly : Orderly situation)
    (step : Step situation next) {job : Job} (found : situation.service.jobs.get? id = some job)
    (queued : job.state = .queued) :
    next.service.jobs.get? id = some job ∨
      situation.worker = .holding id ∧ next.worker = .working id ∧
        ∃ now, next.service.jobs.get? id = some (job.start now) := by
  have isOpen := Job.isOpen_iff.mpr (.inl queued)
  rcases step with ⟨now, step⟩
  cases step with
  | submit answered => exact .inl ((effect_of_submit answered).stays found isOpen)
  | serve answered => exact .inl ((effect_of_serve answered).stays found isOpen)
  | take first => exact .inl found
  | drop unknown => exact .inl found
  | @«begin» service held known =>
    by_cases same : id = held
    · subst same
      exact .inr ⟨rfl, rfl, now, by simp [Service.startJob, get?_modify, found]⟩
    · exact .inl (by simp [Service.startJob, get?_modify, found, same])
  | @finish service worked =>
    have different : id ≠ worked := by
      rintro rfl
      rcases orderly.worked id rfl with ⟨other, again, processing⟩
      cases found.symm.trans again
      rw [queued] at processing
      cases processing
    exact .inl (by simp [Service.failJob, get?_modify, found, different])

theorem waiting_jobs_queued_once {folder : String} {workspace later : Workspace} {opened : Service}
    {final : Situation}
    (constructed : (Service.openFolder folder).start workspace = (.ok opened, later))
    (run : Run ⟨opened, .idle⟩ final) :
    final.service.queue.Nodup ∧
    (∀ id ∈ final.service.queue,
      ∃ job, final.service.jobs.get? id = some job ∧ job.state = .queued) ∧
    (∀ id job, final.service.jobs.get? id = some job → job.state = .queued →
      id ∈ final.service.queue ∨ final.worker = .holding id) ∧
    (∀ id, final.worker = .holding id → id ∉ final.service.queue ∧
      ∃ job, final.service.jobs.get? id = some job ∧ job.state = .queued) ∧
    (∀ next, Step final next → ∀ id job, final.service.jobs.get? id = some job →
      job.state = .queued →
        next.service.jobs.get? id = some job ∨
          final.worker = .holding id ∧ next.worker = .working id ∧
            ∃ now, next.service.jobs.get? id = some (job.start now)) ∧
    (final.worker = .idle → ∀ now workspace, ∃ worked later,
      (final.service.processAll now).start workspace = (.ok worked, later) ∧
        Run final ⟨worked, .idle⟩ ∧
        ∀ id job, worked.jobs.get? id = some job → job.state ≠ .queued) := by
  have orderly := (Orderly.opened constructed).run run
  refine ⟨orderly.nodup_queue, ?_, ?_, orderly.held, ?_, ?_⟩
  · intro id member
    exact (orderly.agrees id).mp (List.mem_append_right _ member)
  · intro id job found queued
    rcases List.mem_append.mp ((orderly.agrees id).mpr ⟨job, found, queued⟩) with held | member
    · exact .inr (mem_held_iff.mp held)
    · exact .inl member
  · intro next step id job found queued
    exact orderly.keeps_waiting step found queued
  · intro idle now workspace
    rcases final with ⟨service, worker⟩
    subst idle
    rcases exists_start_processAll service now workspace with ⟨worked, later, processed, queue, all⟩
    refine ⟨worked, later, processed, all, ?_⟩
    intro id job found queued
    have member := ((orderly.run all).agrees id).mpr ⟨job, found, queued⟩
    rw [Situation.pending, queue] at member
    cases member

/-- The service after the submission of two repositories. -/
def twoSubmitted : Service :=
  let first := Service.fresh.submit ⟨63000000000000000, none⟩ Service.bare.disk.exists?
    (some "https://github.com/owner/first") ""
  let second := first.1.saved.submit ⟨63000000000000001, none⟩ Service.bare.disk.exists?
    (some "https://github.com/owner/second") ""
  second.1.saved

theorem run_twoSubmitted : Run ⟨Service.fresh, .idle⟩ ⟨twoSubmitted, .idle⟩ :=
  (Relation.ReflTransGen.single (StepAt.of_submit _ _ _ Service.bare _ _).step).tail
    (StepAt.of_submit _ _ _ Service.bare _ _).step

theorem queue_twoSubmitted : twoSubmitted.queue = ["owner--first", "owner--second"] := by
  decide +kernel

/-- While the worker has taken the first of two jobs, the other one is in the queue. -/
theorem second_queued_first_taken :
    (Service.openFolder "/cache").start Service.bare = (.ok Service.fresh, Service.bare) ∧
    Run ⟨Service.fresh, .idle⟩
      ⟨{ twoSubmitted with queue := ["owner--second"] }, .holding "owner--first"⟩ ∧
    (∃ job, twoSubmitted.jobs.get? "owner--second" = some job ∧ job.state = .queued) ∧
    (∃ job, twoSubmitted.jobs.get? "owner--first" = some job ∧ job.state = .queued) ∧
    ∀ id job, twoSubmitted.jobs.get? id = some job → job.state = .queued →
      id ∈ ["owner--second"] ∨ Worker.holding "owner--first" = .holding id := by
  have submitted := run_twoSubmitted
  have queue := queue_twoSubmitted
  generalize twoSubmitted = service at submitted queue ⊢
  have taken := submitted.tail ⟨⟨63000000000000002, none⟩, .take queue⟩
  have orderly := waiting_jobs_queued_once Service.start_openFolder_bare taken
  refine ⟨Service.start_openFolder_bare, taken, ?_, ?_, orderly.2.2.1⟩
  · exact orderly.2.1 "owner--second" (List.mem_singleton.mpr rfl)
  · exact (orderly.2.2.2.1 "owner--first" rfl).2

end CodeAtlas.Server
