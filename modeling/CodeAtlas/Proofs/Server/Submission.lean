import CodeAtlas.Proofs.Server.Requests

/-!
What requests do to the jobs and to the queue. A request may forget finished jobs and enter completed
ones; a job that waits or is worked on stays as it is. A submission may besides let one job wait
whose name had no such job.
-/

namespace CodeAtlas.Server

variable {job : Job} {id : String} {service after : Service} {now : Time.Moment}

def Job.isOpen (job : Job) : Bool := job.state == .queued || job.state == .processing

theorem Job.isOpen_iff :
    job.isOpen = true ↔ job.state = .queued ∨ job.state = .processing := by
  simp [isOpen]

/-! ## Jobs that are carried over -/

/-- Jobs as they may be after a request: the open ones are there as before, and what was not there
before is completed. -/
structure Carried (jobs later : Jobs) : Prop where
  stays : ∀ id job, jobs.get? id = some job → job.isOpen = true → later.get? id = some job
  origin : ∀ id job, later.get? id = some job → job.state = .completed ∨ jobs.get? id = some job

namespace Carried

variable {jobs middle later : Jobs}

theorem refl (jobs : Jobs) : Carried jobs jobs :=
  ⟨fun _ _ found _ => found, fun _ _ found => .inr found⟩

theorem trans (first : Carried jobs middle) (second : Carried middle later) :
    Carried jobs later := by
  constructor
  · intro id job found isOpen
    exact second.stays id job (first.stays id job found isOpen) isOpen
  · intro id job found
    rcases second.origin id job found with completed | before
    · exact .inl completed
    · exact first.origin id job before

theorem insert (free : ∀ old, jobs.get? id = some old → old.isOpen = false)
    (completed : job.state = .completed) : Carried jobs (jobs.insert id job) := by
  constructor
  · intro other old found isOpen
    have different : other ≠ id := by
      rintro rfl
      rw [free old found] at isOpen
      cases isOpen
    rw [OrderedMap.get?_insert_of_ne _ different, found]
  · intro other entered found
    rw [OrderedMap.get?_insert] at found
    split at found
    · cases found
      exact .inl completed
    · exact .inr found

end Carried

theorem carried_dropOld {jobs later : Jobs} {limit : Time.Moment}
    (dropped : jobs.dropOld limit = .ok later) : Carried jobs later := by
  rcases bind_eq_ok_iff.mp dropped with ⟨old, selected, rest⟩
  cases rest
  have finished : ∀ id job, jobs.get? id = some job → id ∈ old → job.isOpen = false := by
    intro id job found member
    rcases (mem_filterMapM_iff selected id).mp member with ⟨⟨other, entry⟩, present, chosen⟩
    rcases bind_eq_ok_iff.mp chosen with ⟨isOld, _, choice⟩
    have finished : (entry.state == .completed || entry.state == .failed) = true ∧ other = id := by
      split at choice <;> simp_all [pure, Except.pure]
    rcases finished with ⟨finished, rfl⟩
    rw [(jobs.get?_eq_some_iff other entry).mpr present] at found
    cases found
    cases state : job.state <;> simp_all [Job.isOpen]
  constructor
  · intro id job found isOpen
    have kept : id ∉ old := by
      intro member
      rw [finished id job found member] at isOpen
      cases isOpen
    simp [OrderedMap.get?_filter, found, kept]
  · intro id job found
    rw [OrderedMap.get?_filter] at found
    exact .inr (Option.eq_some_of_filter_eq_some found)

namespace Service

/-! ## Jobs in the way -/

theorem blocking_eq_some_iff :
    service.blocking now id = .ok (some job) ↔
      service.jobs.get? id = some job ∧ blocks now job = .ok true := by
  constructor
  · intro blocked
    rcases bind_eq_ok_iff.mp blocked with ⟨limit, _, rest⟩
    split at rest
    · cases rest
    · rename_i other found
      rcases bind_eq_ok_iff.mp rest with ⟨decision, decided, choice⟩
      cases decision with
      | false => cases choice
      | true =>
        cases choice
        exact ⟨found, decided⟩
  · rintro ⟨found, decided⟩
    rcases bind_eq_ok_iff.mp decided with ⟨limit, inTime, _⟩
    refine bind_eq_ok_iff.mpr ⟨limit, inTime, ?_⟩
    rw [found]
    exact bind_eq_ok_iff.mpr ⟨true, decided, rfl⟩

theorem blocks_of_blocking (clear : service.blocking now id = .ok none)
    (found : service.jobs.get? id = some job) : blocks now job = .ok false := by
  rcases bind_eq_ok_iff.mp clear with ⟨limit, inTime, rest⟩
  rw [found] at rest
  rcases bind_eq_ok_iff.mp rest with ⟨isBlocking, decided, choice⟩
  cases isBlocking with
  | true => cases choice
  | false => exact decided

theorem isOpen_of_blocking (clear : service.blocking now id = .ok none) (job : Job)
    (found : service.jobs.get? id = some job) : job.isOpen = false := by
  rcases bind_eq_ok_iff.mp (blocks_of_blocking clear found) with ⟨limit, _, decided⟩
  cases state : job.state with
  | completed | failed =>
    rw [Job.isOpen, state]
    rfl
  | queued | processing =>
    rw [state] at decided
    cases decided

/-! ## Effects of requests -/

/-- An address that can be submitted, and the repository that it is taken for. -/
structure Submittable (address : String) (label : Hosting.Label) : Prop where
  accepted : Hosting.isRepository address = true
  named : Hosting.label (normalized address) = .ok label

/-- What a request does: the jobs are carried over, and at most one job more is made to wait, for an
address whose name had no open job. -/
inductive Effect (service after : Service) : Prop
  | carried (jobs : Carried service.jobs after.jobs) (queue : after.queue = service.queue)
  | admitted {middle : Jobs} {address : String} {label : Hosting.Label} {now : Time.Moment}
      {commit : Option String} (submittable : Submittable address label)
      (jobs : Carried service.jobs middle)
      (free : ∀ job, middle.get? (jobName label.fullName) = some job → job.isOpen = false)
      (entered : after.jobs = middle.insert (jobName label.fullName)
        (.waiting (jobName label.fullName) (normalized address) now commit))
      (queue : after.queue = service.queue ++ [jobName label.fullName])

theorem Effect.after_carried {middle : Service} (effect : Effect middle after)
    (jobs : Carried service.jobs middle.jobs) (queue : middle.queue = service.queue) :
    Effect service after := by
  cases effect with
  | carried later same => exact .carried (jobs.trans later) (same.trans queue)
  | admitted submittable later free entered same =>
    exact .admitted submittable (jobs.trans later) free entered (queue ▸ same)

theorem Effect.stays (effect : Effect service after) (found : service.jobs.get? id = some job)
    (isOpen : job.isOpen = true) :
    after.jobs.get? id = some job := by
  cases effect with
  | carried jobs queue => exact jobs.stays id job found isOpen
  | @admitted _ _ label _ _ submittable jobs free entered queue =>
    have stays := jobs.stays id job found isOpen
    have different : id ≠ jobName label.fullName := by
      rintro rfl
      rw [free job stays] at isOpen
      cases isOpen
    rw [entered, OrderedMap.get?_insert_of_ne _ different, stays]

theorem Effect.saved (effect : Effect service after) :
    Effect service after.saved := by
  cases effect with
  | carried jobs queue => exact .carried jobs queue
  | admitted submittable jobs free entered queue =>
    exact .admitted submittable jobs free entered queue

theorem effect_takeIn {address : String} {label : Hosting.Label}
    (submittable : Submittable address label)
    (clear : service.blocking now (jobName label.fullName) = .ok none) (isThere : String → Bool)
    (shown : String) (commit : Option String) :
    Effect service (service.takeIn now isThere (jobName label.fullName) (normalized address) shown
      commit).1 := by
  have free := isOpen_of_blocking clear
  rw [takeIn]
  split
  · exact .carried (.refl _) rfl
  · simp only
    split
    · exact .carried (.refl _) rfl
    · exact .carried (.insert free rfl) rfl
    · exact .admitted submittable (.refl _) free rfl rfl

theorem effect_submitAddress (service : Service) (now : Time.Moment) (isThere : String → Bool)
    (address commit : String) :
    Effect service (service.submitAddress now isThere address commit).1 := by
  rw [submitAddress]
  split
  · exact .carried (.refl _) rfl
  · split
    · exact .carried (.refl _) rfl
    · rename_i refused
      simp only
      split
      · exact .carried (.refl _) rfl
      · rename_i label named
        have submittable : Submittable address label := ⟨by simpa using refused, named⟩
        split
        · exact .carried (.refl _) rfl
        · exact .carried (.refl _) rfl
        · rename_i clear
          exact effect_takeIn submittable clear isThere address _

theorem forgetOld_eq_ok {remembered : Service}
    (forgotten : service.forgetOld now = .ok remembered) :
    Carried service.jobs remembered.jobs ∧ remembered.queue = service.queue := by
  rcases bind_eq_ok_iff.mp forgotten with ⟨limit, _, rest⟩
  rcases bind_eq_ok_iff.mp rest with ⟨jobs, dropped, same⟩
  cases same
  exact ⟨carried_dropOld dropped, rfl⟩

theorem effect_submit (service : Service) (now : Time.Moment) (isThere : String → Bool)
    (address : Option String) (commit : String) :
    Effect service (service.submit now isThere address commit).1 := by
  rw [submit]
  split
  · exact .carried (.refl _) rfl
  · rename_i remembered forgotten
    rcases forgetOld_eq_ok forgotten with ⟨carried, queue⟩
    split
    · exact .carried carried queue
    · rename_i written
      have effect := remembered.effect_submitAddress now isThere (Text.strip written)
        (Text.strip commit)
      simp only
      generalize submitAddress _ now isThere (Text.strip written) (Text.strip commit) = result
        at effect ⊢
      exact effect.after_carried carried queue

theorem effect_findDocs (service : Service) (now : Time.Moment) (isThere : String → Bool)
    (id : String) : Effect service (service.findDocs now isThere id).1 := by
  rw [findDocs]
  split
  · exact .carried (.refl _) rfl
  · rename_i absent
    simp only
    split
    · exact .carried (.refl _) rfl
    · split
      · exact .carried (.refl _) rfl
      · refine .carried (.insert (fun old found => ?_) rfl) rfl
        rw [absent] at found
        cases found
      · exact .carried (.refl _) rfl

end Service

end CodeAtlas.Server
