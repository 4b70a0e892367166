import CodeAtlas.Proofs.Server.JobNames
import CodeAtlas.Proofs.Time.Reading

/-!
Runs of the service by the clock. A submission that follows on a failed job is refused for some
minutes, and these are counted from the submission of the failed job and not from its failure. The
main statement says after which times a job that failed can be queued again: a job that waited or was
worked on for long enough can be queued again at once.
-/

namespace CodeAtlas

open OrderedMap

variable {id written : String} {job : Job} {label : Hosting.Label}

/-! ## Moments of a clock -/

namespace Time.Moment

theorem isBefore_of_naive {moment limit : Moment} (naive : moment.ahead = none)
    (naiveLimit : limit.ahead = none) :
    moment.isBefore limit = .ok (moment.ticks - limit.ticks < 0) := by
  simp [isBefore, since?, naive, naiveLimit]

theorem earlier_eq_ok_iff {moment limit : Moment} {span : Int} :
    moment.earlier span = .ok limit ↔
      0 ≤ moment.ticks - span ∧ moment.ticks - span < endOfTime ∧
        limit = { moment with ticks := moment.ticks - span } := by
  rw [earlier]
  simp only [Bool.and_eq_true, decide_eq_true_eq]
  split
  · rename_i inTime
    rw [Except.ok.injEq, eq_comm]
    exact ⟨fun same => ⟨inTime.1, inTime.2, same⟩, fun found => found.2.2⟩
  · rename_i outside
    simp only [reduceCtorEq, false_iff]
    exact fun ⟨started, ended, _⟩ => outside ⟨started, ended⟩

end Time.Moment

namespace Server

/-! ## What steps do in time -/

open Service (cooldown memory normalized Submittable)

/-- Where the date of an unfinished job comes from at some time: the job had it before, or it was
submitted then. -/
inductive Origin (time : Int) (jobs : Jobs) (id : String) (created : Time.Moment) : Prop
  | before {old : Job} (found : jobs.get? id = some old) (unfinished : old.state ≠ .completed)
      (same : created = old.created)
  | submitted (now : created = ⟨time, none⟩) (late : memory ≤ time)

/-- The jobs before and after a step at some time. Each job that is not completed has its date from
before or from now, and a failed one stays as it is as long as its cooldown lasts. -/
structure Passage (time : Int) (jobs later : Jobs) : Prop where
  origin : ∀ id job, later.get? id = some job → job.state ≠ .completed →
    Origin time jobs id job.created
  rests : ∀ id job, jobs.get? id = some job → job.state = .failed → job.created.ahead = none →
    later.get? id = some job ∨ job.created.ticks + cooldown ≤ time

namespace Passage

variable {time : Int} {jobs middle later : Jobs}

theorem refl (time : Int) (jobs : Jobs) : Passage time jobs jobs :=
  ⟨fun _ _ found unfinished => .before found unfinished rfl, fun _ _ found _ _ => .inl found⟩

theorem trans (first : Passage time jobs middle) (second : Passage time middle later) :
    Passage time jobs later := by
  constructor
  · intro id job found unfinished
    cases second.origin id job found unfinished with
    | @before old present alsoUnfinished same =>
      rw [same]
      exact first.origin id old present alsoUnfinished
    | submitted now late => exact .submitted now late
  · intro id job found failed naive
    rcases first.rests id job found failed naive with kept | rested
    · exact second.rests id job kept failed naive
    · exact .inr rested

theorem insert
    (rested : ∀ old, jobs.get? id = some old → old.state = .failed → old.created.ahead = none →
      old.created.ticks + cooldown ≤ time)
    (entered : job.state ≠ .completed → job.created = ⟨time, none⟩ ∧ memory ≤ time) :
    Passage time jobs (jobs.insert id job) := by
  constructor
  · intro other found inserted unfinished
    rw [get?_insert] at inserted
    split at inserted
    · cases inserted
      exact .submitted (entered unfinished).1 (entered unfinished).2
    · exact .before inserted unfinished rfl
  · intro other old found failed naive
    by_cases same : other = id
    · subst same
      exact .inr (rested old found failed naive)
    · rw [get?_insert_of_ne _ same]
      exact .inl found

theorem modify {old : Job} (change : Job → Job) (found : jobs.get? id = some old)
    (isOpen : old.isOpen = true) (created : (change old).created = old.created) :
    Passage time jobs (jobs.modify id change) := by
  constructor
  · intro other job changed unfinished
    rw [get?_modify] at changed
    split at changed
    · rename_i same
      subst same
      rw [found] at changed
      cases changed
      refine .before found (fun completed => ?_) created
      rw [Job.isOpen, completed] at isOpen
      cases isOpen
    · exact .before changed unfinished rfl
  · intro other job present failed naive
    have different : other ≠ id := by
      rintro rfl
      cases found.symm.trans present
      rw [Job.isOpen, failed] at isOpen
      cases isOpen
    exact .inl (by simp [get?_modify, different, present])

theorem dropOld (dropped : jobs.dropOld ⟨time - memory, none⟩ = .ok later) :
    Passage time jobs later := by
  have short : (cooldown : Int) ≤ memory := by decide
  rcases bind_eq_ok_iff.mp dropped with ⟨old, selected, rest⟩
  cases rest
  constructor
  · intro id job found unfinished
    rw [get?_filter] at found
    exact .before (Option.eq_some_of_filter_eq_some found) unfinished rfl
  · intro id job found failed naive
    by_cases member : id ∈ old
    · rcases (mem_filterMapM_iff selected id).mp member with ⟨⟨other, entry⟩, present, chosen⟩
      rcases bind_eq_ok_iff.mp chosen with ⟨isOld, decided, choice⟩
      have choice : isOld = true ∧ other = id := by
        split at choice <;> simp_all [pure, Except.pure]
      rcases choice with ⟨rfl, rfl⟩
      rw [(jobs.get?_eq_some_iff other entry).mpr present] at found
      cases found
      rw [Time.Moment.isBefore_of_naive naive rfl, Except.ok.injEq, decide_eq_true_eq] at decided
      have older : job.created.ticks - (time - memory) < 0 := decided
      exact .inr (by omega)
    · exact .inl (by simp [get?_filter, found, member])

end Passage

namespace Service

variable {service : Service} {time : Int}

theorem rested_of_blocking (clear : service.blocking ⟨time, none⟩ id = .ok none) (job : Job)
    (found : service.jobs.get? id = some job) (failed : job.state = .failed)
    (naive : job.created.ahead = none) : job.created.ticks + cooldown ≤ time := by
  rcases bind_eq_ok_iff.mp (blocks_of_blocking clear found) with ⟨limit, inTime, decided⟩
  rcases Time.Moment.earlier_eq_ok_iff.mp inTime with ⟨_, _, rfl⟩
  rw [failed] at decided
  have decided : Time.Moment.isBefore ⟨time - cooldown, none⟩ job.created = .ok false := decided
  rw [Time.Moment.isBefore_of_naive rfl naive, Except.ok.injEq, decide_eq_false_iff_not] at decided
  have past : ¬ time - cooldown - job.created.ticks < 0 := decided
  omega

theorem passage_takeIn (clear : service.blocking ⟨time, none⟩ id = .ok none) (late : memory ≤ time)
    (isThere : String → Bool) (address shown : String) (commit : Option String) :
    Passage time service.jobs
      (service.takeIn ⟨time, none⟩ isThere id address shown commit).1.jobs := by
  have rested := rested_of_blocking clear
  rw [takeIn]
  split
  · exact .refl time _
  · simp only
    split
    · exact .refl time _
    · exact .insert rested fun unfinished => absurd rfl unfinished
    · exact .insert rested fun _ => ⟨rfl, late⟩

theorem passage_submitAddress (late : memory ≤ time) (isThere : String → Bool)
    (address commit : String) :
    Passage time service.jobs
      (service.submitAddress ⟨time, none⟩ isThere address commit).1.jobs := by
  rw [submitAddress]
  split
  · exact .refl time _
  · split
    · exact .refl time _
    · simp only
      split
      · exact .refl time _
      · split
        · exact .refl time _
        · exact .refl time _
        · rename_i clear
          exact passage_takeIn clear late isThere _ address _

theorem passage_forgetOld {remembered : Service}
    (forgotten : service.forgetOld ⟨time, none⟩ = .ok remembered) :
    Passage time service.jobs remembered.jobs ∧ memory ≤ time := by
  rcases bind_eq_ok_iff.mp forgotten with ⟨limit, inTime, rest⟩
  rcases bind_eq_ok_iff.mp rest with ⟨jobs, dropped, same⟩
  rcases Time.Moment.earlier_eq_ok_iff.mp inTime with ⟨started, _, rfl⟩
  cases same
  exact ⟨.dropOld dropped, by simpa using started⟩

theorem passage_submit (service : Service) (time : Int) (isThere : String → Bool)
    (address : Option String) (commit : String) :
    Passage time service.jobs (service.submit ⟨time, none⟩ isThere address commit).1.jobs := by
  rw [submit]
  split
  · exact .refl time _
  · rename_i remembered forgotten
    rcases passage_forgetOld forgotten with ⟨kept, late⟩
    split
    · exact kept
    · rename_i written
      have passed := @passage_submitAddress remembered time late isThere (Text.strip written)
        (Text.strip commit)
      simp only
      generalize submitAddress _ _ isThere (Text.strip written) (Text.strip commit) = result
        at passed ⊢
      exact kept.trans passed

theorem passage_findDocs (service : Service) (time : Int) (isThere : String → Bool) (id : String) :
    Passage time service.jobs (service.findDocs ⟨time, none⟩ isThere id).1.jobs := by
  rw [findDocs]
  split
  · exact .refl time _
  · rename_i absent
    simp only
    split
    · exact .refl time _
    · split
      · exact .refl time _
      · refine .insert (fun old found => ?_) fun unfinished => absurd rfl unfinished
        rw [absent] at found
        cases found
      · exact .refl time _

end Service

/-! ## Runs by the clock -/

/-- A situation and what the clock showed when it came about. -/
structure Timed where
  time : Int
  situation : Situation

/-- A step to a time that is not before the last one. -/
structure Timed.Next (timed next : Timed) : Prop where
  ordered : timed.time ≤ next.time
  shown : Time.Moment.Shown ⟨next.time, none⟩
  step : StepAt ⟨next.time, none⟩ timed.situation next.situation

/-- Any number of steps by the clock. -/
abbrev TimedRun := Relation.ReflTransGen Timed.Next

namespace TimedRun

variable {timed final : Timed}

theorem run (timedRun : TimedRun timed final) : Run timed.situation final.situation := by
  induction timedRun with
  | refl => exact .refl
  | tail _ next induction => exact induction.tail next.step.step

theorem ordered (timedRun : TimedRun timed final) : timed.time ≤ final.time := by
  induction timedRun with
  | refl => exact le_rfl
  | tail _ next induction => exact induction.trans next.ordered

end TimedRun

theorem StepAt.passage {time : Int} {situation next : Situation} (orderly : Orderly situation)
    (stepAt : StepAt ⟨time, none⟩ situation next) :
    Passage time situation.service.jobs next.service.jobs := by
  cases stepAt with
  | @submit service _ _ address commit _ _ _ answered =>
    rw [eq_saved_of_submit answered]
    exact service.passage_submit time _ address commit
  | @serve service _ _ _ id _ _ _ _ answered =>
    rw [eq_saved_of_serve answered]
    exact service.passage_findDocs time _ id
  | take first => exact .refl time _
  | drop unknown => exact .refl time _
  | @«begin» service id known =>
    rcases (orderly.held id rfl).2 with ⟨job, found, queued⟩
    exact .modify (·.start ⟨time, none⟩) found (Job.isOpen_iff.mpr (.inl queued)) rfl
  | @finish service id =>
    rcases orderly.worked id rfl with ⟨job, found, processing⟩
    exact .modify (·.fail ⟨time, none⟩ missingModel) found
      (Job.isOpen_iff.mpr (.inr processing)) rfl

/-! ## What runs keep -/

namespace Timed

variable {timed later final : Timed}

/-- All jobs that are not completed were submitted by now, late enough to look back from. -/
def Dated (timed : Timed) : Prop :=
  ∀ id job, timed.situation.service.jobs.get? id = some job → job.state ≠ .completed →
    job.created.ahead = none ∧ memory ≤ job.created.ticks ∧ job.created.ticks ≤ timed.time

theorem Dated.step (dated : timed.Dated) (orderly : Orderly timed.situation)
    (next : timed.Next later) : later.Dated := by
  intro id job found unfinished
  cases (next.step.passage orderly).origin id job found unfinished with
  | before present alsoUnfinished same =>
    rcases dated id _ present alsoUnfinished with ⟨naive, late, past⟩
    rw [same]
    exact ⟨naive, late, past.trans next.ordered⟩
  | submitted now late =>
    rw [now]
    exact ⟨rfl, late, le_rfl⟩

theorem Dated.run (dated : timed.Dated) (orderly : Orderly timed.situation)
    (run : TimedRun timed final) : final.Dated := by
  induction run with
  | refl => exact dated
  | tail before next induction => exact induction.step (orderly.run (TimedRun.run before)) next

/-- A failed job is still there, or its cooldown has passed. -/
def Rests (id : String) (job : Job) (timed : Timed) : Prop :=
  timed.situation.service.jobs.get? id = some job ∨ job.created.ticks + cooldown ≤ timed.time

theorem Rests.step (rests : Rests id job timed) (failed : job.state = .failed)
    (naive : job.created.ahead = none) (orderly : Orderly timed.situation) (next : timed.Next later)
    : Rests id job later := by
  rcases rests with found | passed
  · exact (next.step.passage orderly).rests id job found failed naive
  · exact .inr (passed.trans next.ordered)

theorem Rests.run (rests : Rests id job timed) (failed : job.state = .failed)
    (naive : job.created.ahead = none) (orderly : Orderly timed.situation)
    (run : TimedRun timed final) : Rests id job final := by
  induction run with
  | refl => exact rests
  | tail before next induction =>
    exact induction.step failed naive (orderly.run (TimedRun.run before)) next

theorem Rests.passed (rests : Rests id job timed) (failed : job.state = .failed)
    (orderly : Orderly timed.situation) (queued : id ∈ timed.situation.service.queue) :
    job.created.ticks + cooldown ≤ timed.time := by
  refine rests.resolve_left fun found => ?_
  rcases (orderly.agrees id).mp (List.mem_append_right _ queued) with ⟨other, again, waiting⟩
  cases found.symm.trans again
  rw [failed] at waiting
  cases waiting

end Timed

/-! ## Retries -/

/-- In some run a job fails at a time after its submission, and after a further time its name is
queued again. -/
def RetriedAfter (id : String) (wait gap : Int) : Prop :=
  ∃ (folder : String) (workspace later : Workspace) (opened : Service) (begun : Int),
    (Service.openFolder folder).start workspace = (.ok opened, later) ∧
    ∃ working failing resting queued : Timed, ∃ job,
      TimedRun ⟨begun, opened, .idle⟩ working ∧ working.Next failing ∧
      (∀ old, working.situation.service.jobs.get? id = some old → old.state ≠ .failed) ∧
      failing.situation.service.jobs.get? id = some job ∧ job.state = .failed ∧
      failing.time = job.created.ticks + wait ∧
      TimedRun failing resting ∧ resting.Next queued ∧
      id ∉ resting.situation.service.queue ∧ id ∈ queued.situation.service.queue ∧
      queued.time = failing.time + gap

theorem bounds_of_retriedAfter {wait gap : Int} (retried : RetriedAfter id wait gap) :
    0 ≤ wait ∧ 0 ≤ gap ∧ cooldown ≤ wait + gap ∧ wait + gap < Time.Moment.endOfTime - memory := by
  rcases retried with ⟨folder, workspace, later, opened, begun, constructed, working, failing,
    resting, queued, job, before, fails, _, found, failed, waited, between, last, _, member, after⟩
  have orderly := Orderly.opened constructed
  have orderlyFailing := (orderly.run (TimedRun.run before)).step fails.step.step
  have dated : failing.Dated := by
    refine Timed.Dated.run (fun id job found unfinished => ?_) orderly (before.tail fails)
    exact absurd ((Service.openFolder_eq_ok constructed).2 id job found) unfinished
  rcases dated id job found (by simp [failed]) with ⟨naive, late, past⟩
  have whole := between.tail last
  have ordered := TimedRun.ordered whole
  have rests : Timed.Rests id job queued :=
    Timed.Rests.run (.inl found) failed naive orderlyFailing whole
  have passed := rests.passed failed (orderlyFailing.run (TimedRun.run whole)) member
  have inTime : queued.time < Time.Moment.endOfTime := last.shown.inTime
  omega

/-! A run with a retry after any times that are long enough. -/

theorem exists_dropOld {jobs : Jobs} {limit : Time.Moment} (naiveLimit : limit.ahead = none)
    (naive : ∀ id job, jobs.get? id = some job → job.created.ahead = none) :
    ∃ later, jobs.dropOld limit = .ok later := by
  refine (exists_filterMapM ?_).elim fun old selected => ⟨_, bind_eq_ok_iff.mpr ⟨old, selected, rfl⟩⟩
  intro entry member
  have known := naive entry.1 entry.2 ((jobs.get?_eq_some_iff entry.1 entry.2).mpr member)
  exact ⟨_, bind_eq_ok_iff.mpr ⟨_, Time.Moment.isBefore_of_naive known naiveLimit, rfl⟩⟩

namespace Service

variable {service : Service} {time : Int} {id : String}

theorem blocking_eq_none (inTime : cooldown ≤ time ∧ time < Time.Moment.endOfTime)
    (resting : ∀ job, service.jobs.get? id = some job → job.state = .completed ∨
      job.state = .failed ∧ job.created.ahead = none ∧ job.created.ticks + cooldown ≤ time) :
    service.blocking ⟨time, none⟩ id = .ok none := by
  have isEarlier : Time.Moment.earlier ⟨time, none⟩ cooldown = .ok ⟨time - cooldown, none⟩ :=
    Time.Moment.earlier_eq_ok_iff.mpr ⟨by simp only; omega, by simp only; omega, rfl⟩
  refine bind_eq_ok_iff.mpr ⟨_, isEarlier, ?_⟩
  cases found : service.jobs.get? id with
  | none => rfl
  | some job =>
    refine bind_eq_ok_iff.mpr ⟨false, bind_eq_ok_iff.mpr ⟨_, isEarlier, ?_⟩, rfl⟩
    rcases resting job found with completed | ⟨failed, naive, passed⟩
    · rw [completed]
      rfl
    · have past : ¬ time - cooldown - job.created.ticks < 0 := by omega
      rw [failed]
      exact (Time.Moment.isBefore_of_naive rfl naive).trans (by simp only [past, decide_false])

end Service

theorem StepAt.of_clear {service remembered : Service} {now : Time.Moment}
    (submittable : Submittable (Text.strip written) label)
    (forgotten : service.forgetOld now = .ok remembered)
    (clear : remembered.blocking now (jobName label.fullName) = .ok none)
    (uncached : remembered.cache.index = .empty) (worker : Worker) :
    StepAt now ⟨service, worker⟩ ⟨(remembered.enqueue (jobName label.fullName)
      (.waiting (jobName label.fullName) (normalized (Text.strip written)) now none)).saved,
      worker⟩ := by
  rw [← Service.submit_of_clear submittable forgotten clear uncached Service.bare.disk.exists?]
  exact .of_submit service worker now Service.bare (some written) ""

def earliest (id address : String) : Job := .waiting id address ⟨memory, none⟩ none

def Service.withTaken (id address : String) : Service :=
  { fresh.enqueue id (earliest id address) with queue := [] }

def Service.withStarted (id address : String) : Service :=
  (withTaken id address).startJob ⟨memory, none⟩ id

def Service.withFailed (id address : String) (now : Time.Moment) : Service :=
  (withStarted id address).failJob now id

theorem Service.get?_withStarted (id address other : String) :
    (withStarted id address).jobs.get? other =
      if other = id then some ((earliest id address).start ⟨memory, none⟩) else none := by
  simp only [withStarted, withTaken, startJob, enqueue, get?_modify, get?_insert]
  split <;> rfl

theorem Service.get?_withFailed (id address other : String) (now : Time.Moment) :
    (withFailed id address now).jobs.get? other =
      if other = id then
        some (((earliest id address).start ⟨memory, none⟩).fail now missingModel)
      else none := by
  simp only [withFailed, failJob, get?_modify, get?_withStarted]
  split <;> rfl

theorem timedRun_withStarted (submittable : Submittable (Text.strip written) label) :
    TimedRun ⟨memory, Service.fresh, .idle⟩
      ⟨memory, .withStarted (jobName label.fullName) (normalized (Text.strip written)),
        .working (jobName label.fullName)⟩ := by
  have shown : Time.Moment.Shown ⟨memory, none⟩ := ⟨rfl, by decide, by decide⟩
  have remembered : Service.fresh.forgetOld ⟨memory, none⟩ = .ok Service.fresh := rfl
  have submitted := StepAt.of_clear submittable remembered rfl rfl .idle
  generalize jobName label.fullName = id at submitted ⊢
  generalize normalized (Text.strip written) = address at submitted ⊢
  have first : Timed.Next ⟨memory, Service.fresh, .idle⟩
      ⟨memory, Service.fresh.enqueue id (earliest id address), .idle⟩ :=
    ⟨le_rfl, shown, submitted⟩
  have second : Timed.Next ⟨memory, Service.fresh.enqueue id (earliest id address), .idle⟩
      ⟨memory, .withTaken id address, .holding id⟩ :=
    ⟨le_rfl, shown, .take rfl⟩
  have known : (Service.withTaken id address).jobs.contains id = true :=
    (contains_iff _ id).mpr
      (mem_keys_of_get? (get?_insert_self _ _ _))
  have third : Timed.Next ⟨memory, .withTaken id address, .holding id⟩
      ⟨memory, .withStarted id address, .working id⟩ :=
    ⟨le_rfl, shown, .begin known⟩
  exact ((Relation.ReflTransGen.single first).tail second).tail third

/-- Whether the failed job is forgotten or not: after its cooldown it is in nobody's way. -/
theorem Service.clear_withFailed (id address : String) (ended : Time.Moment) {time : Int}
    (passed : memory + cooldown ≤ time) (inTime : time < Time.Moment.endOfTime) :
    ∃ jobs,
      (withFailed id address ended).forgetOld ⟨time, none⟩ =
        .ok { withFailed id address ended with jobs } ∧
      blocking { withFailed id address ended with jobs } ⟨time, none⟩ id = .ok none := by
  have atLeast : (0 : Int) ≤ memory ∧ (0 : Int) ≤ cooldown := by decide
  have isFailed : ∀ other job, (withFailed id address ended).jobs.get? other = some job →
      job.state = .failed ∧ job.created = ⟨memory, none⟩ := by
    intro other job found
    rw [get?_withFailed] at found
    split at found
    · cases found
      exact ⟨rfl, rfl⟩
    · cases found
  have inReach : Time.Moment.earlier ⟨time, none⟩ memory = .ok ⟨time - memory, none⟩ :=
    Time.Moment.earlier_eq_ok_iff.mpr ⟨by simp only; omega, by simp only; omega, rfl⟩
  rcases @exists_dropOld (withFailed id address ended).jobs ⟨time - memory, none⟩ rfl
    fun other job found => by rw [(isFailed other job found).2] with ⟨jobs, dropped⟩
  refine ⟨jobs, bind_eq_ok_iff.mpr ⟨_, inReach, bind_eq_ok_iff.mpr ⟨jobs, dropped, rfl⟩⟩, ?_⟩
  refine blocking_eq_none ⟨by omega, inTime⟩ fun job found => ?_
  refine ((carried_dropOld dropped).origin id job found).imp_right fun before => ?_
  rcases isFailed id job before with ⟨failed, created⟩
  rw [created]
  exact ⟨failed, rfl, passed⟩

theorem retriedAfter_of_bounds (submittable : Submittable (Text.strip written) label)
    {wait gap : Int} (waits : 0 ≤ wait) (goesOn : 0 ≤ gap) (passed : cooldown ≤ wait + gap)
    (inTime : wait + gap < Time.Moment.endOfTime - memory) :
    RetriedAfter (jobName label.fullName) wait gap := by
  have atLeast : (0 : Int) ≤ memory := Int.natCast_nonneg memory
  have shownFailing : Time.Moment.Shown ⟨memory + wait, none⟩ :=
    ⟨rfl, by simp only; omega, by simp only; omega⟩
  have shownRetry : Time.Moment.Shown ⟨memory + wait + gap, none⟩ :=
    ⟨rfl, by simp only; omega, by simp only; omega⟩
  have run := timedRun_withStarted submittable
  rcases Service.clear_withFailed (jobName label.fullName) (normalized (Text.strip written))
    ⟨memory + wait, none⟩ (by omega : memory + cooldown ≤ memory + wait + gap) (by omega) with
    ⟨jobs, forgotten, clear⟩
  have again := StepAt.of_clear submittable forgotten clear rfl .idle
  generalize jobName label.fullName = id at run again ⊢
  generalize normalized (Text.strip written) = address at run again
  have started := Service.get?_withStarted id address id
  have failed := Service.get?_withFailed id address id ⟨memory + wait, none⟩
  rw [if_pos rfl] at started failed
  let failing : Timed := ⟨memory + wait, .withFailed id address ⟨memory + wait, none⟩, .idle⟩
  refine ⟨"/cache", Service.bare, Service.bare, Service.fresh, memory, Service.start_openFolder_bare,
    _, failing, failing, ⟨memory + wait + gap, _, .idle⟩, _, run, ⟨?_, shownFailing, .finish⟩, ?_,
    failed, rfl, rfl, .refl, ⟨?_, shownRetry, again⟩, ?_, ?_, rfl⟩
  · exact le_add_of_nonneg_right waits
  · intro old found
    cases started.symm.trans found
    nofun
  · exact le_add_of_nonneg_right goesOn
  · nofun
  · exact List.mem_concat_self

/-- After which times a job that failed can be queued again. -/
theorem retried_iff_cooldown_since_submission {written : String} {label : Hosting.Label}
    (submittable : Submittable (Text.strip written) label) (wait gap : Int) :
    RetriedAfter (jobName label.fullName) wait gap ↔
      0 ≤ wait ∧ 0 ≤ gap ∧ cooldown ≤ wait + gap ∧
        wait + gap < Time.Moment.endOfTime - memory := by
  constructor
  · exact bounds_of_retriedAfter
  · rintro ⟨waits, goesOn, passed, inTime⟩
    exact retriedAfter_of_bounds submittable waits goesOn passed inTime

theorem submittable_ownerName :
    Submittable (Text.strip "https://github.com/owner/name") ⟨"owner", "name"⟩ :=
  ⟨by decide +kernel, by decide +kernel⟩

/-- A job that failed a minute after its submission has to rest for two more minutes. -/
theorem retried_two_minutes_later :
    Submittable (Text.strip "https://github.com/owner/name") ⟨"owner", "name"⟩ ∧
    RetriedAfter (jobName (Hosting.Label.fullName ⟨"owner", "name"⟩)) Time.minute
      (2 * Time.minute) ∧
    ¬ RetriedAfter (jobName (Hosting.Label.fullName ⟨"owner", "name"⟩)) Time.minute
      (2 * Time.minute - 1) := by
  refine ⟨submittable_ownerName, ?_, ?_⟩
  · rw [retried_iff_cooldown_since_submission submittable_ownerName]
    decide
  · rw [retried_iff_cooldown_since_submission submittable_ownerName]
    decide

/-- A job that failed ten minutes after its submission is queued again within a second. -/
theorem retried_within_cooldown :
    (Time.second : Int) < cooldown ∧
    RetriedAfter (jobName (Hosting.Label.fullName ⟨"owner", "name"⟩)) (10 * Time.minute)
      Time.second := by
  refine ⟨by decide, ?_⟩
  exact retriedAfter_of_bounds submittable_ownerName (by decide) (by decide) (by decide) (by decide)

end Server

end CodeAtlas
