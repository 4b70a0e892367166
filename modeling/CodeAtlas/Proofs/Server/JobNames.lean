import CodeAtlas.Proofs.Server.Worker
import CodeAtlas.Proofs.Text

/-!
Names of jobs. The name of a job joins owner and name of its repository by two hyphens, and hyphens
may stand in both of them, so different repositories can have one name. The main statements say
which ones do, that exactly then the job of one repository keeps the other one from being
submitted, and from which names the repository can be read back.
-/

namespace CodeAtlas

variable {label other : Label}

/-! ## Labels -/

namespace Hosting

/-- Owner and name hold no slash. -/
structure Label.Plain (label : Label) : Prop where
  owner : '/' ∉ label.owner.toList
  name : '/' ∉ label.name.toList

theorem plain_of_label {address : String} (named : Hosting.label address = .ok label) :
    label.Plain := by
  rcases bind_eq_ok_iff.mp named with ⟨url, _, rest⟩
  split at rest
  · rename_i owner name more segments
    cases rest
    have inside : ∀ part ∈ owner :: name :: more, '/' ∉ part.toList := by
      intro part member
      rw [← segments] at member
      exact (Text.mem_split member).1
    have plain := inside name (by simp)
    refine ⟨inside owner (by simp), ?_⟩
    simp only [Text.dropEnding?]
    split
    · rw [Option.getD_some, Text.dropLast, String.toList_ofList]
      exact fun member => plain (List.mem_of_mem_take member)
    · exact plain
  · cases rest

/-- One label can be cut out of the joined text of the other at a place further left: the hyphens
of the cut stand in the name of the first and in the owner of the second. -/
inductive Label.Overlaps (label other : Label) : Prop
  | hyphen (owner : other.owner = label.owner ++ "-") (name : label.name = "-" ++ other.name)
  | between (middle : String) (owner : other.owner = label.owner ++ "--" ++ middle)
      (name : label.name = middle ++ "--" ++ other.name)

/-- Labels with one job name. -/
def Label.Confusable (label other : Label) : Prop :=
  label = other ∨ label.Overlaps other ∨ other.Overlaps label

end Hosting

namespace Server

open Hosting (Label)

theorem jobName_fullName (plain : label.Plain) :
    jobName label.fullName = label.owner ++ "--" ++ label.name := by
  have first : ¬ ['/'] <:+: label.owner.toList ++ ['/'].dropLast := by
    simpa [List.singleton_infix_iff] using plain.owner
  have rest : ¬ ['/'] <:+: label.name.toList := by
    simpa [List.singleton_infix_iff] using plain.name
  have replaced := Text.Chars.replace_first (by decide) ['-', '-'] first label.name.toList
  rw [Text.Chars.replace_of_absent _ rest] at replaced
  rw [← String.toList_inj]
  simpa [jobName, Text.replace, Label.fullName] using replaced

/-- How a text can be cut in two ways at two hyphens, the second cut further right. -/
theorem overlaps_of_cut {between : List Char}
    (owner : other.owner.toList = label.owner.toList ++ between)
    (name : '-' :: '-' :: label.name.toList = between ++ '-' :: '-' :: other.name.toList) :
    label = other ∨ label.Overlaps other := by
  rcases label with ⟨owner₁, name₁⟩
  rcases other with ⟨owner₂, name₂⟩
  rcases between with _ | ⟨first, _ | ⟨second, middle⟩⟩
  · left
    have sameOwner : owner₂ = owner₁ := by simpa [← String.toList_inj] using owner
    have sameName : name₁ = name₂ := by simpa [← String.toList_inj] using name
    rw [sameOwner, sameName]
  · obtain ⟨rfl, rest⟩ : '-' = first ∧ name₁.toList = '-' :: name₂.toList := by simpa using name
    refine .inr (.hyphen ?_ ?_)
    · simpa [← String.toList_inj] using owner
    · simpa [← String.toList_inj] using rest
  · obtain ⟨rfl, rfl, rest⟩ : '-' = first ∧ '-' = second ∧
        name₁.toList = middle ++ '-' :: '-' :: name₂.toList := by simpa using name
    refine .inr (.between (String.ofList middle) ?_ ?_)
    · simpa [← String.toList_inj] using owner
    · simpa [← String.toList_inj] using rest

theorem jobName_eq_iff (plain : label.Plain) (otherPlain : other.Plain) :
    jobName label.fullName = jobName other.fullName ↔ label.Confusable other := by
  rw [jobName_fullName plain, jobName_fullName otherPlain]
  constructor
  · intro same
    have hyphens : "--".toList = ['-', '-'] := rfl
    have texts := congrArg String.toList same
    simp only [String.toList_append, hyphens, List.append_assoc, List.cons_append,
      List.nil_append] at texts
    rcases List.append_eq_append_iff.mp texts with ⟨between, owner, name⟩ | ⟨between, owner, name⟩
    · rcases overlaps_of_cut owner name with equal | overlaps
      · exact .inl equal
      · exact .inr (.inl overlaps)
    · rcases overlaps_of_cut owner name with equal | overlaps
      · exact .inl equal.symm
      · exact .inr (.inr overlaps)
  · have joined : ∀ label other : Label, label.Overlaps other →
        label.owner ++ "--" ++ label.name = other.owner ++ "--" ++ other.name := by
      intro label other overlaps
      cases overlaps with
      | hyphen owner name => simp [← String.toList_inj, owner, name]
      | between middle owner name =>
        rw [owner, name]
        simp only [String.append_assoc]
    rintro (rfl | overlaps | overlaps)
    · rfl
    · exact joined label other overlaps
    · exact (joined other label overlaps).symm

/-! ## Names read back -/

/-- The hyphens that join owner and name are the first pair exactly if there is no pair in the owner
and it does not end with a hyphen. -/
theorem first_pair_iff (owner : String) :
    ¬ ['-', '-'] <:+: owner.toList ++ ['-', '-'].dropLast ↔
      Text.contains owner "--" = false ∧ Text.endsWith owner "-" = false := by
  have atEnd : ['-'] ++ ['-'] <:+ owner.toList ++ ['-'] ↔ ['-'] <:+ owner.toList :=
    List.suffix_append_self_iff
  rw [← Bool.not_eq_true, ← Bool.not_eq_true, Text.contains_iff, Text.endsWith_iff, ← not_or,
    not_iff_not, or_comm]
  exact List.infix_concat_iff.trans (or_congr_left atEnd)

/-- The label of a repository is read back from the name of its job exactly if no other pair of
hyphens can be taken for the one that joins owner and name. -/
theorem label_read_back_iff {label : Label} (plain : label.Plain) :
    repositoryOfJob (jobName label.fullName) = label.fullName ↔
      Text.contains label.owner "--" = false ∧ Text.contains label.name "--" = false ∧
        Text.endsWith label.owner "-" = false := by
  have slash : "/".toList = ['/'] := rfl
  have pair : "--".toList = ['-', '-'] := rfl
  have filled : ['-', '-'] ≠ [] := by decide
  rw [and_left_comm, ← first_pair_iff, ← Bool.not_eq_true, Text.contains_iff, pair,
    jobName_fullName plain, ← String.toList_inj, repositoryOfJob, Text.replace, Label.fullName]
  simp only [String.toList_ofList, String.toList_append, slash, pair]
  constructor
  · intro same
    rcases Text.Chars.exists_first filled (List.infix_append _ ['-', '-'] _) with
      ⟨before, after, whole, first⟩
    rw [whole, Text.Chars.replace_first filled _ first, List.append_assoc, List.append_assoc] at same
    rcases (List.append_cons_inj_of_notMem plain.owner plain.name).mp same.symm with ⟨rfl, _, rest⟩
    have name : label.name.toList = after := by simpa using whole
    refine ⟨fun present => plain.name ?_, first⟩
    rw [rest, ← name]
    exact (Text.Chars.infix_replace filled ['/'] present).subset List.mem_cons_self
  · rintro ⟨absent, first⟩
    rw [Text.Chars.replace_first filled _ first, Text.Chars.replace_of_absent _ absent]

theorem single_hyphens_read_back : Label.Plain ⟨"a-b", "-c-"⟩ ∧
    repositoryOfJob (jobName (Label.fullName ⟨"a-b", "-c-"⟩)) = Label.fullName ⟨"a-b", "-c-"⟩ := by
  have plain : Label.Plain ⟨"a-b", "-c-"⟩ := ⟨by decide, by decide⟩
  exact ⟨plain, (label_read_back_iff plain).mpr (by decide)⟩

/-! ## Where jobs come from -/

open Service (Submittable normalized)

/-- A job was entered by the submission of an address. -/
structure EnteredFor (id : String) (job : Job) (address : String) (label : Label) : Prop where
  submittable : Submittable address label
  id : id = jobName label.fullName
  address : job.address = .text (normalized address)

/-- All jobs that are not completed were entered by submissions. -/
def Jobs.Attributed (jobs : Jobs) : Prop :=
  ∀ id job, jobs.get? id = some job →
    job.state = .completed ∨ ∃ address label, EnteredFor id job address label

theorem Jobs.Attributed.carried {jobs later : Jobs} (attributed : jobs.Attributed)
    (carried : Carried jobs later) : later.Attributed := by
  intro id job found
  rcases carried.origin id job found with completed | before
  · exact .inl completed
  · exact attributed id job before

theorem Jobs.Attributed.effect {service after : Service} (attributed : service.jobs.Attributed)
    (effect : service.Effect after) : after.jobs.Attributed := by
  cases effect with
  | carried jobs queue => exact attributed.carried jobs
  | @admitted middle address label now commit submittable jobs free entered queue =>
    intro id job found
    rw [entered, OrderedMap.get?_insert] at found
    split at found
    · rename_i same
      cases found
      exact .inr ⟨address, label, submittable, same, rfl⟩
    · exact attributed.carried jobs id job found

theorem Jobs.Attributed.modify {jobs : Jobs} (attributed : jobs.Attributed) {id : String} {old : Job}
    {change : Job → Job} (found : jobs.get? id = some old) (unfinished : old.state ≠ .completed)
    (address : (change old).address = old.address) : Attributed (jobs.modify id change) := by
  intro other job changed
  rw [OrderedMap.get?_modify] at changed
  split at changed
  · rename_i same
    subst same
    rw [found] at changed
    cases changed
    rcases (attributed other old found).resolve_left unfinished with ⟨written, label, entered⟩
    exact .inr ⟨written, label, entered.submittable, entered.id, address.trans entered.address⟩
  · exact attributed other job changed

theorem attributed_step {situation next : Situation} (orderly : Orderly situation)
    (attributed : situation.service.jobs.Attributed) (step : Step situation next) :
    next.service.jobs.Attributed := by
  rcases step with ⟨now, step⟩
  cases step with
  | submit answered => exact attributed.effect (effect_of_submit answered)
  | serve answered => exact attributed.effect (effect_of_serve answered)
  | take first => exact attributed
  | drop unknown => exact attributed
  | @«begin» service id known =>
    rcases (orderly.held id rfl).2 with ⟨job, found, queued⟩
    exact attributed.modify found (by simp [queued]) rfl
  | @finish service id =>
    rcases orderly.worked id rfl with ⟨job, found, processing⟩
    exact attributed.modify found (by simp [processing]) rfl

theorem attributed_run {folder : String} {workspace later : Workspace} {opened : Service}
    {final : Situation}
    (constructed : (Service.openFolder folder).start workspace = (.ok opened, later))
    (run : Run ⟨opened, .idle⟩ final) : final.service.jobs.Attributed := by
  induction run with
  | refl =>
    intro id job found
    exact .inl ((Service.openFolder_eq_ok constructed).2 id job found)
  | tail before step induction =>
    exact attributed_step ((Orderly.opened constructed).run before) induction step

/-! ## Refusals -/

namespace Service

/-- The submission of a text is refused because of a job that stands in the way. -/
def Refuses (service : Service) (now : Time.Moment) (written : String) (job : Job) : Prop :=
  ∃ label remembered, Submittable (Text.strip written) label ∧
    service.forgetOld now = .ok remembered ∧
    remembered.blocking now (jobName label.fullName) = .ok (some job)

variable {service : Service} {now : Time.Moment} {written : String} {job : Job}

theorem ne_empty_of_submittable {address : String} (submittable : Submittable address label) :
    address.isEmpty = false := by
  cases empty : address.isEmpty with
  | false => rfl
  | true =>
    have accepted := submittable.accepted
    rw [String.isEmpty_iff.mp empty] at accepted
    revert accepted
    decide +kernel

theorem Refuses.answer (refuses : service.Refuses now written job) (isThere : String → Bool)
    (commit : String) :
    ∃ remembered, service.forgetOld now = .ok remembered ∧
      service.submit now isThere (some written) commit = (remembered, do
        return .page (Page.home service.engine (some ⟨false, blockedMessage job⟩)
          (Text.strip written) (Text.strip commit) (← remembered.jobs.newestFirst))) := by
  rcases refuses with ⟨label, remembered, submittable, forgotten, blocked⟩
  refine ⟨remembered, forgotten, ?_⟩
  have answered : remembered.submitAddress now isThere (Text.strip written) (Text.strip commit) =
      (remembered, .ok (⟨false, blockedMessage job⟩, Text.strip written)) := by
    simp only [submitAddress, ne_empty_of_submittable submittable, submittable.accepted,
      submittable.named, blocked]
    rfl
  simp only [submit, forgotten, answered]
  rfl

theorem Refuses.entered (refuses : service.Refuses now written job)
    (attributed : service.jobs.Attributed) (submittable : Submittable (Text.strip written) label) :
    ∃ address other, EnteredFor (jobName label.fullName) job address other := by
  rcases refuses with ⟨same, remembered, again, forgotten, blocked⟩
  cases again.named.symm.trans submittable.named
  rcases blocking_eq_some_iff.mp blocked with ⟨found, blocks⟩
  have kept := attributed.carried (forgetOld_eq_ok forgotten).1
  refine (kept _ job found).resolve_left fun completed => ?_
  rcases bind_eq_ok_iff.mp blocks with ⟨limit, _, decided⟩
  rw [completed] at decided
  cases decided

theorem refuses_of_open {remembered : Service} {limit : Time.Moment}
    (submittable : Submittable (Text.strip written) label)
    (forgotten : service.forgetOld now = .ok remembered) (inTime : now.earlier cooldown = .ok limit)
    (found : service.jobs.get? (jobName label.fullName) = some job) (isOpen : job.isOpen = true) :
    service.Refuses now written job := by
  have stays := (forgetOld_eq_ok forgotten).1.stays _ job found isOpen
  refine ⟨label, remembered, submittable, forgotten, blocking_eq_some_iff.mpr ⟨stays, ?_⟩⟩
  refine bind_eq_ok_iff.mpr ⟨limit, inTime, ?_⟩
  rcases Job.isOpen_iff.mp isOpen with queued | processing
  · rw [queued]
    rfl
  · rw [processing]
    rfl

theorem submit_of_clear {remembered : Service}
    (submittable : Submittable (Text.strip written) label)
    (forgotten : service.forgetOld now = .ok remembered)
    (clear : remembered.blocking now (jobName label.fullName) = .ok none)
    (uncached : remembered.cache.index = .empty) (isThere : String → Bool) :
    (service.submit now isThere (some written) "").1 =
      remembered.enqueue (jobName label.fullName)
        (.waiting (jobName label.fullName) (normalized (Text.strip written)) now none) := by
  have looked : remembered.cache.lookUp now (normalized (Text.strip written)) =
      .ok (remembered.cache, .null) := by
    rw [Cache.lookUp, uncached]
    rfl
  simp only [submit, forgotten, submitAddress, ne_empty_of_submittable submittable,
    submittable.accepted, submittable.named, clear, takeIn, looked]
  rfl

/-- A moment that is late enough to look back from. -/
def someday : Time.Moment := ⟨63000000000000000, none⟩

theorem submit_fresh (submittable : Submittable (Text.strip written) label)
    (isThere : String → Bool) :
    (fresh.submit someday isThere (some written) "").1 =
      fresh.enqueue (jobName label.fullName)
        (.waiting (jobName label.fullName) (normalized (Text.strip written)) someday none) :=
  submit_of_clear submittable (rfl : fresh.forgetOld someday = .ok fresh) rfl rfl isThere

end Service

theorem refused_after_submission {first second : String}
    (submittable : Submittable (Text.strip first) label)
    (again : Submittable (Text.strip second) other)
    (same : jobName label.fullName = jobName other.fullName) :
    ∃ final job, Run ⟨Service.fresh, .idle⟩ final ∧ final.service.Refuses Service.someday second job ∧
      job.address = .text (normalized (Text.strip first)) := by
  have entered := Service.submit_fresh submittable Service.bare.disk.exists?
  have step :=
    (StepAt.of_submit Service.fresh .idle Service.someday Service.bare (some first) "").step
  rw [entered] at step
  refine ⟨_, .waiting (jobName label.fullName) (normalized (Text.strip first)) Service.someday none,
    .single step, Service.refuses_of_open again rfl rfl ?_ rfl, rfl⟩
  rw [← same]
  exact OrderedMap.get?_insert_self _ _ _

/-- When submissions get into each other's way. -/
theorem submissions_confused_iff {first second : String} {label other : Label}
    (submittable : Submittable (Text.strip first) label)
    (again : Submittable (Text.strip second) other) :
    (jobName label.fullName = jobName other.fullName ↔ label.Confusable other) ∧
    ((∃ folder workspace later opened final now job,
        (Service.openFolder folder).start workspace = (.ok opened, later) ∧
        Run ⟨opened, .idle⟩ final ∧ final.service.Refuses now second job ∧
        job.address = .text (normalized (Text.strip first))) ↔ label.Confusable other) ∧
    ∀ service now job, Service.Refuses service now second job → ∀ isThere commit,
      ∃ remembered, service.forgetOld now = .ok remembered ∧
        service.submit now isThere (some second) commit = (remembered, do
          return .page (Page.home service.engine (some ⟨false, Service.blockedMessage job⟩)
            (Text.strip second) (Text.strip commit) (← remembered.jobs.newestFirst))) := by
  have names := jobName_eq_iff (Hosting.plain_of_label submittable.named)
    (Hosting.plain_of_label again.named)
  refine ⟨names, ?_, fun service now job refuses => refuses.answer⟩
  rw [← names]
  constructor
  · rintro ⟨folder, workspace, later, opened, final, now, job, constructed, run, refuses, atFirst⟩
    rcases refuses.entered (attributed_run constructed run) again with ⟨address, source, entered⟩
    -- The job's address gives back the label that it was entered for.
    have sameAddress : normalized address = normalized (Text.strip first) := by
      have texts := entered.address.symm.trans atFirst
      injection texts
    have sameLabel := entered.submittable.named
    rw [sameAddress, submittable.named] at sameLabel
    cases sameLabel
    exact entered.id.symm
  · intro same
    rcases refused_after_submission submittable again same with ⟨final, job, run, refuses, atFirst⟩
    exact ⟨"/cache", Service.bare, Service.bare, Service.fresh, final, Service.someday, job,
      Service.start_openFolder_bare, run, refuses, atFirst⟩

/-- Two repositories of one owner do not get into each other's way. -/
theorem siblings_not_confused :
    Submittable (Text.strip "https://github.com/owner/first") ⟨"owner", "first"⟩ ∧
    Submittable (Text.strip " http://www.github.com/owner/second.git") ⟨"owner", "second"⟩ ∧
    ¬ ∃ folder workspace later opened final now job,
      (Service.openFolder folder).start workspace = (.ok opened, later) ∧
      Run ⟨opened, .idle⟩ final ∧
      final.service.Refuses now " http://www.github.com/owner/second.git" job ∧
      job.address = .text (normalized (Text.strip "https://github.com/owner/first")) := by
  have first : Submittable (Text.strip "https://github.com/owner/first") ⟨"owner", "first"⟩ :=
    ⟨by decide +kernel, by decide +kernel⟩
  have second : Submittable (Text.strip " http://www.github.com/owner/second.git")
      ⟨"owner", "second"⟩ :=
    ⟨by decide +kernel, by decide +kernel⟩
  have different : jobName (Label.fullName ⟨"owner", "first"⟩) ≠
      jobName (Label.fullName ⟨"owner", "second"⟩) := by
    decide
  have confused := submissions_confused_iff first second
  refine ⟨first, second, fun refused => different ?_⟩
  exact confused.1.mpr (confused.2.1.mp refused)

/-- The hyphens of two different repositories make one name, and the second of them is refused. -/
theorem hyphens_confused :
    Submittable (Text.strip "https://github.com/a/b--c") ⟨"a", "b--c"⟩ ∧
    Submittable (Text.strip "https://github.com/a--b/c") ⟨"a--b", "c"⟩ ∧
    jobName (Label.fullName ⟨"a", "b--c"⟩) = jobName (Label.fullName ⟨"a--b", "c"⟩) ∧
    ∃ final job, Run ⟨Service.fresh, .idle⟩ final ∧
      final.service.Refuses Service.someday "https://github.com/a--b/c" job ∧
      job.address = .text (normalized (Text.strip "https://github.com/a/b--c")) := by
  have first : Submittable (Text.strip "https://github.com/a/b--c") ⟨"a", "b--c"⟩ :=
    ⟨by decide +kernel, by decide +kernel⟩
  have second : Submittable (Text.strip "https://github.com/a--b/c") ⟨"a--b", "c"⟩ :=
    ⟨by decide +kernel, by decide +kernel⟩
  have same : jobName (Label.fullName ⟨"a", "b--c"⟩) = jobName (Label.fullName ⟨"a--b", "c"⟩) := by
    decide
  exact ⟨first, second, same, refused_after_submission first second same⟩

end Server

end CodeAtlas
