import CodeAtlas.Workspace.Basic

/-!
How runs on a workspace are put together: what comes out of a run and which workspace it leaves, for
each way to build it from smaller runs. The first section does the same for results that may be
faults.
-/

namespace CodeAtlas

open List

/-! ## Results -/

variable {ε α β : Type}

theorem bind_eq_ok_iff {result : Except ε α} {next : α → Except ε β} {value : β} :
    (result >>= next) = .ok value ↔ ∃ middle, result = .ok middle ∧ next middle = .ok value := by
  cases result with
  | error cause => simp [bind, Except.bind]
  | ok middle => simp [bind, Except.bind]

theorem exists_bind_eq_ok {result : Except ε α} {next : α → Except ε β} {middle : α}
    (first : result = .ok middle) (onward : ∃ value, next middle = .ok value) :
    ∃ value, (result >>= next) = .ok value := by
  rw [first]
  exact onward

theorem mem_filterMapM_iff {select : α → Except ε (Option β)} {items : List α} {selected : List β}
    (run : items.filterMapM select = .ok selected) (result : β) :
    result ∈ selected ↔ ∃ item ∈ items, select item = .ok (some result) := by
  induction items generalizing selected with
  | nil =>
    rw [filterMapM_nil] at run
    cases run
    simp
  | cons item rest induction =>
    rw [filterMapM_cons] at run
    cases chosen : select item with
    | error cause => simp [chosen, bind, Except.bind] at run
    | ok choice =>
      cases choice with
      | none =>
        have later : rest.filterMapM select = .ok selected := by
          simpa [chosen, bind, Except.bind] using run
        simp [induction later, chosen]
      | some first =>
        cases later : rest.filterMapM select with
        | error cause => simp [chosen, later, bind, Except.bind] at run
        | ok others =>
          have whole : first :: others = selected := by
            simpa [chosen, later, bind, Except.bind, pure, Except.pure] using run
          rw [← whole]
          simp [induction later, chosen, eq_comm]

theorem exists_of_mem_mapM {step : α → Except ε β} {items : List α} {results : List β}
    (run : items.mapM step = .ok results) {result : β} (member : result ∈ results) :
    ∃ item ∈ items, step item = .ok result := by
  induction items generalizing results with
  | nil =>
    rw [mapM_nil] at run
    cases run
    exact absurd member not_mem_nil
  | cons item rest induction =>
    rw [mapM_cons] at run
    rcases bind_eq_ok_iff.mp run with ⟨first, here, run⟩
    rcases bind_eq_ok_iff.mp run with ⟨others, later, whole⟩
    cases whole
    rcases mem_cons.mp member with rfl | further
    · exact ⟨item, mem_cons_self, here⟩
    · rcases induction later further with ⟨other, present, gave⟩
      exact ⟨other, mem_cons_of_mem item present, gave⟩

theorem map_of_mapM {γ : Type} {step : α → Except ε β} {label : β → γ} {name : α → γ}
    (each : ∀ item value, step item = .ok value → label value = name item) {items : List α}
    {results : List β} (run : items.mapM step = .ok results) :
    results.map label = items.map name := by
  induction items generalizing results with
  | nil =>
    rw [mapM_nil] at run
    cases run
    rfl
  | cons item rest induction =>
    rw [mapM_cons] at run
    rcases bind_eq_ok_iff.mp run with ⟨first, here, run⟩
    rcases bind_eq_ok_iff.mp run with ⟨others, later, whole⟩
    cases whole
    rw [map_cons, map_cons, each item first here, induction later]

theorem exists_mapM {step : α → Except ε β} {items : List α}
    (each : ∀ item ∈ items, ∃ value, step item = .ok value) :
    ∃ values, items.mapM step = .ok values := by
  induction items with
  | nil => exact ⟨[], rfl⟩
  | cons item rest induction =>
    rcases each item mem_cons_self with ⟨value, here⟩
    rcases induction fun other member => each other (mem_cons_of_mem item member) with
      ⟨values, others⟩
    refine ⟨value :: values, ?_⟩
    rw [mapM_cons, here]
    simp [bind, Except.bind, others, pure, Except.pure]

theorem exists_filterMapM {select : α → Except ε (Option β)} {items : List α}
    (each : ∀ item ∈ items, ∃ choice, select item = .ok choice) :
    ∃ selected, items.filterMapM select = .ok selected := by
  induction items with
  | nil => exact ⟨[], rfl⟩
  | cons item rest induction =>
    rcases each item mem_cons_self with ⟨choice, chosen⟩
    rcases induction fun other member => each other (mem_cons_of_mem item member) with
      ⟨selected, others⟩
    rw [filterMapM_cons, chosen]
    cases choice with
    | none => exact ⟨selected, others⟩
    | some value => exact ⟨value :: selected, by simp [bind, Except.bind, others, pure, Except.pure]⟩

/-! ## Workspaces -/

def Workspace.advanced (workspace : Workspace) (words : List String) : Workspace :=
  { workspace with
    outcomes := workspace.outcomes.drop 1
    commands := workspace.commands ++ [words] }

end CodeAtlas

/-! ## Runs -/

namespace CodeAtlas.Work

variable {α β : Type} (workspace : Workspace)

@[simp] theorem start_pure (value : α) :
    (pure value : Work α).start workspace = (.ok value, workspace) :=
  rfl

/-- Returning early from a part of a run ends this part with the result as an exception. -/
@[simp] theorem start_return (value : β) :
    Work.start (EarlyReturnT.return value : EarlyReturnT β Work α) workspace =
      (.ok (.error value), workspace) :=
  rfl

@[simp] theorem start_throw (problem : Problem) :
    (throw problem : Work α).start workspace = (.error problem, workspace) :=
  rfl

@[simp] theorem start_get : (get : Work Workspace).start workspace = (.ok workspace, workspace) :=
  rfl

@[simp] theorem start_set (later : Workspace) :
    (set later : Work PUnit).start workspace = (.ok (), later) :=
  rfl

@[simp] theorem start_modify (change : Workspace → Workspace) :
    (modify change : Work PUnit).start workspace = (.ok (), change workspace) :=
  rfl

@[simp] theorem start_setDisk (disk : Disk) :
    (setDisk disk).start workspace = (.ok (), { workspace with disk }) :=
  rfl

@[simp] theorem start_disk : disk.start workspace = (.ok workspace.disk, workspace) :=
  rfl

theorem start_bind (work : Work α) (next : α → Work β) :
    (work >>= next).start workspace =
      match work.start workspace with
      | (.ok value, later) => (next value).start later
      | (.error problem, later) => (.error problem, later) := by
  simp only [start, ExceptT.run_bind, StateT.run_bind]
  rcases StateT.run (ExceptT.run work) workspace with ⟨result, later⟩
  cases result with
  | ok value => rfl
  | error problem => rfl

theorem start_bind_eq_ok_iff {workspace later : Workspace} {work : Work α} {next : α → Work β}
    {value : β} :
    (work >>= next).start workspace = (.ok value, later) ↔
      ∃ middle between, work.start workspace = (.ok middle, between) ∧
        (next middle).start between = (.ok value, later) := by
  rw [start_bind]
  rcases work.start workspace with ⟨result, between⟩
  cases result with
  | ok middle =>
    constructor
    · exact fun run => ⟨middle, between, rfl, run⟩
    · rintro ⟨_, _, same, run⟩
      cases same
      exact run
  | error problem => simp

/-- What holds before a loop and is kept by each turn holds after it. -/
theorem forIn_invariant {items : List α} {turn : α → β → Work (ForInStep β)} {before after : β}
    {invariant : β → Prop} {workspace later : Workspace} (initially : invariant before)
    (each : ∀ item ∈ items, ∀ state step workspace later, invariant state →
      (turn item state).start workspace = (.ok step, later) → invariant step.value)
    (run : (forIn items before turn).start workspace = (.ok after, later)) : invariant after := by
  induction items generalizing before workspace with
  | nil =>
    rw [List.forIn_nil] at run
    cases run
    exact initially
  | cons item rest induction =>
    rw [List.forIn_cons] at run
    rcases start_bind_eq_ok_iff.mp run with ⟨step, between, turned, run⟩
    have kept := each item List.mem_cons_self before step workspace between initially turned
    cases step with
    | done state =>
      cases run
      exact kept
    | yield state =>
      exact induction kept (fun other member => each other (List.mem_cons_of_mem item member)) run

theorem start_tryCatch (work : Work α) (handle : Problem → Work α) :
    (tryCatch work handle).start workspace =
      match work.start workspace with
      | (.ok value, later) => (.ok value, later)
      | (.error problem, later) => (handle problem).start later := by
  rcases run : work.start workspace with ⟨result, later⟩
  have direct : StateT.run work workspace = (result, later) := run
  simp only [start, tryCatch, tryCatchThe, MonadExceptOf.tryCatch, ExceptT.tryCatch, ExceptT.run_mk,
    StateT.run_bind, direct]
  cases result with
  | ok value => rfl
  | error problem => rfl

theorem start_ofExcept (result : Except Fault α) :
    (ofExcept result).start workspace = (result.mapError .fault, workspace) := by
  cases result with
  | ok value => rfl
  | error cause => rfl

@[simp] theorem start_ofExcept_ok (value : α) :
    (ofExcept (.ok value)).start workspace = (.ok value, workspace) :=
  rfl

@[simp] theorem start_ofExcept_error (cause : Fault) :
    (ofExcept (.error cause) : Work α).start workspace = (.error (.fault cause), workspace) :=
  rfl

theorem start_ofExcept_eq_ok_iff {workspace later : Workspace} {result : Except Fault α}
    {value : α} :
    (ofExcept result).start workspace = (.ok value, later) ↔
      result = .ok value ∧ workspace = later := by
  cases result with
  | ok found => simp
  | error cause => simp

theorem start_makeDirectories (path : String) :
    (makeDirectories path).start workspace =
      match workspace.disk.makeDirectories path with
      | .ok made => (.ok (), { workspace with disk := made })
      | .error cause => (.error (.fault cause), workspace) := by
  simp only [makeDirectories, start_bind, start_disk, start_ofExcept]
  cases workspace.disk.makeDirectories path with
  | ok made => rfl
  | error cause => rfl

theorem start_writeText (path text : String) :
    (writeText path text).start workspace =
      match workspace.disk.write path text with
      | .ok written => (.ok (), { workspace with disk := written })
      | .error cause => (.error (.fault cause), workspace) := by
  simp only [writeText, start_bind, start_disk, start_ofExcept]
  cases workspace.disk.write path text with
  | ok written => rfl
  | error cause => rfl

theorem start_readText (path : String) :
    (readText path).start workspace =
      ((Text.unifyBreaks <$> workspace.disk.read path).mapError .fault, workspace) := by
  simp only [readText, start_bind, start_disk, start_ofExcept]
  cases workspace.disk.read path with
  | ok text => rfl
  | error cause => rfl

/-! ## Runs that look at nothing but the disk -/

/-- On every workspace with a disk, a run ends with the same result and leaves the same disk. -/
structure Ends (work : Work α) (disk : Disk) (result : Except Problem α) (later : Disk) : Prop where
  run : ∀ workspace : Workspace, workspace.disk = disk →
    (work.start workspace).1 = result ∧ (work.start workspace).2.disk = later

section Ends

variable {disk middle later : Disk}

theorem ends_pure (value : α) : Ends (pure value) disk (.ok value) disk :=
  ⟨fun _ same => ⟨rfl, same⟩⟩

theorem Ends.bind {work : Work α} {next : α → Work β} {value : α} {result : Except Problem β}
    (first : Ends work disk (.ok value) middle) (onward : Ends (next value) middle result later) :
    Ends (work >>= next) disk result later := by
  constructor
  intro workspace same
  rcases ran : work.start workspace with ⟨outcome, between⟩
  have here := first.run workspace same
  rw [ran] at here
  rcases here with ⟨rfl, left⟩
  rw [start_bind, ran]
  exact onward.run between left

theorem Ends.stop {work : Work α} {problem : Problem} (first : Ends work disk (.error problem) later)
    (next : α → Work β) : Ends (work >>= next) disk (.error problem) later := by
  constructor
  intro workspace same
  rcases ran : work.start workspace with ⟨outcome, between⟩
  have here := first.run workspace same
  rw [ran] at here
  rcases here with ⟨rfl, left⟩
  rw [start_bind, ran]
  exact ⟨rfl, left⟩

theorem Ends.exists_start {work : Work α} {result : Except Problem α} {workspace : Workspace}
    (ends : Ends work workspace.disk result later) :
    ∃ left, work.start workspace = (result, left) ∧ left.disk = later := by
  rcases ends.run workspace rfl with ⟨came, same⟩
  exact ⟨(work.start workspace).2, Prod.ext came rfl, same⟩

theorem ends_disk : Ends Work.disk disk (.ok disk) disk :=
  ⟨fun _ same => ⟨congrArg Except.ok same, same⟩⟩

theorem ends_printLine (text : String) : Ends (printLine text) disk (.ok ()) disk :=
  ⟨fun _ same => ⟨rfl, same⟩⟩

theorem ends_ofExcept (result : Except Fault α) :
    Ends (ofExcept result) disk (result.mapError .fault) disk := by
  constructor
  intro workspace same
  rw [start_ofExcept]
  exact ⟨rfl, same⟩

theorem ends_ofExcept_of_ok {result : Except Fault α} {value : α} (found : result = .ok value) :
    Ends (ofExcept result) disk (.ok value) disk := by
  subst found
  exact ends_ofExcept (.ok value)

theorem ends_makeDirectories {path : String} (run : disk.makeDirectories path = .ok later) :
    Ends (makeDirectories path) disk (.ok ()) later := by
  constructor
  rintro workspace rfl
  rw [start_makeDirectories, run]
  exact ⟨rfl, rfl⟩

theorem ends_writeText {path text : String} (run : disk.write path text = .ok later) :
    Ends (writeText path text) disk (.ok ()) later := by
  constructor
  rintro workspace rfl
  rw [start_writeText, run]
  exact ⟨rfl, rfl⟩

theorem ends_readText {path text : String} (found : disk.read path = .ok text) :
    Ends (readText path) disk (.ok (Text.unifyBreaks text)) disk := by
  constructor
  rintro workspace rfl
  rw [start_readText, found]
  exact ⟨rfl, rfl⟩

end Ends

/-- A run succeeds, and something holds of what comes out and of the disk that it leaves. -/
def Succeeds (work : Work α) (disk : Disk) (goal : α → Disk → Prop) : Prop :=
  ∃ value later, Ends work disk (.ok value) later ∧ goal value later

section Succeeds

variable {disk : Disk} {goal : α → Disk → Prop}

theorem succeeds_pure {value : α} (holds : goal value disk) : Succeeds (pure value) disk goal :=
  ⟨value, disk, ends_pure value, holds⟩

theorem Succeeds.after {work : Work β} {next : β → Work α} {value : β} {later : Disk}
    (first : Ends work disk (.ok value) later) (onward : Succeeds (next value) later goal) :
    Succeeds (work >>= next) disk goal := by
  rcases onward with ⟨result, last, further, reached⟩
  exact ⟨result, last, first.bind further, reached⟩

theorem Succeeds.bind {work : Work β} {next : β → Work α} {between : β → Disk → Prop}
    (first : Succeeds work disk between)
    (onward : ∀ value later, between value later → Succeeds (next value) later goal) :
    Succeeds (work >>= next) disk goal := by
  rcases first with ⟨value, later, ends, holds⟩
  exact .after ends (onward value later holds)

theorem Succeeds.mono {work : Work α} {weaker : α → Disk → Prop} (succeeds : Succeeds work disk goal)
    (implied : ∀ value later, goal value later → weaker value later) :
    Succeeds work disk weaker := by
  rcases succeeds with ⟨value, later, ends, holds⟩
  exact ⟨value, later, ends, implied value later holds⟩

theorem Succeeds.printed {text : String} {next : Unit → Work α}
    (onward : Succeeds (next ()) disk goal) : Succeeds (printLine text >>= next) disk goal :=
  .after (ends_printLine text) onward

theorem succeeds_mapM {γ : Type} {items : List β} {step : β → Work α} (label : β → γ)
    (labelled : α → γ)
    (each : ∀ item ∈ items, Succeeds (step item) disk fun value later =>
      disk = later ∧ labelled value = label item) :
    Succeeds (items.mapM step) disk fun values later =>
      disk = later ∧ values.map labelled = items.map label := by
  induction items with
  | nil => exact succeeds_pure ⟨rfl, rfl⟩
  | cons item rest induction =>
    rw [List.mapM_cons]
    apply (each item List.mem_cons_self).bind
    rintro value _ ⟨rfl, same⟩
    apply (induction fun other member => each other (List.mem_cons_of_mem item member)).bind
    rintro values _ ⟨rfl, others⟩
    apply succeeds_pure
    exact ⟨rfl, by rw [List.map_cons, List.map_cons, same, others]⟩

theorem succeeds_foldlM {items : List β} {step : α → β → Work α}
    (holds : List β → α → Disk → Prop) {state : α} (initially : holds [] state disk)
    (each : ∀ before item after, items = before ++ item :: after → ∀ state disk,
      holds before state disk → Succeeds (step state item) disk (holds (before ++ [item]))) :
    Succeeds (items.foldlM step state) disk (holds items) := by
  have further : ∀ rest before, items = before ++ rest → ∀ state disk,
      holds before state disk → Succeeds (rest.foldlM step state) disk (holds items) := by
    intro rest
    induction rest with
    | nil =>
      intro before whole state disk reached
      rw [List.append_nil] at whole
      exact succeeds_pure (whole ▸ reached)
    | cons item rest induction =>
      intro before whole state disk reached
      rw [List.foldlM_cons]
      apply (each before item rest whole state disk reached).bind
      intro next later reached
      apply induction (before ++ [item])
      · rw [whole, List.append_assoc, List.singleton_append]
      · exact reached
  exact further items [] rfl state disk initially

end Succeeds

/-! ## What runs keep -/

/-- Whether a run succeeds or stops early, what holds of the workspace before holds after it. -/
structure Keeps (invariant : Workspace → Prop) (work : Work α) : Prop where
  after : ∀ workspace, invariant workspace → invariant (work.start workspace).2

section Keeps

variable {invariant : Workspace → Prop}

theorem keeps_pure (value : α) : Keeps invariant (pure value : Work α) :=
  ⟨fun _ holds => holds⟩

theorem keeps_throw (problem : Problem) : Keeps invariant (throw problem : Work α) :=
  ⟨fun _ holds => holds⟩

theorem keeps_get : Keeps invariant (get : Work Workspace) :=
  ⟨fun _ holds => holds⟩

theorem keeps_disk : Keeps invariant disk :=
  ⟨fun _ holds => holds⟩

theorem keeps_ofExcept (result : Except Fault α) : Keeps invariant (ofExcept result) := by
  constructor
  intro workspace holds
  rw [start_ofExcept]
  exact holds

theorem keeps_modify {change : Workspace → Workspace}
    (kept : ∀ workspace, invariant workspace → invariant (change workspace)) :
    Keeps invariant (modify change : Work PUnit) :=
  ⟨fun workspace holds => kept workspace holds⟩

theorem keeps_setDisk {disk : Disk}
    (kept : ∀ workspace, invariant workspace → invariant { workspace with disk }) :
    Keeps invariant (setDisk disk) :=
  ⟨fun workspace holds => kept workspace holds⟩

theorem keeps_makeDirectories (kept : ∀ workspace disk, invariant workspace →
    invariant { workspace with disk }) (path : String) : Keeps invariant (makeDirectories path) := by
  constructor
  intro workspace holds
  rw [start_makeDirectories]
  cases workspace.disk.makeDirectories path with
  | ok made => exact kept workspace made holds
  | error cause => exact holds

theorem keeps_writeText (kept : ∀ workspace disk, invariant workspace →
    invariant { workspace with disk }) (path text : String) :
    Keeps invariant (writeText path text) := by
  constructor
  intro workspace holds
  rw [start_writeText]
  cases workspace.disk.write path text with
  | ok written => exact kept workspace written holds
  | error cause => exact holds

theorem Keeps.and {other : Workspace → Prop} {work : Work α} (first : Keeps invariant work)
    (second : Keeps other work) :
    Keeps (fun workspace => invariant workspace ∧ other workspace) work :=
  ⟨fun workspace holds => ⟨first.after workspace holds.1, second.after workspace holds.2⟩⟩

theorem Keeps.bind {work : Work α} {next : α → Work β} (first : Keeps invariant work)
    (later : ∀ value, Keeps invariant (next value)) : Keeps invariant (work >>= next) := by
  constructor
  intro workspace holds
  have between := first.after workspace holds
  rw [start_bind]
  rcases run : work.start workspace with ⟨result, middle⟩
  rw [run] at between
  cases result with
  | ok value => exact (later value).after middle between
  | error problem => exact between

theorem Keeps.tryCatch {work : Work α} {handle : Problem → Work α} (first : Keeps invariant work)
    (later : ∀ problem, Keeps invariant (handle problem)) :
    Keeps invariant (MonadExcept.tryCatch work handle) := by
  constructor
  intro workspace holds
  have between := first.after workspace holds
  rw [start_tryCatch]
  rcases run : work.start workspace with ⟨result, middle⟩
  rw [run] at between
  cases result with
  | ok value => exact between
  | error problem => exact (later problem).after middle between

theorem keeps_forIn {items : List α} {turn : α → β → Work (ForInStep β)}
    (each : ∀ item ∈ items, ∀ state, Keeps invariant (turn item state)) (state : β) :
    Keeps invariant (forIn items state turn) := by
  induction items generalizing state with
  | nil => exact keeps_pure state
  | cons item rest induction =>
    rw [List.forIn_cons]
    apply (each item List.mem_cons_self state).bind
    intro step
    cases step with
    | done state => exact keeps_pure state
    | yield state =>
      exact induction (fun other member => each other (List.mem_cons_of_mem item member)) state

/-! ## Commands -/

theorem keeps_leaveFiles (kept : ∀ workspace disk, invariant workspace →
    invariant { workspace with disk }) (folder : String) (files : List (String × FileTree)) :
    Keeps invariant (leaveFiles folder files) := by
  rw [leaveFiles]
  apply Keeps.bind _ fun _ => keeps_pure _
  apply keeps_forIn
  intro file _ _
  apply (keeps_makeDirectories kept _).bind
  intro _
  exact keeps_disk.bind fun _ =>
    (keeps_setDisk fun workspace => kept workspace _).bind fun _ => keeps_pure _

theorem start_command (words : List String) (folder : String) :
    (command words folder).start workspace =
      match (leaveFiles folder workspace.nextOutcome.files).start (workspace.advanced words) with
      | (.ok _, later) => (.ok workspace.nextOutcome, later)
      | (.error problem, later) => (.error problem, later) := by
  simp only [command, start_bind, start_get, start_set, start_pure, Workspace.advanced]
  rcases (leaveFiles folder workspace.nextOutcome.files).start _ with ⟨result, later⟩
  cases result with
  | ok value => rfl
  | error problem => rfl

theorem keeps_command (changed : ∀ workspace disk, invariant workspace →
    invariant { workspace with disk }) (advances : ∀ workspace words, invariant workspace →
    invariant (workspace.advanced words)) (words : List String) (folder : String) :
    Keeps invariant (command words folder) := by
  constructor
  intro workspace holds
  have left := (keeps_leaveFiles changed folder workspace.nextOutcome.files).after _
    (advances workspace words holds)
  rw [start_command]
  rcases run : (leaveFiles folder workspace.nextOutcome.files).start
    (workspace.advanced words) with ⟨result, later⟩
  rw [run] at left
  cases result with
  | ok value => exact left
  | error problem => exact left

end Keeps

end CodeAtlas.Work
