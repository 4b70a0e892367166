import CodeAtlas.Git.Documentation
import CodeAtlas.Proofs.Decimal
import CodeAtlas.Proofs.Workspace
import Mathlib.Data.List.Nodup
import Mathlib.Data.List.Perm.Subperm

/-!
The name of a new branch. Names with a number are tried one after the other until one is free. The
numbered names are all different, so a finite list cannot hold them all: the search ends, and the
number that it ends with is the least one that is free.
-/

namespace CodeAtlas.Git

variable {taken : List String} {base : String}

def numbered (base : String) (number : Nat) : String := base ++ "-" ++ Decimal.natText number

theorem numbered_injective (base : String) : Function.Injective (numbered base) := by
  intro left right same
  have digits : Nat.toDigits 10 left = Nat.toDigits 10 right := by
    have whole := congrArg String.toList same
    simp only [numbered, String.toList_append, Decimal.toList_natText] at whole
    exact List.append_cancel_left whole
  rw [← Decimal.valueFrom_toDigits left, digits, Decimal.valueFrom_toDigits]

/-- The search from one number on, without a bound, ends with another. -/
inductive Search (taken : List String) (base : String) : Nat → Nat → Prop
  | found {number : Nat} (free : numbered base number ∉ taken) : Search taken base number number
  | further {number last : Nat} (used : numbered base number ∈ taken)
      (onward : Search taken base (number + 1) last) : Search taken base number last

theorem Search.least {first last : Nat} (search : Search taken base first last) :
    first ≤ last ∧ numbered base last ∉ taken ∧
      ∀ number, first ≤ number → number < last → numbered base number ∈ taken := by
  induction search with
  | found free => exact ⟨Nat.le_refl _, free, fun number least below => by omega⟩
  | @further first last used onward induction =>
    rcases induction with ⟨above, free, between⟩
    refine ⟨by omega, free, fun number least below => ?_⟩
    by_cases start : number = first
    · exact start ▸ used
    · exact between number (by omega) below

theorem not_all_taken (taken : List String) (base : String) (first : Nat) :
    ¬ ∀ number, first ≤ number → number ≤ first + taken.length → numbered base number ∈ taken := by
  intro all
  have different : ((List.range' first (taken.length + 1)).map (numbered base)).Nodup :=
    List.Nodup.map (numbered_injective base) List.nodup_range'
  have within : (List.range' first (taken.length + 1)).map (numbered base) ⊆ taken := by
    intro name member
    rcases List.mem_map.mp member with ⟨number, listed, rfl⟩
    rw [List.mem_range'_1] at listed
    exact all number listed.1 (by omega)
  have fits := (different.subperm within).length_le
  rw [List.length_map, List.length_range'] at fits
  omega

theorem search_or_all_taken (taken : List String) (base : String) (bound first : Nat) :
    (∃ last, Search taken base first last ∧
      firstFreeFrom taken base bound first = numbered base last) ∨
    ∀ number, first ≤ number → number ≤ first + bound → numbered base number ∈ taken := by
  induction bound generalizing first with
  | zero =>
    by_cases used : numbered base first ∈ taken
    · right
      intro number least most
      exact (show number = first by omega) ▸ used
    · exact .inl ⟨first, .found used, rfl⟩
  | succ bound induction =>
    by_cases used : numbered base first ∈ taken
    · have step : firstFreeFrom taken base (bound + 1) first =
          firstFreeFrom taken base bound (first + 1) := by
        rw [firstFreeFrom]
        exact if_pos (List.contains_iff_mem.mpr used)
      rcases induction (first + 1) with ⟨last, search, ends⟩ | all
      · exact .inl ⟨last, .further used search, step.trans ends⟩
      · right
        intro number least most
        by_cases start : number = first
        · exact start ▸ used
        · exact all number (by omega) (by omega)
    · refine .inl ⟨first, .found used, ?_⟩
      rw [firstFreeFrom]
      exact if_neg fun listed => used (List.contains_iff_mem.mp listed)

/-- With as many tries as there are names, the bounded search is the search. -/
theorem exists_search (taken : List String) (base : String) (first : Nat) :
    ∃ last, Search taken base first last ∧
      firstFreeFrom taken base taken.length first = numbered base last :=
  (search_or_all_taken taken base taken.length first).resolve_right (not_all_taken taken base first)

/-! ## The run -/

namespace Control

variable {control : Control} {now : Time.Moment} {force : Bool} {name : String}
  {start looked listed later : Workspace}

/-- Unsaved work is not in the way: it is not asked about, or there is none. -/
def Passes (control : Control) (force : Bool) (start looked : Workspace) : Prop :=
  if force then looked = start else control.isDirty.start start = (.ok false, looked)

/-- The version control makes a branch of a name and goes over to it. -/
def Enters (control : Control) (name : String) (listed later : Workspace) : Prop :=
  ∃ made, (control.createBranch name).start listed = (.ok (), made) ∧
    (control.switchTo name).start made = (.ok (), later)

theorem start_enterBranch_eq_ok_iff :
    (control.enterBranch name).start listed = (.ok (), later) ↔
      control.Enters name listed later := by
  rw [enterBranch, Work.start_tryCatch, Enters]
  rcases run : (do control.createBranch name; control.switchTo name : Work Unit).start listed with
    ⟨result, last⟩
  cases result with
  | ok value =>
    rcases Work.start_bind_eq_ok_iff.mp run with ⟨_, made, creates, switches⟩
    constructor
    · intro same
      cases same
      exact ⟨made, creates, switches⟩
    · rintro ⟨_, createsToo, switchesToo⟩
      cases creates.symm.trans createsToo
      exact switches.symm.trans switchesToo
  | error problem =>
    have fails : ¬ ∃ made, (control.createBranch name).start listed = (.ok (), made) ∧
        (control.switchTo name).start made = (.ok (), later) := by
      rintro ⟨made, creates, switches⟩
      cases run.symm.trans (Work.start_bind_eq_ok_iff.mpr ⟨(), made, creates, switches⟩)
    refine iff_of_false ?_ fails
    cases problem <;> nofun

theorem start_createDocumentationBranch (passes : control.Passes force start looked)
    (lists : control.branches.start looked = (.ok taken, listed)) :
    (control.createDocumentationBranch now force).start start =
      (do control.enterBranch (firstFree taken (branchBase now))
          return firstFree taken (branchBase now) : Work String).start listed := by
  cases force with
  | true =>
    cases passes
    simp only [createDocumentationBranch, Bool.not_true, Bool.false_eq_true, if_false,
      Work.start_bind, lists]
  | false =>
    have clean : control.status.start start = (.ok (true, "Working directory is clean"), looked) := by
      rw [status, Work.start_bind, show control.isDirty.start start = (.ok false, looked) from passes]
      rfl
    simp only [createDocumentationBranch, Bool.not_false, if_true, Work.start_bind, clean,
      Bool.not_true, Bool.false_eq_true, if_false, lists]

theorem start_createDocumentationBranch_eq_ok_iff (passes : control.Passes force start looked)
    (lists : control.branches.start looked = (.ok taken, listed)) :
    (control.createDocumentationBranch now force).start start = (.ok name, later) ↔
      name = firstFree taken (branchBase now) ∧ control.Enters name listed later := by
  rw [start_createDocumentationBranch passes lists, Work.start_bind_eq_ok_iff]
  constructor
  · rintro ⟨_, between, enters, rest⟩
    cases rest
    exact ⟨rfl, start_enterBranch_eq_ok_iff.mp enters⟩
  · rintro ⟨rfl, enters⟩
    exact ⟨(), later, start_enterBranch_eq_ok_iff.mpr enters, rfl⟩

end Control

/-- Where unsaved work is not in the way and the version control lists some branches, a run ends with
a name exactly if this is the name that was searched for and the version control makes the branch.
The search ends for every list of branches and every time, with the least name that is free. -/
theorem branch_name_free_and_least (taken : List String) (now : Time.Moment) :
    (∀ (control : Control) force start looked listed later name,
      control.Passes force start looked →
      control.branches.start looked = (.ok taken, listed) →
      ((control.createDocumentationBranch now force).start start = (.ok name, later) ↔
        name = firstFree taken (branchBase now) ∧ control.Enters name listed later)) ∧
    firstFree taken (branchBase now) ∉ taken ∧
    (branchBase now ∉ taken → firstFree taken (branchBase now) = branchBase now) ∧
    (branchBase now ∈ taken → ∃ number, Search taken (branchBase now) 1 number ∧ 1 ≤ number ∧
      firstFree taken (branchBase now) = numbered (branchBase now) number ∧
      ∀ smaller, 1 ≤ smaller → smaller < number → numbered (branchBase now) smaller ∈ taken) := by
  refine ⟨fun control force start looked listed later name passes lists =>
    Control.start_createDocumentationBranch_eq_ok_iff passes lists, ?_⟩
  rcases exists_search taken (branchBase now) 1 with ⟨number, search, ends⟩
  rcases search.least with ⟨positive, free, between⟩
  by_cases used : branchBase now ∈ taken
  · have name : firstFree taken (branchBase now) = numbered (branchBase now) number := by
      rw [firstFree, if_pos (List.contains_iff_mem.mpr used), ends]
    exact ⟨name ▸ free, fun unused => absurd used unused,
      fun _ => ⟨number, search, positive, name, between⟩⟩
  · have name : firstFree taken (branchBase now) = branchBase now :=
      if_neg fun listed => used (List.contains_iff_mem.mp listed)
    exact ⟨name.symm ▸ used, fun _ => name, fun member => absurd member used⟩

/-- A version control with some branches that prints what it is asked for. -/
def Control.printing (taken : List String) : Control where
  isDirty := return false
  changed := return []
  untracked := return []
  branches := return taken
  createBranch name := Work.printLine ("branch " ++ name)
  switchTo name := Work.printLine ("checkout " ++ name)

def takenTwice : List String :=
  ["main", "docs/gatowiki-20240102-030405", "docs/gatowiki-20240102-030405-1"]

/-- At a time whose name and first number are taken, a run ends with the second number. -/
theorem second_number_made :
    branchBase ⟨63839761445000000, none⟩ ∈ takenTwice ∧
      (Control.printing takenTwice).Passes false { disk := .empty } { disk := .empty } ∧
      ((Control.printing takenTwice).createDocumentationBranch ⟨63839761445000000, none⟩
        false).start { disk := .empty } =
        (.ok "docs/gatowiki-20240102-030405-2",
          { disk := .empty
            printed := "branch docs/gatowiki-20240102-030405-2\n" ++
              "checkout docs/gatowiki-20240102-030405-2\n" }) := by
  have passes : (Control.printing takenTwice).Passes false { disk := .empty } { disk := .empty } :=
    rfl
  have name : "docs/gatowiki-20240102-030405-2" =
      firstFree takenTwice (branchBase ⟨63839761445000000, none⟩) := by
    decide +kernel
  refine ⟨by decide +kernel, passes, ?_⟩
  exact ((branch_name_free_and_least takenTwice _).1 _ _ _ _ _ _ _ passes rfl).mpr
    ⟨name, _, rfl, rfl⟩

end CodeAtlas.Git
