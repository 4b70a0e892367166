import CodeAtlas.Hosting.Clone
import CodeAtlas.Proofs.Disk.Removal

/-!
How a clone is made, analysed and removed. The removal of a directory is followed entry by entry,
and the directory of a clone through the commands that are run in it.

Main statement: whatever fails, the clone is not kept among those to be removed, and its directory is
gone unless the command that clones broke off in an unknown way. Only what fails after the clone was
made is reported as a failed analysis; before that the handling of the failure fails itself.
-/

namespace CodeAtlas

open Work List

variable {before workspace made : Workspace} {place : List String} {outcome : Outcome}

def Workspace.withRoot (workspace : Workspace) (root : FileTree) : Workspace :=
  { workspace with disk := { workspace.disk with root } }

namespace Hosting

/-! ## Removing a directory -/

section Removing

variable {workspace : Workspace} {place : List String} {entries : List (String × FileTree)}

theorem start_removeNames {names : List String} (proper : workspace.disk.root.Proper)
    (found : workspace.disk.root.get? place = some (.directory entries))
    (present : ∀ name ∈ names, name ∈ entries.map Prod.fst) (distinct : names.Nodup)
    (unsealed : ∀ name, Path.below (Disk.pathOf place) name ∉ workspace.sealed) :
    ∃ root left, (removeNames (Disk.pathOf place) names).start workspace =
        (.ok (), workspace.withRoot root) ∧
      root.Proper ∧ root.get? place = some (.directory left) := by
  induction names generalizing workspace entries with
  | nil => exact ⟨workspace.disk.root, entries, rfl, proper, found⟩
  | cons name rest induction =>
    have names := forall_mem_cons.mp present
    have apart := nodup_cons.mp distinct
    have ⟨child, member⟩ : ∃ child, (name, child) ∈ entries := by simpa using names.1
    have straight := Disk.Straight.of_get? proper found rfl
    have inside := (proper.get? found).2
    have isName := (inside.child (inside.child?_iff.mpr member)).1
    have path : Path.below (Disk.pathOf place) name = Disk.pathOf (place ++ [name]) := by
      have below := Disk.below_pathOf straight.named (forall_mem_singleton.mpr isName)
        (cons_ne_nil name [])
      rwa [Text.join_singleton] at below
    have clear : Disk.pathOf (place ++ [name]) ∉ workspace.sealed := path ▸ unsealed name
    have removed := Disk.removeEntry_pathOf proper found member
    have still := FileTree.get?_remove_above found name
    have later : ∀ other ∈ rest, other ∈ (FileTree.eraseEntry name entries).map Prod.fst := by
      intro other isLater
      have different : other ≠ name := fun same => apart.1 (same ▸ isLater)
      rcases mem_map.mp (names.2 other isLater) with ⟨entry, listed, rfl⟩
      exact mem_map_of_mem (mem_filter.mpr ⟨listed, by simpa using different⟩)
    rcases @induction (workspace.withRoot (workspace.disk.root.remove (place ++ [name]))) _
      proper.remove still later apart.2 unsealed with ⟨root, left, run, kept, there⟩
    refine ⟨root, left, ?_, kept, there⟩
    have onward : (removeNames (Disk.pathOf place) (name :: rest)).start workspace =
        (removeNames (Disk.pathOf place) rest).start
          (workspace.withRoot (workspace.disk.root.remove (place ++ [name]))) := by
      simp [removeNames, path, clear, removed, start_bind, Workspace.withRoot]
    rw [onward, run]
    rfl

theorem start_removeDirectory {above : List String} {name : String}
    (proper : workspace.disk.root.Proper)
    (found : workspace.disk.root.get? (above ++ [name]) = some (.directory entries))
    (willing : workspace.refusals = 0)
    (unsealed : ∀ inner, Path.below (Disk.pathOf (above ++ [name])) inner ∉ workspace.sealed) :
    ∃ root, (removeDirectory (Disk.pathOf (above ++ [name]))).start workspace =
        (.ok (), workspace.withRoot root) ∧
      (workspace.withRoot root).disk.exists? (Disk.pathOf (above ++ [name])) = false := by
  rcases FileTree.directory_above (cons_ne_nil name []) found with ⟨others, isAbove⟩
  have straight := Disk.Straight.of_get? proper isAbove rfl
  have isName := (proper.get? found).1 name mem_concat_self
  have position := straight.entryPosition_of_directory isName isAbove
  have inside := (proper.get? found).2
  have distinct : (entries.map Prod.fst).reverse.Nodup := by
    cases inside with
    | directory ordered named below =>
      exact pairwise_reverse.mpr (ordered.imp fun less => (ne_of_lt less).symm)
  rcases start_removeNames proper found (fun name member => mem_reverse.mp member) distinct
    unsealed with ⟨root, left, run, kept, there⟩
  have removed := Disk.removeTree_pathOf
    (show (workspace.withRoot root).disk.root.Proper from kept) there
  rcases FileTree.directory_above (cons_ne_nil name []) there with ⟨_, above⟩
  have gone := Disk.exists?_remove
    (show (workspace.withRoot root).disk.root.Proper from kept) isName above
  refine ⟨root.remove (_ ++ [name]), ?_, gone⟩
  simp [removeDirectory, willing, position, found, run, removed, start_bind]
  rfl

theorem start_cleanUp {above : List String} {name : String} (platform : Platform)
    (proper : workspace.disk.root.Proper)
    (found : workspace.disk.root.get? (above ++ [name]) = some (.directory entries))
    (willing : workspace.refusals = 0)
    (unsealed : ∀ inner, Path.below (Disk.pathOf (above ++ [name])) inner ∉ workspace.sealed) :
    ∃ root, (cleanUp platform (Disk.pathOf (above ++ [name]))).start workspace =
        (.ok true, workspace.withRoot root) ∧
      (workspace.withRoot root).disk.exists? (Disk.pathOf (above ++ [name])) = false := by
  rcases start_removeDirectory proper found willing unsealed with ⟨root, run, gone⟩
  have straight := Disk.Straight.of_get? proper found rfl
  have there : workspace.disk.exists? (Disk.pathOf (above ++ [name])) = true := by
    rw [Disk.exists?, straight.get?_pathOf, found, Option.isSome_some]
  have first : (removeFirst platform (Disk.pathOf (above ++ [name]))).start workspace =
      (.ok (), workspace.withRoot root) := by
    cases platform with
    | unix => exact run
    | windows => rw [removeFirst, start_tryCatch, run]
  refine ⟨root, ?_, gone⟩
  simp [-bind_pure_comp, cleanUp, there, start_bind, start_tryCatch, first]

end Removing

/-! ## The clones that are still to be removed -/

section Clones

variable {clones : List String}

theorem keeps_clones_sealPlace (path : String) :
    Work.Keeps (fun workspace => workspace.clones = clones) (sealPlace path) :=
  keeps_disk.bind fun _ => keeps_modify fun _ same => same

theorem keeps_clones_removeNames (path : String) (names : List String) :
    Work.Keeps (fun workspace => workspace.clones = clones) (removeNames path names) := by
  induction names with
  | nil => exact keeps_pure ()
  | cons name rest induction =>
    rw [removeNames]
    apply keeps_get.bind
    intro workspace
    apply keeps_disk.bind
    intro disk
    split
    · exact keeps_throw _
    · apply keeps_disk.bind
      intro disk
      apply (keeps_ofExcept _).bind
      intro later
      exact (keeps_setDisk fun _ same => same).bind fun _ => induction

theorem keeps_clones_removeDirectory (path : String) :
    Work.Keeps (fun workspace => workspace.clones = clones) (removeDirectory path) := by
  constructor
  intro workspace same
  rw [removeDirectory, start_bind, start_get]
  dsimp only
  split
  · exact same
  · refine (show Work.Keeps (fun workspace => workspace.clones = clones) _ from ?_).after _ same
    apply (keeps_ofExcept _).bind
    intro place
    split
    · apply (keeps_clones_removeNames _ _).bind
      intro _
      apply keeps_disk.bind
      intro disk
      apply (keeps_ofExcept _).bind
      intro later
      exact keeps_setDisk fun _ same => same
    · exact keeps_throw _

theorem keeps_clones_removeFirst (platform : Platform) (path : String) :
    Work.Keeps (fun workspace => workspace.clones = clones) (removeFirst platform path) := by
  cases platform with
  | unix => exact keeps_clones_removeDirectory path
  | windows =>
    apply (keeps_clones_removeDirectory path).tryCatch
    intro problem
    cases problem with
    | fault cause =>
      dsimp only
      apply keeps_disk.bind
      intro disk
      apply (keeps_clones_sealPlace path).bind
      intro _
      split
      · exact keeps_pure ()
      · exact keeps_throw _
    | _ => exact keeps_throw _

theorem keeps_clones_removeAgain (path : String) :
    Work.Keeps (fun workspace => workspace.clones = clones) (removeAgain path) := by
  rw [removeAgain]
  apply keeps_disk.bind
  intro disk
  split
  · apply (keeps_forIn _ _).bind fun _ => keeps_clones_removeDirectory path
    intro name _ _
    split
    · exact (keeps_clones_sealPlace _).bind fun _ => keeps_pure _
    · exact keeps_pure _
  · exact keeps_pure ()

theorem keeps_clones_cleanUp (platform : Platform) (path : String) :
    Work.Keeps (fun workspace => workspace.clones = clones) (cleanUp platform path) := by
  have warned : ∀ text, Work.Keeps (fun workspace => workspace.clones = clones)
      (do Work.printLine text; return false) := by
    intro text
    have printed : Work.Keeps (fun workspace => workspace.clones = clones) (Work.printLine text) :=
      keeps_modify fun _ same => same
    exact printed.bind fun _ => keeps_pure false
  rw [cleanUp]
  apply keeps_disk.bind
  intro disk
  split
  · exact keeps_pure false
  · apply ((keeps_clones_removeFirst platform path).bind fun _ => keeps_pure true).tryCatch
    intro problem
    cases problem with
    | refused message =>
      apply ((keeps_clones_removeAgain path).bind fun _ => keeps_pure true).tryCatch
      exact fun _ => warned _
    | _ => exact warned _

theorem cleanUp_ends (platform : Platform) (path : String) (workspace : Workspace) :
    ∃ done, ((cleanUp platform path).start workspace).1 = .ok done := by
  rw [cleanUp, start_bind, start_disk]
  dsimp only
  split
  · exact ⟨false, rfl⟩
  · rw [start_tryCatch]
    split
    · rename_i done _ _
      exact ⟨done, rfl⟩
    · rename_i problem later _
      cases problem with
      | refused message =>
        dsimp only
        rw [start_tryCatch]
        split
        · rename_i done _ _
          exact ⟨done, rfl⟩
        · exact ⟨false, rfl⟩
      | _ => exact ⟨false, rfl⟩

end Clones

/-! ## The directory of a clone -/

/-- A file that a command leaves has a path of names. -/
structure Tidy (file : String × FileTree) : Prop where
  filled : Path.parts file.1 ≠ []
  named : ∀ part ∈ Path.parts file.1, Path.IsName part
  proper : file.2.Proper

/-- The directory of a clone is there, and what decides over its removal is as it was before. -/
structure Stands (before : Workspace) (place : List String) (workspace : Workspace) : Prop where
  sound : workspace.disk.Sound
  there : ∃ entries, workspace.disk.root.get? place = some (.directory entries)
  away : ¬ place <+: workspace.disk.current
  clones : workspace.clones = before.clones
  refusals : workspace.refusals = before.refusals
  sealed : workspace.sealed = before.sealed

namespace Stands

variable {before workspace : Workspace} {place : List String}

theorem named (stands : Stands before place workspace) : ∀ name ∈ place, Path.IsName name := by
  rcases stands.there with ⟨entries, found⟩
  exact (stands.sound.proper.get? found).1

theorem change {later : Disk} (stands : Stands before place workspace) (sound : later.Sound)
    (kept : Disk.Keeps workspace.disk later) :
    Stands before place { workspace with disk := later } := by
  rcases stands.there with ⟨entries, found⟩
  exact ⟨sound, kept.root.directories place entries found, kept.current ▸ stands.away,
    stands.clones, stands.refusals, stands.sealed⟩

theorem leave {path : String} {tree : FileTree} (stands : Stands before place workspace)
    (tidy : Tidy (path, tree)) :
    Stands before place { workspace with
      disk := workspace.disk.place (Disk.pathOf place ++ "/" ++ path) tree } := by
  have position : workspace.disk.startOf (Disk.pathOf place ++ "/" ++ path) ++
      Path.parts (Disk.pathOf place ++ "/" ++ path) = place ++ Path.parts path := by
    have filled : Disk.pathOf place ≠ "" := by simp [Disk.pathOf, ← String.toList_inj]
    rw [Path.parts_append, Disk.parts_pathOf stands.named, Disk.startOf, String.append_assoc,
      Path.isAbsolute_append filled, Disk.isAbsolute_pathOf]
    rfl
  have below : ¬ place ++ Path.parts path <+: place := by
    intro starts
    have short := starts.length_le
    have filled : 0 < (Path.parts path).length := length_pos_iff.mpr tidy.filled
    rw [length_append] at short
    omega
  have aside : ¬ place ++ Path.parts path <+: workspace.disk.current :=
    fun starts => stands.away ((prefix_append place _).trans starts)
  rcases stands.there with ⟨entries, found⟩
  rcases stands.sound.current with ⟨others, current⟩
  rw [ Disk.place, position]
  refine ⟨⟨?_, ?_⟩, ?_, stands.away, stands.clones, stands.refusals, stands.sealed⟩
  · exact stands.sound.proper.put (forall_mem_append.mpr ⟨stands.named, tidy.named⟩) tidy.proper
  · exact FileTree.directory_of_put tree current aside
  · exact FileTree.directory_of_put tree found below

theorem keeps_makeDirectories (path : String) :
    Work.Keeps (Stands before place) (Work.makeDirectories path) := by
  constructor
  intro workspace stands
  rw [start_makeDirectories]
  cases made : workspace.disk.makeDirectories path with
  | error cause => exact stands
  | ok later =>
    have sound := stands.sound.makeDirectories made
    exact stands.change sound.1 sound.2

theorem keeps_writeText (path text : String) :
    Work.Keeps (Stands before place) (Work.writeText path text) := by
  constructor
  intro workspace stands
  rw [start_writeText]
  cases written : workspace.disk.write path text with
  | error cause => exact stands
  | ok later =>
    have sound := stands.sound.write written
    exact stands.change sound.1 sound.2

theorem keeps_leaveFiles {files : List (String × FileTree)} (tidy : ∀ file ∈ files, Tidy file) :
    Work.Keeps (Stands before place) (Work.leaveFiles (Disk.pathOf place) files) := by
  rw [Work.leaveFiles]
  apply Work.Keeps.bind _ fun _ => keeps_pure _
  apply keeps_forIn
  intro file member _
  apply (keeps_makeDirectories _).bind
  intro _
  constructor
  intro workspace stands
  exact stands.leave (tidy file member)

end Stands

/-! ## Making a clone -/

theorem Stands.advanced (stands : Stands before place workspace) (words : List String) :
    Stands before place (workspace.advanced words) :=
  ⟨stands.sound, stands.there, stands.away, stands.clones, stands.refusals, stands.sealed⟩

theorem start_command_of_quiet (quiet : workspace.nextOutcome.files = []) (words : List String)
    (folder : String) :
    (Work.command words folder).start workspace =
      (.ok workspace.nextOutcome, workspace.advanced words) := by
  rw [start_command, quiet]
  rfl

theorem start_tryCommand_of_quiet (quiet : workspace.nextOutcome.files = []) (words : List String) :
    ∃ ended, (tryCommand words).start workspace = (.ok ended, workspace.advanced words) := by
  rw [tryCommand, start_bind, start_command_of_quiet quiet]
  dsimp only
  split
  · exact ⟨true, rfl⟩
  · exact ⟨false, rfl⟩

theorem eq_advanced_of_tryCommand {later : Workspace} {words : List String} {ended : Bool}
    (run : (tryCommand words).start workspace = (.ok ended, later))
    (quiet : workspace.nextOutcome.files = []) : later = workspace.advanced words := by
  rcases start_tryCommand_of_quiet quiet words with ⟨_, same⟩
  cases same.symm.trans run
  rfl

theorem Stands.of_command {words : List String} (stands : Stands before place workspace)
    (tidy : ∀ file ∈ workspace.nextOutcome.files, Tidy file)
    (run : (Work.command words (Disk.pathOf place)).start workspace = (.ok outcome, made)) :
    Stands before place made ∧ made.outcomes = workspace.outcomes.drop 1 := by
  have kept := (keeps_leaveFiles tidy).after _ (stands.advanced words)
  have onlyDisk : Work.Keeps (fun later => later.outcomes = workspace.outcomes.drop 1)
      (Work.leaveFiles (Disk.pathOf place) workspace.nextOutcome.files) :=
    Work.keeps_leaveFiles (fun _ _ same => same) _ _
  have same := onlyDisk.after (workspace.advanced words) rfl
  rw [start_command] at run
  split at run
  · rename_i left
    rw [left] at kept same
    cases run
    exact ⟨kept, same⟩
  · cases run

/-- What may be assumed when an analysis starts: the clone goes to a new directory whose path meets
no link; the command that clones leaves files below it; and no other command leaves files. -/
structure Ready (machine : Machine) (place : List String) (before : Workspace) : Prop where
  sound : before.disk.Sound
  folder : machine.folder = Disk.pathOf place
  straight : Disk.Straight before.disk.root place
  fresh : before.disk.root.get? place = none
  tidy : ∀ outcome ∈ before.outcomes, ∀ file ∈ outcome.files, Tidy file
  quiet : machine.platform = .windows → ∀ outcome ∈ before.outcomes.eraseIdx 1, outcome.files = []

namespace Ready

variable {machine : Machine} {place : List String} {before : Workspace}

theorem away (ready : Ready machine place before) : ¬ place <+: before.disk.current := by
  rintro ⟨rest, whole⟩
  rcases ready.sound.current with ⟨entries, found⟩
  rw [← whole, FileTree.get?_append, ready.fresh] at found
  cases found

theorem filled (ready : Ready machine place before) : place ≠ [] := by
  rintro rfl
  cases ready.fresh

theorem tidy_nextOutcome (ready : Ready machine place before)
    (fewer : workspace.outcomes ⊆ before.outcomes) :
    ∀ file ∈ workspace.nextOutcome.files, Tidy file := by
  rw [Workspace.nextOutcome]
  cases remaining : workspace.outcomes with
  | nil => nofun
  | cons outcome rest => exact ready.tidy outcome (fewer (remaining ▸ mem_cons_self))

theorem stands_of_makeDirectories (ready : Ready machine place before) {made : Disk}
    (run : before.disk.makeDirectories machine.folder = .ok made) :
    Stands before place { before with disk := made } := by
  rw [ready.folder] at run
  have sound := ready.sound.makeDirectories run
  exact ⟨sound.1, ready.sound.directory_made ready.straight run, sound.2.current ▸ ready.away,
    rfl, rfl, rfl⟩

/-- After the command that clones the directory is there, and the commands to come leave no
files. -/
theorem of_runClone (ready : Ready machine place before) {program address : String}
    (run : (runClone machine program address).start before = (.ok outcome, made)) :
    Stands before place made ∧
      (machine.platform = .windows → ∀ later ∈ made.outcomes, later.files = []) := by
  rw [runClone] at run
  rcases start_bind_eq_ok_iff.mp run with ⟨_, opened, first, run⟩
  rw [start_makeDirectories] at first
  cases madeDisk : before.disk.makeDirectories machine.folder with
  | error cause =>
    rw [madeDisk] at first
    cases first
  | ok disk =>
    rw [madeDisk] at first
    cases first
    have stands := ready.stands_of_makeDirectories madeDisk
    rw [ready.folder] at run
    cases isPlatform : machine.platform with
    | unix =>
      rw [isPlatform] at run
      exact ⟨(stands.of_command (ready.tidy_nextOutcome (List.Subset.refl _)) run).1, nofun⟩
    | windows =>
      have quiet := ready.quiet isPlatform
      rw [isPlatform] at run
      rcases start_bind_eq_ok_iff.mp run with ⟨ended, between, second, run⟩
      have none : before.nextOutcome.files = [] := by
        rw [Workspace.nextOutcome]
        cases listed : before.outcomes with
        | nil => rfl
        | cons outcome rest =>
          rw [listed] at quiet
          exact quiet outcome mem_cons_self
      cases eq_advanced_of_tryCommand second none
      have fewer : before.outcomes.drop 1 ⊆ before.outcomes := drop_subset 1 _
      rcases (stands.advanced _).of_command (ready.tidy_nextOutcome fewer) run with
        ⟨stands, remaining⟩
      refine ⟨stands, fun _ later member => quiet later ?_⟩
      rw [remaining] at member
      rw [eraseIdx_eq_take_drop_succ]
      apply mem_append_right
      simpa [Workspace.advanced] using member

end Ready

/-- The commands to come leave no files. -/
def Quiet (workspace : Workspace) : Prop := ∀ outcome ∈ workspace.outcomes, outcome.files = []

theorem Quiet.nextOutcome (quiet : Quiet workspace) :
    workspace.nextOutcome.files = [] := by
  rw [Workspace.nextOutcome]
  cases listed : workspace.outcomes with
  | nil => rfl
  | cons outcome rest => exact quiet outcome (listed ▸ mem_cons_self)

theorem Quiet.advanced (quiet : Quiet workspace) (words : List String) :
    Quiet (workspace.advanced words) :=
  fun outcome member => quiet outcome (drop_subset 1 _ member)

theorem Stands.of_tryCommand (stands : Stands before place workspace) (quiet : Quiet workspace)
    (words : List String) :
    ∃ ended later, (tryCommand words).start workspace = (.ok ended, later) ∧
      Stands before place later ∧ Quiet later := by
  rcases start_tryCommand_of_quiet quiet.nextOutcome words with ⟨ended, run⟩
  exact ⟨ended, _, run, stands.advanced words, quiet.advanced words⟩

theorem Stands.of_makeSparse (stands : Stands before place workspace) (quiet : Quiet workspace)
    (program folder : String) :
    ∃ later, (makeSparse program folder).start workspace = (.ok (), later) ∧
      Stands before place later := by
  have changed : ∀ (workspace : Workspace) (disk : Disk), Quiet workspace →
      Quiet { workspace with disk } := fun _ _ quiet => quiet
  have rules : Work.Keeps (fun workspace => Stands before place workspace ∧ Quiet workspace) (do
      Work.makeDirectories (Path.directory (folder ++ "/.git/info/sparse-checkout"))
      Work.writeText (folder ++ "/.git/info/sparse-checkout") sparseRules
      let _ ← tryCommand [program, "-C", folder, "read-tree", "-m", "-u", "HEAD"]) := by
    apply ((keeps_makeDirectories _).and (Work.keeps_makeDirectories changed _)).bind
    intro _
    apply ((keeps_writeText _ _).and (Work.keeps_writeText changed _ _)).bind
    intro _
    apply Work.Keeps.bind _ fun _ => keeps_pure ()
    constructor
    intro workspace holds
    rcases holds.1.of_tryCommand holds.2 _ with ⟨_, _, run, kept⟩
    rw [run]
    exact kept
  rcases stands.of_tryCommand quiet [program, "-C", folder, "config", "core.sparseCheckout", "true"]
    with ⟨ended, noted, run, stands, quiet⟩
  rw [makeSparse, start_bind, run]
  cases ended with
  | false => exact ⟨noted, rfl, stands⟩
  | true =>
    have kept := (rules.tryCatch fun _ => keeps_pure ()).after noted ⟨stands, quiet⟩
    refine ⟨_, Prod.ext ?_ rfl, kept.1⟩
    dsimp only
    rw [if_pos rfl, start_tryCatch]
    split
    · rfl
    · rfl

/-! ## Clones that are made and clones that are not -/

def succeeded : Outcome → Bool
  | .finished code _ _ _ => code == 0
  | _ => false

/-- Nothing keeps a directory from being removed. -/
structure Removable (folder : String) (workspace : Workspace) : Prop where
  willing : workspace.refusals = 0
  unsealed : ∀ name, Path.below folder name ∉ workspace.sealed

namespace Stands

variable {before workspace : Workspace} {place : List String}

theorem exists? (stands : Stands before place workspace) :
    workspace.disk.exists? (Disk.pathOf place) = true := by
  rcases stands.there with ⟨entries, found⟩
  rw [Disk.exists?, (Disk.Straight.of_get? stands.sound.proper found rfl).get?_pathOf, found,
    Option.isSome_some]

/-- Cleaning up the directory of a clone: the clones that are to be removed stay the same, and the
directory is gone if nothing keeps it. -/
theorem cleanUp (stands : Stands before place workspace) (filled : place ≠ []) (platform : Platform) :
    ∃ done later, (Hosting.cleanUp platform (Disk.pathOf place)).start workspace =
        (.ok done, later) ∧ later.clones = before.clones ∧
      (Removable (Disk.pathOf place) before → later.disk.exists? (Disk.pathOf place) = false) := by
  rcases cleanUp_ends platform (Disk.pathOf place) workspace with ⟨done, ended⟩
  have clones := (keeps_clones_cleanUp platform (Disk.pathOf place)).after workspace stands.clones
  refine ⟨done, _, Prod.ext ended rfl, clones, ?_⟩
  intro removable
  rcases stands.there with ⟨entries, found⟩
  rcases eq_nil_or_concat' place with rfl | ⟨above, name, rfl⟩
  · exact absurd rfl filled
  · rcases start_cleanUp platform stands.sound.proper found
      (stands.refusals.trans removable.willing) (stands.sealed ▸ removable.unsealed) with
      ⟨root, run, gone⟩
    rw [run]
    exact gone

end Stands

section Clone

variable {machine : Machine} {place : List String} {before : Workspace} {program address : String}

theorem start_clone_of_missing (missing : machine.program = none) (address : String)
    (before : Workspace) :
    ∃ message, (clone machine address).start before = (.error (.failed message), before) := by
  rw [clone, missing]
  exact ⟨_, rfl⟩

theorem start_clone_of_error {cause : Problem} {left : Workspace}
    (present : machine.program = some program)
    (run : (runClone machine program address).start before = (.error cause, left)) :
    (clone machine address).start before = (.error cause, left) := by
  rw [clone, present]
  dsimp only
  rw [start_bind, run]

variable {outcome : Outcome} {made : Workspace}

theorem Ready.clone_of_succeeded (ready : Ready machine place before)
    (present : machine.program = some program)
    (run : (runClone machine program address).start before = (.ok outcome, made))
    (success : succeeded outcome = true) :
    ∃ later, (clone machine address).start before = (.ok machine.folder, later) ∧
      Stands before place later := by
  have ⟨stands, quiet⟩ := ready.of_runClone run
  cases outcome with
  | finished code output errors files =>
    have zero : code = 0 := by simpa [succeeded] using success
    rw [clone, present]
    dsimp only
    rw [start_bind, run]
    cases isPlatform : machine.platform with
    | unix => exact ⟨made, by simp [zero], stands⟩
    | windows =>
      rcases stands.of_makeSparse (quiet isPlatform) program machine.folder with
        ⟨later, sparse, stands⟩
      exact ⟨later, by simp [-bind_pure_comp, zero, start_bind, sparse], stands⟩
  | _ => cases success

theorem Stands.abandon (stands : Stands before place workspace) (filled : place ≠ [])
    (folder : machine.folder = Disk.pathOf place) (message : String) :
    ∃ later, (abandon machine message).start workspace = (.error (.failed message), later) ∧
      later.clones = before.clones ∧
      (Removable machine.folder before → later.disk.exists? machine.folder = false) := by
  rcases stands.cleanUp filled machine.platform with ⟨done, later, run, clones, gone⟩
  refine ⟨later, ?_, clones, folder ▸ gone⟩
  rw [Hosting.abandon, folder]
  simp [start_bind, stands.exists?, run]

/-- Any other outcome ends the run; the directory is left if the command did not end in a known
way. -/
theorem Ready.clone_of_not_succeeded (ready : Ready machine place before)
    (present : machine.program = some program)
    (run : (runClone machine program address).start before = (.ok outcome, made))
    (failure : succeeded outcome = false) :
    ∃ cause later, (clone machine address).start before = (.error cause, later) ∧
      later.clones = before.clones ∧ (Removable machine.folder before →
        (later.disk.exists? machine.folder = true ↔ ∃ message, outcome = .broken message)) := by
  have stands := (ready.of_runClone run).1
  have given : ∀ message, ∃ later, (Hosting.abandon machine message).start made =
      (.error (.failed message), later) ∧ later.clones = before.clones ∧
      (Removable machine.folder before → later.disk.exists? machine.folder = false) :=
    stands.abandon ready.filled ready.folder
  rw [clone, present]
  dsimp only
  rw [start_bind, run]
  cases outcome with
  | finished code output errors files =>
    have nonzero : code ≠ 0 := by simpa [succeeded] using failure
    rcases given ("Failed to clone repository: " ++ errors) with ⟨later, ended, clones, gone⟩
    refine ⟨.failed ("Failed to clone repository: " ++ errors), later, ?_, clones, ?_⟩
    · simp [nonzero, ended]
    · exact fun removable => by simp [gone removable]
  | timedOut =>
    rcases given _ with ⟨later, ended, clones, gone⟩
    exact ⟨_, later, ended, clones, fun removable => by simp [gone removable]⟩
  | missing =>
    rcases given _ with ⟨later, ended, clones, gone⟩
    exact ⟨_, later, ended, clones, fun removable => by simp [gone removable]⟩
  | broken message =>
    exact ⟨_, made, rfl, stands.clones, fun _ => by simp [ready.folder, stands.exists?]⟩

end Clone

/-! ## Analysing a clone -/

theorem keeps_cloneStructure {invariant : Workspace → Prop} (folder : String)
    (included excluded : Json) :
    Work.Keeps invariant (cloneStructure folder included excluded) := by
  rw [cloneStructure]
  apply (keeps_ofExcept _).bind
  intro patterns
  apply keeps_disk.bind
  intro disk
  apply (keeps_ofExcept _).bind
  intro found
  split
  · exact keeps_throw _
  · exact keeps_pure found

theorem keeps_cloneReport {invariant : Workspace → Prop} (parsers : Parsers) (address : String)
    (included excluded : Json) (folder : String) :
    Work.Keeps invariant (cloneReport parsers address included excluded folder) := by
  rw [cloneReport]
  apply (keeps_cloneStructure folder included excluded).bind
  intro found
  exact keeps_disk.bind fun _ => keeps_ofExcept _

section Analysis

variable {machine : Machine} {place : List String} {before after : Workspace} {address : String}
  {work : String → Work Json} {problem : Problem}

/-- Where no clone is made, the handling of the failure fails itself. -/
theorem start_withClone_of_error {cause : Problem} {left : Workspace}
    (run : (clone machine address).start before = (.error cause, left)) :
    (withClone machine address work).start before = (.error (.fault .wrongKind), left) := by
  simp [withClone, takeClone, start_bind, start_tryCatch, run]

def taken (made : Workspace) (folder : String) : Workspace :=
  { made with clones := made.clones ++ [folder] }

theorem start_releaseClone (platform : Platform) (folder : String) (workspace : Workspace) :
    ∃ later, (releaseClone platform folder).start workspace = (.ok (), later) := by
  rcases cleanUp_ends platform folder workspace with ⟨done, ended⟩
  rw [releaseClone, start_bind]
  rcases run : (cleanUp platform folder).start workspace with ⟨result, later⟩
  rw [run] at ended
  cases ended
  exact ⟨_, rfl⟩

theorem start_withClone {folder : String}
    (readOnly : ∀ origin, Work.Keeps (· = origin) (work folder))
    (run : (clone machine address).start before = (.ok folder, made))
    (there : made.disk.exists? folder = true) :
    ∃ after, (releaseClone machine.platform folder).start (taken made folder) = (.ok (), after) ∧
      (withClone machine address work).start before =
        match ((work folder).start (taken made folder)).1 with
        | .ok report => (.ok report, after)
        | .error cause =>
          (.error (.failed ("Repository analysis failed: " ++ cause.message)), after) := by
  have took : (takeClone machine address).start before = (.ok folder, taken made folder) := by
    rw [takeClone, start_bind, run]
    rfl
  rcases start_releaseClone machine.platform folder (taken made folder) with ⟨after, released⟩
  refine ⟨after, released, ?_⟩
  have unchanged := (readOnly (taken made folder)).after _ rfl
  rw [withClone, start_bind, start_tryCatch, took]
  dsimp only
  rw [start_tryCatch, start_bind]
  rcases ended : (work folder).start (taken made folder) with ⟨result, left⟩
  rw [ended] at unchanged
  have same : left = taken made folder := unchanged
  subst same
  cases result with
  | ok report =>
    dsimp only
    rw [start_bind, released]
    rfl
  | error cause =>
    have there : (taken made folder).disk.exists? folder = true := there
    dsimp only
    rw [start_bind, start_disk]
    dsimp only
    rw [if_pos there, start_bind, released]
    rfl

theorem Stands.releaseClone (stands : Stands before place made) (filled : place ≠ [])
    {platform : Platform} (run : (Hosting.releaseClone platform (Disk.pathOf place)).start
      (taken made (Disk.pathOf place)) = (.ok (), after)) :
    after.clones.Perm before.clones ∧
      (Removable (Disk.pathOf place) before → after.disk.exists? (Disk.pathOf place) = false) := by
  have took : Stands (taken before (Disk.pathOf place)) place (taken made (Disk.pathOf place)) :=
    ⟨stands.sound, stands.there, stands.away,
      congrArg (· ++ [Disk.pathOf place]) stands.clones, stands.refusals, stands.sealed⟩
  rcases took.cleanUp filled platform with ⟨done, later, cleaned, clones, gone⟩
  rw [Hosting.releaseClone, start_bind, cleaned] at run
  cases run
  refine ⟨?_, fun removable => gone ⟨removable.willing, removable.unsealed⟩⟩
  dsimp only
  rw [clones, taken]
  have first := perm_append_singleton (Disk.pathOf place) before.clones
  simpa using first.erase (Disk.pathOf place)

theorem Ready.withClone_failed (ready : Ready machine place before) {program : String}
    (readOnly : ∀ origin, Work.Keeps (· = origin) (work machine.folder))
    (present : machine.program = some program)
    (run : (runClone machine program address).start before = (.ok outcome, made))
    (success : succeeded outcome = true)
    (failed : (withClone machine address work).start before = (.error problem, after)) :
    (∃ words, problem = .failed ("Repository analysis failed: " ++ words)) ∧
      after.clones.Perm before.clones ∧
      (Removable machine.folder before → after.disk.exists? machine.folder = false) := by
  rcases ready.clone_of_succeeded present run success with ⟨later, cloned, stands⟩
  have there := stands.exists?
  rw [← ready.folder] at there
  rcases start_withClone readOnly cloned there with ⟨_, released, whole⟩
  rw [whole] at failed
  split at failed
  · cases failed
  · rename_i cause _
    cases failed
    rw [ready.folder] at released
    exact ⟨⟨cause.message, rfl⟩, ready.folder ▸ stands.releaseClone ready.filled released⟩

theorem keeps_clones_runClone {clones : List String} (machine : Machine)
    (program address : String) :
    Work.Keeps (fun workspace => workspace.clones = clones) (runClone machine program address) := by
  have command : ∀ words folder, Work.Keeps (fun workspace => workspace.clones = clones)
      (Work.command words folder) := keeps_command (fun _ _ same => same) (fun _ _ same => same)
  rw [runClone]
  apply (keeps_makeDirectories (fun _ _ same => same) _).bind
  intro _
  dsimp only
  split
  · apply Work.Keeps.bind _ fun _ => command _ _
    rw [tryCommand]
    apply (command _ _).bind
    intro outcome
    split
    · exact keeps_pure true
    · exact keeps_pure false
  · exact command _ _

/-- How a failed analysis leaves things. The clone is never kept among those to be removed. The
failure is reported as one of the analysis only if the clone had been made; otherwise the handling
of the failure fails itself. The directory of the clone is left where the command that clones did
not end in a known way. -/
theorem analyzeFully_failed (parsers : Parsers) (included excluded : Json)
    (ready : Ready machine place before)
    (failed : (analyzeFully parsers machine address included excluded).start before =
      (.error problem, after)) :
    after.clones.Perm before.clones ∧
      match machine.program.map fun program =>
        (runClone machine program address).start before with
      | none => problem = .fault .wrongKind ∧ after = before
      | some (.error _, left) => problem = .fault .wrongKind ∧ after = left
      | some (.ok outcome, _) =>
        (if succeeded outcome then
          ∃ words, problem = .failed ("Repository analysis failed: " ++ words)
        else problem = .fault .wrongKind) ∧
        (Removable machine.folder before →
          (after.disk.exists? machine.folder = true ↔ ∃ message, outcome = .broken message)) := by
  rw [analyzeFully] at failed
  cases present : machine.program with
  | none =>
    rcases start_clone_of_missing present address before with ⟨_, run⟩
    rw [start_withClone_of_error run] at failed
    cases failed
    exact ⟨List.Perm.refl _, rfl, rfl⟩
  | some program =>
    have kept := (keeps_clones_runClone machine program address).after before rfl
    rcases run : (runClone machine program address).start before with ⟨result, made⟩
    simp only [Option.map_some, run]
    cases result with
    | error cause =>
      rw [start_withClone_of_error (start_clone_of_error present run)] at failed
      cases failed
      rw [run] at kept
      exact ⟨List.Perm.of_eq kept, rfl, rfl⟩
    | ok outcome =>
      cases success : succeeded outcome with
      | false =>
        rcases ready.clone_of_not_succeeded present run success with
          ⟨cause, later, cloned, clones, left⟩
        rw [start_withClone_of_error cloned] at failed
        cases failed
        exact ⟨List.Perm.of_eq clones, by simp [success], left⟩
      | true =>
        rcases ready.withClone_failed (fun _ => keeps_cloneReport parsers _ _ _ _) present run
          success failed with ⟨reported, clones, gone⟩
        have known : ¬ ∃ message, outcome = .broken message := by
          rintro ⟨_, rfl⟩
          cases success
        exact ⟨clones, by simpa [success] using reported, fun removable => by
          simp [gone removable, known]⟩

end Analysis

/-! ## Failures that are not reported as such -/

def cloner : Machine := ⟨.unix, some "git", "/clone"⟩

/-- An empty disk, on which the next command ends in a given way. -/
def cloning (outcome : Outcome) : Workspace := { disk := .empty, outcomes := [outcome] }

theorem ready_cloning (none : outcome.files = []) :
    Ready cloner ["clone"] (cloning outcome) where
  sound := ⟨.empty, ⟨[], rfl⟩⟩
  folder := by decide
  straight := (Disk.Straight.nil _).concat (by decide) nofun
  fresh := rfl
  tidy := by
    intro other member
    rw [mem_singleton.mp member, none]
    nofun
  quiet := nofun

theorem makeDirectories_empty : Disk.empty.makeDirectories "/clone" =
    .ok ⟨.directory [("clone", .directory [])], []⟩ := by
  have parts : Path.parts "/clone" = ["clone"] := by decide
  have start : Disk.empty.startOf "/clone" = [] := by decide
  have accepted : Disk.refused? true "/clone" = none := by decide
  have way : Disk.Way Disk.empty.root false Disk.maxLinks [] ["clone"] ["clone"] :=
    .down nofun (by decide) nofun .arrived
  rw [Disk.makeDirectories, accepted, start, parts]
  simp only [reverse_nil, Disk.makeDirectories.go]
  have followed := way.follow
  rw [reverse_nil] at followed
  rw [followed]
  rfl

theorem start_runClone_cloning (none : outcome.files = []) (address : String) :
    ∃ made, (runClone cloner "git" address).start (cloning outcome) = (.ok outcome, made) := by
  rw [runClone, start_bind, start_makeDirectories]
  have made : (cloning outcome).disk.makeDirectories cloner.folder = _ := makeDirectories_empty
  rw [made]
  refine ⟨_, start_command_of_quiet ?_ _ _⟩
  exact none

def noParsers : Parsers := ⟨fun _ _ => default, fun _ => none⟩

/-- Under patterns that cannot be used a clone is made, but not analysed. -/
theorem late_failure_reported : ∃ words after,
    (analyzeFully noParsers cloner "o/r" .null (.text "docs")).start
        (cloning (.finished 0 "" "" [])) =
      (.error (.failed ("Repository analysis failed: " ++ words)), after) ∧
    after.clones.Perm [] ∧ after.disk.exists? "/clone" = false := by
  have ready : Ready cloner ["clone"] (cloning (.finished 0 "" "" [])) := ready_cloning rfl
  have none : (Outcome.finished 0 "" "" []).files = [] := rfl
  rcases start_runClone_cloning none "o/r" with ⟨made, run⟩
  rcases ready.clone_of_succeeded rfl run rfl with ⟨later, cloned, stands⟩
  rcases start_withClone (fun _ => keeps_cloneReport noParsers "o/r" .null (.text "docs") _) cloned
    stands.exists? with ⟨after, _, whole⟩
  have left := analyzeFully_failed noParsers .null (.text "docs") ready whole
  have program : cloner.program = some "git" := rfl
  rw [program, Option.map_some, run] at left
  have gone : after.disk.exists? "/clone" = true ↔ _ := left.2.2 ⟨rfl, nofun⟩
  refine ⟨_, after, whole, left.1, ?_⟩
  simpa using gone

/-- A command that fails is not reported as a failed analysis, and one that breaks off leaves the
directory of the clone. -/
theorem early_failure_unreported :
    (∃ after, (analyzeFully noParsers cloner "o/r" .null .null).start
        (cloning (.finished 128 "" "fatal: not found\n" [])) =
      (.error (.fault .wrongKind), after)) ∧
    ∃ after, (analyzeFully noParsers cloner "o/r" .null .null).start (cloning (.broken "lost")) =
      (.error (.fault .wrongKind), after) ∧ after.disk.exists? "/clone" = true := by
  have fails : ∀ outcome : Outcome, outcome.files = [] → succeeded outcome = false →
      ∃ after, (analyzeFully noParsers cloner "o/r" .null .null).start (cloning outcome) =
          (.error (.fault .wrongKind), after) ∧
        (after.disk.exists? "/clone" = true ↔ ∃ message, outcome = .broken message) := by
    intro outcome none failure
    rcases start_runClone_cloning none "o/r" with ⟨made, run⟩
    rcases (ready_cloning none).clone_of_not_succeeded rfl run failure with
      ⟨_, after, cloned, _, left⟩
    exact ⟨after, start_withClone_of_error cloned, left ⟨rfl, nofun⟩⟩
  rcases fails (.finished 128 "" "fatal: not found\n" []) rfl rfl with ⟨after, failed, _⟩
  rcases fails (.broken "lost") rfl rfl with ⟨broken, alsoFailed, left⟩
  exact ⟨⟨after, failed⟩, broken, alsoFailed, left.mpr ⟨"lost", rfl⟩⟩

end Hosting

end CodeAtlas
