import CodeAtlas.Proofs.Repository.Structure
import CodeAtlas.Proofs.Workspace
import CodeAtlas.Repository.Check

/-!
The languages of a directory. Files are counted unless a part of their whole path is the name of a
directory that does not count, so the names above the directory take part as well as those below
it. Below such a name nothing counts; everywhere else a directory has the same languages. The main
statement says this of one directory at two places.
-/

namespace CodeAtlas

open List

/-! ## Counting -/

namespace Repository

/-- One of the names is that of a directory whose files do not count. -/
def Shaded (position : List String) : Prop := ∃ name ∈ position, name ∈ uncountedFolders

instance (position : List String) : Decidable (Shaded position) :=
  inferInstanceAs (Decidable (∃ name ∈ position, name ∈ uncountedFolders))

theorem shaded_append_iff (base place : List String) :
    Shaded (base ++ place) ↔ Shaded base ∨ Shaded place := by
  simp [Shaded, or_and_right, exists_or]

section Relative

variable (isFile : List String → Bool) (entries : List (String × FileTree))

/-- Whether a place in a directory counts for an ending. What is a file is given, since a link may
lead to one outside; all else is decided by the names from the directory on. -/
def countsAt (ending : String) (place : List String) : Bool :=
  Text.endsWith (Text.join "/" place) ending && isFile place && !decide (Shaded place)

/-- The languages of a directory by the names from the directory on, most files first. -/
def relativeCounts : List (String × Nat) :=
  let counts := languageEndings.map fun (language, endings) =>
    (language, (endings.map fun ending => (FileTree.descendantsOf [] entries).countP fun entry =>
      countsAt isFile ending entry.1).foldl (· + ·) 0)
  (counts.filter fun entry => entry.2 > 0).mergeSort fun left right => decide (left.2 ≥ right.2)

/-- Something in a directory is a file of a supported language that counts by its own names. -/
def HasCode : Prop :=
  ∃ place tree, place ≠ [] ∧ (FileTree.directory entries).get? place = some tree ∧
    ∃ language ∈ languageEndings, ∃ ending ∈ language.2, countsAt isFile ending place = true

variable {isFile entries}

theorem relativeCounts_eq_nil_iff (proper : (FileTree.directory entries).Proper) :
    relativeCounts isFile entries = [] ↔ ¬ HasCode isFile entries := by
  rw [relativeCounts, ← List.length_eq_zero_iff, List.length_mergeSort, List.length_eq_zero_iff,
    List.filter_eq_nil_iff, List.forall_mem_map]
  simp only [← List.sum_eq_foldl, gt_iff_lt, decide_eq_true_eq, not_lt, Nat.le_zero,
    List.sum_eq_zero_iff_forall_eq_nat, List.forall_mem_map, List.countP_eq_zero]
  constructor
  · rintro none ⟨place, tree, filled, below, language, known, ending, listed, counts⟩
    have member := (mem_descendantsOf_root_iff proper).mpr ⟨filled, below⟩
    exact none language known ending listed (place, tree) member counts
  · rintro none language known ending listed ⟨place, tree⟩ member counts
    have ⟨filled, below⟩ := (mem_descendantsOf_root_iff proper).mp member
    exact none ⟨place, tree, filled, below, language, known, ending, listed, counts⟩

theorem relativeCounts_congr {other : List String → Bool}
    (proper : (FileTree.directory entries).Proper)
    (alike : ∀ place tree, (FileTree.directory entries).get? place = some tree →
      isFile place = other place) :
    relativeCounts isFile entries = relativeCounts other entries := by
  have same : ∀ ending,
      ((FileTree.descendantsOf [] entries).countP fun entry => countsAt isFile ending entry.1) =
        (FileTree.descendantsOf [] entries).countP fun entry => countsAt other ending entry.1 := by
    intro ending
    apply countP_congr
    rintro ⟨place, tree⟩ member
    have below := ((mem_descendantsOf_root_iff proper).mp member).2
    rw [countsAt, countsAt, alike place tree below]
  simp only [relativeCounts, same]

end Relative

/-! ## Counting below a position -/

theorem isUncounted_iff (path : String) : isUncounted path = true ↔ Shaded (Path.parts path) := by
  simp [isUncounted, Shaded]

theorem start_refuse {α : Type} (workspace : Workspace) (message : String) :
    (refuse message : Work α).start workspace =
      (.error (.reported .repository message), workspace) :=
  rfl

/-- Whether the path of a place below a base leads to a file, maybe through links. -/
def leadsToFile (disk : Disk) (base place : List String) : Bool :=
  disk.isFile (Disk.pathOf (base ++ place))

/-- A directory at a position of a disk with a proper tree. -/
structure Placed (disk : Disk) (base : List String) (entries : List (String × FileTree)) : Prop where
  proper : disk.root.Proper
  found : disk.root.get? base = some (.directory entries)

namespace Placed

variable {disk : Disk} {base : List String} {entries : List (String × FileTree)}

theorem straight (placed : Placed disk base entries) : Disk.Straight disk.root base :=
  .of_get? placed.proper placed.found rfl

theorem inside (placed : Placed disk base entries) : (FileTree.directory entries).Proper :=
  (placed.proper.get? placed.found).2

theorem length_counted_withEnding (placed : Placed disk base entries) (ending : String) :
    ((withEnding disk (Disk.pathOf base) ending).filter fun path =>
      disk.isFile path && !isUncounted path).length =
    if Shaded base then 0
    else (FileTree.descendantsOf [] entries).countP fun entry =>
      countsAt (leadsToFile disk base) ending entry.1 := by
  have below : disk.below (Disk.pathOf base) =
      (FileTree.descendantsOf [] entries).map fun entry => (Text.join "/" entry.1, entry.2) := by
    rw [ Disk.below, placed.straight.get?_pathOf, placed.found]
    simp only [FileTree.descendants]
  rw [← countP_eq_length_filter, withEnding, countP_filterMap, below, countP_map]
  trans (FileTree.descendantsOf [] entries).countP fun entry => !decide (Shaded base) &&
    countsAt (leadsToFile disk base) ending entry.1
  · apply countP_congr
    rintro ⟨place, tree⟩ member
    have ⟨filled, found⟩ := (mem_descendantsOf_root_iff placed.inside).mp member
    have named := (placed.inside.get? found).1
    have path := Disk.below_pathOf placed.straight.named named filled
    have uncounted := isUncounted_iff (Disk.pathOf (base ++ place))
    rw [Disk.parts_pathOf (forall_mem_append.mpr ⟨placed.straight.named, named⟩),
      shaded_append_iff] at uncounted
    by_cases ends : Text.endsWith (Text.join "/" place) ending = true
    · simpa [ends, path, ← Bool.not_eq_true, uncounted, countsAt, leadsToFile] using and_left_comm
    · simp [ends, countsAt]
  · by_cases shaded : Shaded base
    · simp [shaded]
    · simp [shaded]

/-- Below a name that does not count there are no languages; anywhere else they are given by the
names from the directory on. -/
theorem languageCounts_eq (placed : Placed disk base entries) :
    languageCounts disk (Disk.pathOf base) =
      if Shaded base then []
      else relativeCounts (leadsToFile disk base) entries := by
  simp only [languageCounts, relativeCounts, countFiles, placed.length_counted_withEnding]
  split
  · rw [filter_eq_nil_iff.mpr
      (forall_mem_map.mpr fun language _ => by simp [← sum_eq_foldl]), mergeSort_nil]
  · rfl

theorem check_eq_ok_iff {workspace : Workspace} (placed : Placed workspace.disk base entries)
    (result : String × List (String × Nat)) :
    ((check (Disk.pathOf base)).start workspace).1 = .ok result ↔
      languageCounts workspace.disk (Disk.pathOf base) ≠ [] ∧
        result = (Disk.pathOf base, languageCounts workspace.disk (Disk.pathOf base)) := by
  have resolved : workspace.disk.resolve false (Disk.pathOf base) = .ok base :=
    placed.straight.resolve_pathOf nofun
  have there : workspace.disk.get? (Disk.pathOf base) = some (.directory entries) := by
    rw [placed.straight.get?_pathOf, placed.found]
  simp only [check, Files.resolved, Work.start_bind, Work.start_disk, resolved, Work.start_pure,
    Disk.exists?, Disk.isDirectory, there, Option.isSome_some, Option.any_some,
    FileTree.isDirectory, Bool.not_true, Bool.false_eq_true, if_false, List.isEmpty_iff]
  split
  · rename_i empty
    simp only [Work.start_bind, start_refuse, empty, ne_eq, not_true_eq_false, false_and,
      reduceCtorEq]
  · rename_i filled
    simp [filled, eq_comm]

theorem leadsToFile_eq (placed : Placed disk base entries) {place : List String} {tree : FileTree}
    (below : (FileTree.directory entries).get? place = some tree) (plain : tree.isLink = false) :
    leadsToFile disk base place = tree.isFile := by
  have found : disk.root.get? (base ++ place) = some tree := by
    rw [FileTree.get?_append, placed.found]
    exact below
  have straight := Disk.Straight.of_get? placed.proper found plain
  rw [leadsToFile, Disk.isFile, straight.get?_pathOf, found, Option.any_some]

theorem accepted_iff {workspace : Workspace} (placed : Placed workspace.disk base entries) :
    (∃ result, ((check (Disk.pathOf base)).start workspace).1 = .ok result) ↔
      ¬ Shaded base ∧ HasCode (leadsToFile workspace.disk base) entries := by
  simp only [placed.check_eq_ok_iff, exists_and_left, exists_eq, and_true]
  rw [placed.languageCounts_eq]
  split
  · simp_all
  · rename_i clear
    simp [relativeCounts_eq_nil_iff placed.inside, clear]

/-- The languages by relative names are the same at two places if the links lead to files from the
one place whenever they do so from the other. -/
theorem relativeCounts_eq {second : Disk} {other : List String}
    (here : Placed disk base entries) (there : Placed second other entries)
    (alike : ∀ place target, (FileTree.directory entries).get? place = some (.link target) →
      leadsToFile disk base place = leadsToFile second other place) :
    relativeCounts (leadsToFile disk base) entries =
      relativeCounts (leadsToFile second other) entries := by
  apply relativeCounts_congr here.inside
  intro place tree below
  cases isLink : tree.isLink with
  | false => rw [here.leadsToFile_eq below isLink, there.leadsToFile_eq below isLink]
  | true =>
    cases tree with
    | link target => exact alike place target below
    | _ => cases isLink

end Placed

/-! ## One directory at two places -/

/-- What the languages of a directory depend on: below a name that does not count there are none,
and elsewhere the names from the directory on decide. A directory that is placed twice, its links
with the same ends, therefore has the same languages at both places, and both or none of them can be
documented, exactly if such a name stands above both or none of them, or there is no code. -/
theorem languages_of_two_places {first second : Workspace} {base other : List String}
    {entries : List (String × FileTree)} (here : Placed first.disk base entries)
    (there : Placed second.disk other entries) :
    languageCounts first.disk (Disk.pathOf base) =
      (if Shaded base then [] else relativeCounts (leadsToFile first.disk base) entries) ∧
    ((∃ result, ((check (Disk.pathOf base)).start first).1 = .ok result) ↔
      ¬ Shaded base ∧ HasCode (leadsToFile first.disk base) entries) ∧
    ((∀ place target, (FileTree.directory entries).get? place = some (.link target) →
        leadsToFile first.disk base place = leadsToFile second.disk other place) →
      (languageCounts first.disk (Disk.pathOf base) =
          languageCounts second.disk (Disk.pathOf other) ↔
        ((Shaded base ↔ Shaded other) ∨ ¬ HasCode (leadsToFile first.disk base) entries)) ∧
      (((∃ result, ((check (Disk.pathOf base)).start first).1 = .ok result) ↔
          ∃ result, ((check (Disk.pathOf other)).start second).1 = .ok result) ↔
        ((Shaded base ↔ Shaded other) ∨ ¬ HasCode (leadsToFile first.disk base) entries))) := by
  refine ⟨here.languageCounts_eq, here.accepted_iff, ?_⟩
  intro alike
  have same := here.relativeCounts_eq there alike
  have sameCode : HasCode (leadsToFile second.disk other) entries ↔
      HasCode (leadsToFile first.disk base) entries := by
    rw [← not_iff_not, ← relativeCounts_eq_nil_iff there.inside, ← same,
      relativeCounts_eq_nil_iff here.inside]
  have empty : relativeCounts (leadsToFile first.disk base) entries = [] ↔
      ¬ HasCode (leadsToFile first.disk base) entries := relativeCounts_eq_nil_iff here.inside
  rw [here.accepted_iff, there.accepted_iff, sameCode, here.languageCounts_eq,
    there.languageCounts_eq, ← same]
  generalize relativeCounts (leadsToFile first.disk base) entries = counts at empty
  generalize HasCode (leadsToFile first.disk base) entries = code at empty
  by_cases shaded : Shaded base
  · by_cases otherShaded : Shaded other
    · simp [shaded, otherShaded]
    · simp [shaded, otherShaded, ← empty, eq_comm]
  · by_cases otherShaded : Shaded other
    · simp [shaded, otherShaded, empty]
    · simp [shaded, otherShaded]

/-- A module beside one that does not count. -/
def smallProject : List (String × FileTree) :=
  [("main.py", .file ""), ("vendor", .directory [("far.js", .file "")])]

/-- A disk with the same directory at three places. -/
def projectDisk : Disk where
  root := .directory [("build", .directory smallProject),
    ("home", .directory [("work", .directory smallProject)]), ("work", .directory smallProject)]
  current := []

theorem placed_build : Placed projectDisk ["build"] smallProject := ⟨by decide, rfl⟩

theorem placed_work : Placed projectDisk ["work"] smallProject := ⟨by decide, rfl⟩

theorem placed_home_work : Placed projectDisk ["home", "work"] smallProject := ⟨by decide, rfl⟩

theorem smallProject_hasCode {disk : Disk} {base : List String}
    (placed : Placed disk base smallProject) : HasCode (leadsToFile disk base) smallProject := by
  refine ⟨["main.py"], .file "", cons_ne_nil _ _, rfl, ("Python", [".py"]), by decide, ".py",
    mem_cons_self, ?_⟩
  rw [countsAt, placed.leadsToFile_eq rfl rfl]
  decide

theorem smallProject_unlinked (place : List String) (target : String) :
    (FileTree.directory smallProject).get? place ≠ some (.link target) := by
  intro found
  have filled : place ≠ [] := by
    rintro rfl
    cases found
  have member := (mem_descendantsOf_root_iff placed_work.inside).mpr ⟨filled, found⟩
  simp [smallProject, FileTree.descendantsOf, FileTree.descendants] at member

/-- Deeper in the disk the languages are the same. -/
theorem languages_of_work :
    languageCounts projectDisk (Disk.pathOf ["work"]) =
        languageCounts projectDisk (Disk.pathOf ["home", "work"]) ∧
      ∃ result, ((check (Disk.pathOf ["work"])).start { disk := projectDisk }).1 = .ok result := by
  have ⟨_, accepted, relocated⟩ := languages_of_two_places
    (show Placed (Workspace.disk { disk := projectDisk }) ["work"] smallProject from placed_work)
    (show Placed (Workspace.disk { disk := projectDisk }) ["home", "work"] smallProject from
      placed_home_work)
  have alike := relocated fun place target found => absurd found (smallProject_unlinked place target)
  exact ⟨alike.1.mpr (Or.inl (by decide)), accepted.mpr ⟨by decide, smallProject_hasCode placed_work⟩⟩

/-- The same directory has no languages below the name of a directory that does not count, and it
is refused there. -/
theorem no_languages_of_build :
    languageCounts projectDisk (Disk.pathOf ["build"]) = [] ∧
      languageCounts projectDisk (Disk.pathOf ["work"]) ≠ [] ∧
      (¬ ∃ result, ((check (Disk.pathOf ["build"])).start { disk := projectDisk }).1 = .ok result) ∧
      ∃ result, ((check (Disk.pathOf ["work"])).start { disk := projectDisk }).1 = .ok result := by
  have code := smallProject_hasCode placed_work
  have build : Placed (Workspace.disk { disk := projectDisk }) ["build"] smallProject := placed_build
  have work : Placed (Workspace.disk { disk := projectDisk }) ["work"] smallProject := placed_work
  have shaded : Shaded ["build"] := by decide
  have clear : ¬ Shaded ["work"] := by decide
  refine ⟨?_, ?_, ?_, work.accepted_iff.mpr ⟨clear, code⟩⟩
  · rw [build.languageCounts_eq, if_pos shaded]
  · rw [work.languageCounts_eq, if_neg clear, ne_eq, relativeCounts_eq_nil_iff work.inside, not_not]
    exact code
  · rw [build.accepted_iff]
    exact fun accepted => accepted.1 shaded

end Repository

end CodeAtlas
