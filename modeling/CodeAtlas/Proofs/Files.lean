import CodeAtlas.Files.Careful
import CodeAtlas.Proofs.Disk.Folder

/-!
Writing a file beside its place and moving it there. When this fails, the place has the file that it
had before, or none as before. When it succeeds, the place has what was moved there: the text, unless
the name beside the place is a link that led the text elsewhere.
-/

namespace CodeAtlas

open Work List

namespace FileTree

theorem get?_remove_beside {tree : FileTree} {above : List String}
    {entries : List (String × FileTree)} (found : tree.get? above = some (.directory entries))
    {name other : String} (different : other ≠ name) :
    (tree.remove (above ++ [name])).get? (above ++ [other]) = tree.get? (above ++ [other]) := by
  rw [get?_concat, get?_remove_above found, get?_concat, found, Option.bind_some, Option.bind_some,
    child?, FileTree.entries, lookup_eraseEntry, if_neg different]
  rfl

theorem view_of_isDirectory {tree : FileTree} {place : List String}
    (found : (tree.get? place).any isDirectory = true) : tree.view place = some (.directory []) := by
  rw [view]
  cases there : tree.get? place with
  | none =>
    rw [there] at found
    cases found
  | some below =>
    rw [there] at found
    cases below with
    | directory entries => rfl
    | _ => cases found

end FileTree

namespace Disk

variable {disk later : Disk} {above : List String} {name beside : String}
  {entries : List (String × FileTree)}

theorem pathOf_concat_append (above : List String) (name ending : String) :
    pathOf (above ++ [name]) ++ ending = pathOf (above ++ [name ++ ending]) := by
  rcases eq_nil_or_concat' above with empty | ⟨upper, last, concat⟩
  · simp [pathOf, empty, String.append_assoc]
  · have filled : above ≠ [] := concat ▸ concat_ne_nil last upper
    rw [pathOf, pathOf, Text.join_concat _ _ filled, Text.join_concat _ _ filled]
    simp only [String.append_assoc]

theorem makeDirectories_present {place : List String} (proper : disk.root.Proper)
    (found : disk.root.get? place = some (.directory entries)) :
    disk.makeDirectories (pathOf place) = .ok disk := by
  have straight := Straight.of_get? proper found rfl
  have way : Way disk.root true maxLinks [] place place :=
    Straight.way straight (fun _ => ⟨_, found⟩) maxLinks
  have along := go_append way (Nat.le_refl _) ⟨entries, found⟩ []
  rw [makeDirectories, not_refused_pathOf true straight.named, startOf_pathOf,
    parts_pathOf straight.named]
  rwa [append_nil] at along

theorem eq_of_removeFile (straight : Straight disk.root above) (isName : Path.IsName name)
    (removed : disk.removeFile (pathOf (above ++ [name])) = .ok later) :
    ∃ entries, disk.root.get? above = some (.directory entries) ∧
      later = { disk with root := disk.root.remove (above ++ [name]) } := by
  rw [removeFile] at removed
  split at removed
  · cases removed
  · rcases bind_eq_ok_iff.mp removed with ⟨position, entered, rest⟩
    have same : disk.root.get? (above ++ [name]) = disk.root.get? position := by
      rw [← straight.entry?_pathOf isName, entry?, entered]
    cases found : disk.root.get? position with
    | none =>
      rw [found] at rest
      cases rest
    | some tree =>
      have there := same.trans found
      rcases FileTree.directory_above (cons_ne_nil name []) there with ⟨entries, inside⟩
      rw [straight.entryPosition_of_directory isName inside] at entered
      cases entered
      rw [found] at rest
      cases rest
      exact ⟨entries, inside, rfl⟩

theorem moveFile_pathOf {tree : FileTree} (proper : disk.root.Proper) (isName : Path.IsName name)
    (there : disk.root.get? (above ++ [beside]) = some tree) :
    disk.moveFile (pathOf (above ++ [beside])) (pathOf (above ++ [name])) =
      if (disk.root.get? (above ++ [name])).any FileTree.isDirectory then .error .isDirectory
      else .ok { disk with
        root := (disk.root.remove (above ++ [beside])).put (above ++ [name]) tree } := by
  rcases FileTree.directory_above (cons_ne_nil beside []) there with ⟨entries, inside⟩
  have straight := Straight.of_get? proper inside rfl
  have isBeside := (proper.get? there).1 beside mem_concat_self
  have member : (beside, tree) ∈ entries := by
    apply (proper.get? inside).2.child?_iff.mp
    rwa [FileTree.get?_concat, inside] at there
  rw [moveFile, straight.entry?_pathOf isBeside, there, straight.entry?_pathOf isName,
    straight.entryPosition_of_directory isName inside, removeEntry_pathOf proper inside member]
  rfl

/-- A file that is written is seen at one place; at the others nothing changes. -/
theorem Sound.view_write {path text : String} (sound : disk.Sound)
    (written : disk.write path text = .ok later) :
    ∃ place, ∀ other, later.root.view other =
      if other = place then some (.file text) else disk.root.view other := by
  rcases exists_folder_of_write sound.current written with
    ⟨folder, name, entries, resolved, inside, same⟩
  refine ⟨folder ++ [name], fun other => ?_⟩
  rw [same]
  apply FileTree.view_put (FileTree.view_eq_directory_iff.mpr ⟨entries, inside⟩)
  · intro directory
    rcases FileTree.view_eq_directory_iff.mp directory with ⟨_, found⟩
    cases sound.free_of_write written (get?_eq_some_iff.mpr ⟨_, resolved, found⟩)
  · rfl

end Disk

namespace Files

variable {disk : Disk} {workspace : Workspace} {above : List String} {name text : String}

/-- A place has the same file on two disks, if any. -/
def SameFile (disk later : Disk) (place : List String) : Prop :=
  ∀ file : FileTree, file.isFile = true →
    (later.root.get? place = some file ↔ disk.root.get? place = some file)

theorem SameFile.trans {middle later : Disk} {place : List String}
    (first : SameFile disk middle place) (second : SameFile middle later place) :
    SameFile disk later place :=
  fun file isFile => (second file isFile).trans (first file isFile)

theorem SameFile.of_directories {later : Disk} {place : List String}
    (before : disk.root.view place = some (.directory []))
    (after : later.root.view place = some (.directory [])) : SameFile disk later place := by
  rcases FileTree.view_eq_directory_iff.mp before with ⟨_, before⟩
  rcases FileTree.view_eq_directory_iff.mp after with ⟨_, after⟩
  intro file isFile
  cases file with
  | directory entries => cases isFile
  | _ => simp [before, after]

theorem isName_beside (isName : Path.IsName name) : Path.IsName (name ++ ".tmp") := by
  have long : 4 ≤ (name ++ ".tmp").toList.length := by
    rw [String.toList_append, length_append]
    exact Nat.le_add_left 4 _
  have differs {other : String} (short : other.toList.length < 4) : name ++ ".tmp" ≠ other := by
    intro same
    rw [same] at long
    omega
  have without {char : Char} (first : char ∉ name.toList) (second : char ∉ ".tmp".toList) :
      char ∉ (name ++ ".tmp").toList := by
    rw [String.toList_append, mem_append, not_or]
    exact ⟨first, second⟩
  rw [Path.isName_iff]
  exact ⟨differs (by decide), differs (by decide), differs (by decide),
    without isName.noSlash (by decide), without isName.noNull (by decide)⟩

theorem exists_giveUp (disk : Disk) (path : String) (cause : Fault) (workspace : Workspace) :
    ∃ problem later, (giveUp disk path cause).start workspace =
      (.error problem, { workspace with disk := later }) ∧
      (later = disk ∨ disk.removeFile (path ++ ".tmp") = .ok later) := by
  simp only [giveUp, start_bind, start_setDisk]
  split
  · cases removed : disk.removeFile (path ++ ".tmp") with
    | error cause => exact ⟨.fault cause, disk, rfl, .inl rfl⟩
    | ok later => exact ⟨_, later, rfl, .inr rfl⟩
  · exact ⟨_, disk, rfl, .inl rfl⟩

theorem start_resolved (path : String) (workspace : Workspace) :
    (resolved path).start workspace = match workspace.disk.resolve false path with
      | .ok place => (.ok (Disk.pathOf place), workspace)
      | .error cause => (.error (.fault cause), workspace) := by
  simp only [resolved, start_bind, start_disk]
  cases workspace.disk.resolve false path with
  | ok place => rfl
  | error cause => rfl

/-- A text that was written beside a place is there, or a link is. -/
theorem exists_beside {after : Disk} (sound : disk.Sound) (straight : Disk.Straight disk.root above)
    (isName : Path.IsName name)
    (written : disk.write (Disk.pathOf (above ++ [name])) text = .ok after) :
    ∃ tree, after.root.get? (above ++ [name]) = some tree ∧
      (tree = .file text ∨ tree.isLink = true) := by
  have upper := straight.keeps (sound.write written).2.root
  have seen := (Disk.write_eq_ok sound.current written fun _ => sound.free_of_write written).2
  have here (plain : ∀ target, after.root.get? (above ++ [name]) ≠ some (.link target)) :
      after.root.get? (above ++ [name]) = some (.file text) := by
    rw [← (upper.concat isName plain).get?_pathOf, seen]
  cases found : after.root.get? (above ++ [name]) with
  | none =>
    rw [found] at here
    cases here fun _ there => nomatch there
  | some tree =>
    cases tree with
    | link target => exact ⟨.link target, rfl, .inr rfl⟩
    | _ =>
      rw [found] at here
      exact ⟨_, rfl, .inl (Option.some.inj (here fun _ there => nomatch there))⟩

theorem start_write {path : String} (named : ∀ part ∈ above ++ [name], Path.IsName part)
    (atPlace : workspace.disk.resolve false path = .ok (above ++ [name])) (text : String) :
    (write path text).start workspace =
      match writeThrough workspace.disk (Disk.pathOf (above ++ [name])) text (some .utf8) with
      | (disk, none) => (.ok (), { workspace with disk })
      | (disk, some cause) =>
        (giveUp disk (Disk.pathOf (above ++ [name])) cause).start workspace := by
  have notTop : (Disk.pathOf (above ++ [name]) == "/") = false := by
    rw [beq_eq_false_iff_ne]
    intro same
    have parts := Disk.parts_pathOf named
    rw [same] at parts
    exact concat_ne_nil name above parts.symm
  simp only [write, start_bind, start_resolved, atPlace, notTop, Bool.false_eq_true, if_false,
    start_disk]
  rcases writeThrough workspace.disk (Disk.pathOf (above ++ [name])) text (some .utf8) with
    ⟨disk, _ | cause⟩
  · rfl
  · rfl

theorem ne_beside (name : String) : name ≠ name ++ ".tmp" := by
  intro same
  have long := congrArg String.length same
  rw [String.length_append, show ".tmp".length = 4 from rfl] at long
  omega

/-- How the writing of a text ends: what was written is at the place that the path leads to, or a
link that was beside it; if it fails, the place has the file that it had. -/
theorem write_cases {path : String} {place : List String} (sound : workspace.disk.Sound)
    (atPlace : workspace.disk.resolve false path = .ok place) (text : String) :
    (∃ later tree, (write path text).start workspace = (.ok (), { workspace with disk := later }) ∧
      later.root.get? place = some tree ∧ (tree = .file text ∨ tree.isLink = true)) ∨
    ∃ problem later, (write path text).start workspace =
        (.error problem, { workspace with disk := later }) ∧
      SameFile workspace.disk later place := by
  rcases eq_nil_or_concat' place with rfl | ⟨above, name, rfl⟩
  · refine .inr ⟨.fault .badValue, workspace.disk, ?_, fun _ _ => .rfl⟩
    rw [write, start_bind, start_resolved, atPlace]
    rfl
  have straight := sound.straight_resolve atPlace
  have upper := straight.of_prefix (prefix_append above [name])
  have isName := straight.named name mem_concat_self
  have isBeside := isName_beside isName
  -- Removing what is beside the place changes nothing at the place.
  have spared {disk later : Disk} (upper : Disk.Straight disk.root above)
      (ending : later = disk ∨ disk.removeFile (Disk.pathOf (above ++ [name]) ++ ".tmp") = .ok later) :
      later.root.get? (above ++ [name]) = disk.root.get? (above ++ [name]) := by
    rcases ending with rfl | removed
    · rfl
    · rw [Disk.pathOf_concat_append] at removed
      rcases Disk.eq_of_removeFile upper isBeside removed with ⟨entries, inside, rfl⟩
      exact FileTree.get?_remove_beside inside (ne_beside name)
  rw [start_write straight.named atPlace, writeThrough]
  simp only [Option.bind_some, FileTree.ofText?, Option.getD_some, Option.isSome_some, if_true]
  rw [Disk.pathOf_concat_append]
  cases written : workspace.disk.writeFile (Disk.pathOf (above ++ [name ++ ".tmp"])) (.file text) with
  | error cause =>
    rcases exists_giveUp workspace.disk (Disk.pathOf (above ++ [name])) cause workspace with
      ⟨problem, later, run, ending⟩
    refine .inr ⟨problem, later, run, fun _ _ => ?_⟩
    rw [spared upper ending]
  | ok after =>
    have kept := sound.write written
    rcases exists_beside sound upper isBeside written with ⟨tree, there, moved⟩
    simp only [Disk.moveFile_pathOf kept.1.proper isName there]
    by_cases refused : (after.root.get? (above ++ [name])).any FileTree.isDirectory = true
    · -- What was written cannot take the place of a directory.
      rw [if_pos refused]
      have directory := FileTree.view_of_isDirectory refused
      have before : workspace.disk.root.view (above ++ [name]) = some (.directory []) := by
        rcases sound.view_write written with ⟨place, seen⟩
        rw [seen] at directory
        split at directory
        · cases directory
        · exact directory
      rcases exists_giveUp after (Disk.pathOf (above ++ [name])) .isDirectory workspace with
        ⟨problem, later, run, ending⟩
      refine .inr ⟨problem, later, run, .of_directories before ?_⟩
      rw [FileTree.view, spared (upper.keeps kept.2.root) ending]
      exact directory
    · rw [if_neg refused]
      exact .inl ⟨_, tree, rfl, FileTree.get?_put_self _ _ _, moved⟩

/-! ## Changes that spare the files -/

theorem sameFile_go {after : Disk} {position parts : List String}
    {entries : List (String × FileTree)}
    (here : disk.root.get? position = some (.directory entries))
    (run : Disk.makeDirectories.go disk position.reverse parts = .ok after) (place : List String) :
    SameFile disk after place := by
  induction parts generalizing disk position entries with
  | nil =>
    cases run
    exact fun _ _ => .rfl
  | cons part rest induction =>
    rcases Disk.go_cons here run with ⟨made, middle, _, ⟨held, there⟩, run, change⟩
    apply SameFile.trans _ (induction there run)
    rcases change with rfl | ⟨rfl, missing, rfl⟩
    · exact fun _ _ => .rfl
    · intro file isFile
      have empty := FileTree.view_eq_none_iff.mpr missing
      have free : disk.root.view (position ++ [part]) ≠ some (.directory []) := by simp [empty]
      have seen := FileTree.view_put (FileTree.view_eq_directory_iff.mpr ⟨entries, here⟩) free
        (rfl : (FileTree.directory []).entries = []) place
      rw [← FileTree.view_eq_some_iff isFile, ← FileTree.view_eq_some_iff isFile, seen]
      split
      · rename_i same
        rw [same, empty]
        cases file <;> cases isFile <;> simp [FileTree.surface]
      · rfl

/-- A disk after a change that keeps it sound, with its links and directories and all its files. -/
structure Spares (disk later : Disk) : Prop where
  sound : later.Sound
  kept : Disk.Keeps disk later
  files : ∀ place, SameFile disk later place

theorem Spares.refl (sound : disk.Sound) : Spares disk disk :=
  ⟨sound, .refl disk, fun _ _ _ => .rfl⟩

theorem Spares.makeDirectories {middle later : Disk} {path : String} (spares : Spares disk middle)
    (made : middle.makeDirectories path = .ok later) : Spares disk later := by
  rcases spares.sound.makeDirectories made with ⟨sound, kept⟩
  refine ⟨sound, spares.kept.trans kept, fun place => (spares.files place).trans ?_⟩
  rcases Disk.Grounded.startOf spares.sound.current path with ⟨entries, here⟩
  rw [Disk.makeDirectories] at made
  split at made
  · cases made
  · exact sameFile_go here made place

theorem keeps_resolved (invariant : Workspace → Prop) (path : String) :
    Work.Keeps invariant (resolved path) := by
  constructor
  intro workspace holds
  rw [start_resolved]
  split
  · exact holds
  · exact holds

theorem keeps_ensureDirectory (path : String) :
    Work.Keeps (fun later => Spares disk later.disk) (ensureDirectory path) := by
  apply (keeps_resolved _ path).bind
  intro path
  constructor
  intro workspace spares
  rw [start_bind, start_disk]
  cases made : workspace.disk.makeDirectories path with
  | ok later =>
    simp only [made, start_bind, start_setDisk]
    exact spares.makeDirectories made
  | error cause =>
    simp only [made, start_bind, report, start_throw]
    exact spares

theorem keeps_read (invariant : Workspace → Prop) (path : String) :
    Work.Keeps invariant (read path) := by
  apply (keeps_resolved _ path).bind
  intro path
  apply keeps_disk.bind
  intro disk
  split
  · exact keeps_throw _
  · exact keeps_throw _
  · exact keeps_throw _
  · split
    · exact keeps_pure _
    · exact keeps_throw _

end Files

end CodeAtlas
