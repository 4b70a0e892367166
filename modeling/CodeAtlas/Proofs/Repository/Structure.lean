import CodeAtlas.Proofs.Disk.Ways
import CodeAtlas.Repository.Analysis

/-!
The files of a repository. The structure is built by a walk that leaves out links, excluded entries
with all that is below them, and directories in which nothing is left. Its files are those that the
selection takes, found on the disk position by position, and they come in the order of their
positions.
-/

namespace CodeAtlas.Repository

open List

variable {size : Nat} {place : List String}

/-! ## Paths below the root -/

/-- The path of a position below the root; the root itself is a single dot. -/
def pathBelow (position : List String) : String :=
  if position = [] then "." else Text.join "/" position

theorem join_ne_dot {position : List String} (filled : position ≠ [])
    (named : ∀ name ∈ position, Path.IsName name) : Text.join "/" position ≠ "." := by
  intro same
  have parts := Path.parts_join fun name member => (named name member).toIsPart
  rw [same] at parts
  exact filled (parts.symm.trans (by decide))

theorem childPath_pathBelow {position : List String} (name : String)
    (named : ∀ name ∈ position, Path.IsName name) :
    childPath (pathBelow position) name = Text.join "/" (position ++ [name]) := by
  by_cases filled : position = []
  · subst filled
    rw [nil_append, Text.join_singleton]
    rfl
  · have notDot := join_ne_dot filled named
    rw [pathBelow, if_neg filled, childPath, if_neg (by simpa using notDot),
      Text.join_concat "/" name filled]

theorem name_join_concat {position : List String} {name : String}
    (named : ∀ part ∈ position, Path.IsName part) (isName : Path.IsName name) :
    Path.name (Text.join "/" (position ++ [name])) = name := by
  have all : ∀ part ∈ position ++ [name], Path.IsPart part := by
    intro part member
    rcases mem_append.mp member with before | last
    · exact (named part before).toIsPart
    · rw [mem_singleton.mp last]
      exact isName.toIsPart
  rw [Path.name, Path.parts_join all, getLast?_concat, Option.getD_some]

/-! ## Nodes -/

namespace Structure

mutual

/-- All nodes of a structure, itself first. -/
def nodes : Structure → List Structure
  | .file name path size => [.file name path size]
  | .directory name path children => .directory name path children :: nodesOf children

def nodesOf : List Structure → List Structure
  | [] => []
  | child :: rest => nodes child ++ nodesOf rest

end

/-- The name, path and size of a file. -/
def file? : Structure → Option (String × String × Nat)
  | .file name path size => some (name, path, size)
  | .directory _ _ _ => none

def isDirectory : Structure → Bool
  | .file _ _ _ => false
  | .directory _ _ _ => true

/-- The files among the nodes. -/
def fileNodes (found : Structure) : List (String × String × Nat) := found.nodes.filterMap file?

mutual

theorem files_eq_fileNodes : (found : Structure) → found.files = found.fileNodes
  | .file name path size => by simp [files, fileNodes, nodes, file?]
  | .directory name path children => by
    rw [files, fileNodes, nodes, filesOf_eq_nodes children]
    rfl

theorem filesOf_eq_nodes : (found : List Structure) →
    filesOf found = (nodesOf found).filterMap file?
  | [] => by simp [filesOf, nodesOf]
  | child :: rest => by
    simp [filesOf, nodesOf, files_eq_fileNodes child, fileNodes, filesOf_eq_nodes rest]

end

theorem filesOf_append (left right : List Structure) :
    filesOf (left ++ right) = filesOf left ++ filesOf right := by
  induction left with
  | nil => simp [filesOf]
  | cons child left induction => simp [filesOf, induction]

theorem mem_nodesOf_iff (found : List Structure) (node : Structure) :
    node ∈ nodesOf found ↔ ∃ child ∈ found, node ∈ child.nodes := by
  induction found with
  | nil => simp [nodesOf]
  | cons child rest induction => simp [nodesOf, induction]

theorem self_mem_nodes (found : Structure) : found ∈ found.nodes := by
  cases found with
  | file name path size => simp [nodes]
  | directory name path children => simp [nodes]

end Structure

/-! ## The walk and the selection -/

namespace Selection

variable {selection : Selection} {position : List String} {name : String}

/-- Nothing on the way to a position is left out. -/
def Admits (selection : Selection) (position : List String) : Prop :=
  ∀ upper ∈ position.inits, upper ≠ [] →
    selection.leavesOut (Text.join "/" upper) (Path.name (Text.join "/" upper)) = false

instance (position : List String) : Decidable (selection.Admits position) :=
  inferInstanceAs (Decidable (∀ upper ∈ position.inits, upper ≠ [] →
    selection.leavesOut (Text.join "/" upper) (Path.name (Text.join "/" upper)) = false))

theorem admits_nil (selection : Selection) : selection.Admits [] := by
  intro upper member filled
  exact absurd (prefix_nil.mp ((mem_inits _ _).mp member)) filled

theorem Admits.of_append {rest : List String} (admits : selection.Admits (position ++ rest)) :
    selection.Admits position := by
  intro upper member
  apply admits
  rw [mem_inits] at member ⊢
  exact member.trans (prefix_append position rest)

theorem admits_concat_iff (named : ∀ part ∈ position, Path.IsName part)
    (isName : Path.IsName name) :
    selection.Admits (position ++ [name]) ↔ selection.Admits position ∧
      selection.leavesOut (Text.join "/" (position ++ [name])) name = false := by
  constructor
  · intro admits
    have last := admits (position ++ [name]) ((mem_inits _ _).mpr prefix_rfl)
      (append_ne_nil_of_right_ne_nil _ (cons_ne_nil name []))
    rw [name_join_concat named isName] at last
    exact ⟨admits.of_append, last⟩
  · rintro ⟨admits, last⟩ upper member filled
    rcases prefix_concat_iff.mp ((mem_inits _ _).mp member) with rfl | before
    · rw [name_join_concat named isName]
      exact last
    · exact admits upper ((mem_inits _ _).mpr before) filled

/-- The file at a position, if the selection takes it. -/
def fileAt? (selection : Selection) (entry : List String × FileTree) :
    Option (String × String × Nat) :=
  let path := Text.join "/" entry.1
  if entry.2.isFile = true ∧ selection.Admits entry.1 ∧
      selection.takesIn path (Path.name path) = true then
    some (Path.name path, path, entry.2.size)
  else none

end Selection

section Walk

variable (selection : Selection)

theorem filesOf_file? {above : List String} {name : String} (tree : FileTree)
    (named : ∀ part ∈ above, Path.IsName part) (isName : Path.IsName name)
    (admits : selection.Admits above) (isFile : tree.isFile = true) :
    Structure.filesOf (selection.file? name (Text.join "/" (above ++ [name])) tree.size).toList =
      [(above ++ [name], tree)].filterMap selection.fileAt? := by
  have here : selection.Admits (above ++ [name]) ↔
      selection.leavesOut (Text.join "/" (above ++ [name])) name = false := by
    rw [Selection.admits_concat_iff named isName]
    exact and_iff_right admits
  have last := name_join_concat named isName
  cases out : selection.leavesOut (Text.join "/" (above ++ [name])) name with
  | true => simp [Selection.file?, Selection.fileAt?, here, out, Structure.filesOf]
  | false =>
    cases taken : selection.takesIn (Text.join "/" (above ++ [name])) name with
    | false => simp [Selection.file?, Selection.fileAt?, last, out, taken, Structure.filesOf]
    | true =>
      simp [Selection.file?, Selection.fileAt?, here, last, isFile, out, taken,
        Structure.filesOf, Structure.files]

theorem fileAt?_of_not_file {entry : List String × FileTree} (plain : entry.2.isFile = false) :
    selection.fileAt? entry = none := by
  simp [Selection.fileAt?, plain]

theorem filterMap_descendants_of_not_admits {position : List String} {tree : FileTree}
    (proper : tree.Proper) (refused : ¬ selection.Admits position) :
    (tree.descendants position).filterMap selection.fileAt? = [] := by
  rw [filterMap_eq_nil_iff]
  rintro ⟨place, below⟩ member
  rcases (FileTree.mem_descendants_iff position place below tree proper).mp member with
    ⟨rest, _, rfl, _⟩
  have barred : ¬ selection.Admits (position ++ rest) := fun admits => refused admits.of_append
  simp [Selection.fileAt?, barred]

mutual

theorem files_structure? {above : List String} {name : String}
    (named : ∀ part ∈ above, Path.IsName part) (isName : Path.IsName name)
    (admits : selection.Admits above) : (tree : FileTree) → tree.Proper →
      Structure.filesOf (structure? selection name (Text.join "/" (above ++ [name])) tree).toList =
        ((above ++ [name], tree) :: tree.descendants (above ++ [name])).filterMap
          selection.fileAt?
  | .file text, _ => by
    rw [structure?, FileTree.descendants_of_not_directory rfl]
    exact filesOf_file? selection (.file text) named isName admits rfl
  | .bytes content, _ => by
    rw [structure?, FileTree.descendants_of_not_directory rfl]
    exact filesOf_file? selection (.bytes content) named isName admits rfl
  | .link target, _ => by
    rw [structure?, FileTree.descendants_of_not_directory rfl, filterMap_cons,
      fileAt?_of_not_file selection rfl]
    · rfl
    all_goals nofun
  | .pipe, _ => by
    rw [structure?, FileTree.descendants_of_not_directory rfl, filterMap_cons,
      fileAt?_of_not_file selection rfl]
    · rfl
    all_goals nofun
  | .directory entries, proper => by
    have whole := proper
    cases whole with
    | directory ordered each below =>
      rw [filterMap_cons_none (fileAt?_of_not_file selection rfl), structure?]
      cases out : selection.leavesOut (Text.join "/" (above ++ [name])) name with
      | true =>
        have refused : ¬ selection.Admits (above ++ [name]) := by
          rw [Selection.admits_concat_iff named isName, out]
          simp
        rw [filterMap_descendants_of_not_admits selection proper refused]
        rfl
      | false =>
        have here : ∀ part ∈ above ++ [name], Path.IsName part := by
          intro part member
          rcases mem_append.mp member with before | last
          · exact named part before
          · exact mem_singleton.mp last ▸ isName
        have inside := files_structures here
          ((Selection.admits_concat_iff named isName).mpr ⟨admits, out⟩) entries each below
        have path : pathBelow (above ++ [name]) = Text.join "/" (above ++ [name]) :=
          if_neg (append_ne_nil_of_right_ne_nil _ (cons_ne_nil name []))
        rw [path] at inside
        rw [FileTree.descendants, ← inside]
        generalize structures selection (Text.join "/" (above ++ [name])) entries = children
        cases children with
        | nil =>
          have notDot := join_ne_dot (concat_ne_nil name above) here
          simp [notDot]
        | cons child rest => simp [Structure.filesOf, Structure.files]

theorem files_structures {position : List String} (named : ∀ part ∈ position, Path.IsName part)
    (admits : selection.Admits position) : (entries : List (String × FileTree)) →
      (∀ entry ∈ entries, Path.IsName entry.1) → (∀ entry ∈ entries, entry.2.Proper) →
      Structure.filesOf (structures selection (pathBelow position) entries) =
        (FileTree.descendantsOf position entries).filterMap selection.fileAt?
  | [], _, _ => by simp [structures, FileTree.descendantsOf, Structure.filesOf]
  | (name, tree) :: entries, each, below => by
    have head := files_structure? named (each (name, tree) mem_cons_self) admits tree
      (below (name, tree) mem_cons_self)
    have tail := files_structures named admits entries
      (fun entry member => each entry (mem_cons_of_mem (name, tree) member))
      (fun entry member => below entry (mem_cons_of_mem (name, tree) member))
    rw [structures, childPath_pathBelow name named, Structure.filesOf_append, head, tail,
      FileTree.descendantsOf, ← filterMap_append]

end

theorem childPath_ne_dot (path : String) {name : String} (isName : Path.IsName name) :
    childPath path name ≠ "." := by
  intro same
  rw [childPath] at same
  split at same
  · exact isName.notDot same
  · have slash : '/' ∈ (path ++ "/" ++ name).toList := by simp
    rw [same] at slash
    exact absurd slash (by decide)

theorem files_ne_nil_of_file? {name path : String} {found : Structure}
    (built : selection.file? name path size = some found) :
    ∀ node ∈ found.nodes, node.files ≠ [] := by
  rw [Selection.file?] at built
  split at built
  · cases built
    simp [Structure.nodes, Structure.files]
  · cases built

mutual

theorem files_ne_nil_of_structure? {name path : String} (notDot : path ≠ ".") :
    (tree : FileTree) → tree.Proper → ∀ found, structure? selection name path tree = some found →
      ∀ node ∈ found.nodes, node.files ≠ []
  | .file text, _ => by
    intro found built
    rw [structure?] at built
    exact files_ne_nil_of_file? selection built
  | .bytes content, _ => by
    intro found built
    rw [structure?] at built
    exact files_ne_nil_of_file? selection built
  | .link target, _ => by
    intro found built
    simp [structure?] at built
  | .pipe, _ => by
    intro found built
    simp [structure?] at built
  | .directory entries, proper => by
    intro found built
    cases proper with
    | directory ordered each below =>
      have inside := files_ne_nil_of_structures path entries each below
      rw [structure?] at built
      generalize structures selection path entries = children at built inside
      cases children with
      | nil => simp [notDot] at built
      | cons child rest =>
        simp only [isEmpty_cons, Bool.false_and, Bool.false_eq_true, if_false] at built
        split at built
        · cases built
        · cases built
          have first : child.files ≠ [] := inside child (by
            rw [Structure.nodesOf]
            exact mem_append_left _ child.self_mem_nodes)
          rw [Structure.nodes, forall_mem_cons]
          refine ⟨?_, inside⟩
          rw [Structure.files, Structure.filesOf]
          exact append_ne_nil_of_left_ne_nil first _

theorem files_ne_nil_of_structures (path : String) :
    (entries : List (String × FileTree)) → (∀ entry ∈ entries, Path.IsName entry.1) →
      (∀ entry ∈ entries, entry.2.Proper) →
      ∀ node ∈ Structure.nodesOf (structures selection path entries), node.files ≠ []
  | [], _, _ => by simp [structures, Structure.nodesOf]
  | (name, tree) :: entries, each, below => by
    intro node member
    rw [structures, Structure.mem_nodesOf_iff] at member
    rcases member with ⟨child, built, inside⟩
    rcases mem_append.mp built with here | later
    · have isName := each (name, tree) mem_cons_self
      exact files_ne_nil_of_structure? (childPath_ne_dot path isName) tree
        (below (name, tree) mem_cons_self) child (Option.mem_toList.mp here) node inside
    · exact files_ne_nil_of_structures path entries
        (fun entry member => each entry (mem_cons_of_mem (name, tree) member))
        (fun entry member => below entry (mem_cons_of_mem (name, tree) member)) node
        ((Structure.mem_nodesOf_iff _ node).mpr ⟨child, later, inside⟩)

end

end Walk

/-! ## Code files -/

/-- The code file for the name, path and size of a file, if its lowercase suffix belongs to a
language. -/
def CodeFile.of? : String × String × Nat → Option CodeFile
  | (name, path, _) =>
    (languageOfExtension? (Text.lower (Path.suffix name))).map fun language =>
      ⟨path, name, Text.lower (Path.suffix name), language⟩

mutual

theorem codeFiles_toJson :
    (found : Structure) → codeFiles found.toJson = .ok (found.files.filterMap CodeFile.of?)
  | .file name path size => by
    rw [Structure.toJson, codeFiles, Structure.files]
    cases known : languageOfExtension? (Text.lower (Path.suffix name)) with
    | none =>
      simp [Json.need, Json.getOr, lookup_cons, codeFile?, lowered, known, CodeFile.of?,
        bind, Except.bind, pure, Except.pure]
    | some language =>
      simp [Json.need, Json.getOr, lookup_cons, codeFile?, lowered, known, CodeFile.of?,
        bind, Except.bind, pure, Except.pure]
  | .directory name path children => by
    have inside := codeFilesOfChildren_toJsons children
    rw [Structure.toJson, codeFiles, Structure.files, ← inside]
    simp [Json.need, codeFilesOfMembers, bind, Except.bind]

theorem codeFilesOfChildren_toJsons :
    (found : List Structure) → codeFilesOfChildren (Structure.toJsons found) =
      .ok ((Structure.filesOf found).filterMap CodeFile.of?)
  | [] => by
    rw [Structure.toJsons, codeFilesOfChildren, Structure.filesOf]
    rfl
  | child :: rest => by
    rw [Structure.toJsons, codeFilesOfChildren, codeFiles_toJson child,
      codeFilesOfChildren_toJsons rest, Structure.filesOf, filterMap_append]
    rfl

end

/-! ## The files of a repository -/

/-- A selection takes a file at a position below a base if nothing on the way to it, itself
included, is a link or is left out, and an inclusion pattern matches it. -/
structure Selection.Takes (selection : Selection) (disk : Disk) (base place : List String)
    (file : FileTree) : Prop where
  named : ∀ name ∈ place, Path.IsName name
  found : disk.get? (Disk.pathOf (base ++ place)) = some file
  isFile : file.isFile = true
  unlinked : ∀ upper, upper ≠ [] → upper <+: place →
    disk.isLink (Disk.pathOf (base ++ upper)) = false
  admitted : ∀ upper, upper ≠ [] → upper <+: place →
    selection.leavesOut (Text.join "/" upper) (Path.name (Text.join "/" upper)) = false
  included : selection.takesIn (Text.join "/" place) (Path.name (Text.join "/" place)) = true

theorem Selection.fileAt?_eq_some_iff {selection : Selection} {below : FileTree}
    {name path : String} :
    selection.fileAt? (place, below) = some (name, path, size) ↔
      (below.isFile = true ∧ selection.Admits place ∧
        selection.takesIn path (Path.name path) = true) ∧
      path = Text.join "/" place ∧ name = Path.name path ∧ size = below.size := by
  simp only [fileAt?, Option.ite_none_right_eq_some, Option.some.injEq, Prod.mk.injEq]
  constructor
  · rintro ⟨taken, rfl, rfl, rfl⟩
    exact ⟨taken, rfl, rfl, rfl⟩
  · rintro ⟨taken, rfl, rfl, rfl⟩
    exact ⟨taken, rfl, rfl, rfl⟩

section Root

variable (selection : Selection) {disk : Disk} {base : List String}
  {entries : List (String × FileTree)}

theorem mem_descendantsOf_root_iff (proper : (FileTree.directory entries).Proper)
    {below : FileTree} :
    (place, below) ∈ FileTree.descendantsOf [] entries ↔
      place ≠ [] ∧ (FileTree.directory entries).get? place = some below := by
  have walked := FileTree.mem_descendants_iff [] place below (.directory entries) proper
  rw [FileTree.descendants] at walked
  rw [walked]
  constructor
  · rintro ⟨rest, filled, rfl, found⟩
    exact ⟨filled, found⟩
  · rintro ⟨filled, found⟩
    exact ⟨place, filled, rfl, found⟩

theorem takes_iff (proper : disk.root.Proper)
    (isDirectory : disk.root.get? base = some (.directory entries)) {file : FileTree} :
    selection.Takes disk base place file ↔
      (place, file) ∈ FileTree.descendantsOf [] entries ∧ file.isFile = true ∧
        selection.Admits place ∧
        selection.takesIn (Text.join "/" place) (Path.name (Text.join "/" place)) = true := by
  have below : disk.root.get? (base ++ place) = (FileTree.directory entries).get? place := by
    rw [FileTree.get?_append, isDirectory, Option.bind_some]
  have top : Disk.Straight disk.root base := .of_get? proper isDirectory rfl
  rw [mem_descendantsOf_root_iff (proper.get? isDirectory).2, ← below]
  constructor
  · intro takes
    have straight := top.append takes.named takes.unlinked
    have found := takes.found
    rw [straight.get?_pathOf] at found
    refine ⟨⟨?_, found⟩, takes.isFile, ?_, takes.included⟩
    · rintro rfl
      rw [append_nil, isDirectory] at found
      cases found
      cases takes.isFile
    · intro upper member filled
      exact takes.admitted upper filled ((mem_inits _ _).mp member)
  · rintro ⟨⟨filled, found⟩, isFile, admits, included⟩
    have plain : file.isLink = false := by
      cases file with
      | link target => cases isFile
      | _ => rfl
    have straight := Disk.Straight.of_get? proper found plain
    refine ⟨?_, ?_, isFile, ?_, ?_, included⟩
    · exact fun name member => straight.named name (mem_append_right base member)
    · rw [straight.get?_pathOf]
      exact found
    · intro upper upperFilled starts
      apply (straight.of_prefix ((prefix_append_right_inj base).mpr starts)).isLink_pathOf
      exact append_ne_nil_of_right_ne_nil base upperFilled
    · intro upper upperFilled starts
      exact admits upper ((mem_inits _ _).mpr starts) upperFilled

theorem taken_increasing (proper : (FileTree.directory entries).Proper) :
    (((FileTree.descendantsOf [] entries).filterMap selection.fileAt?).map
      fun file => Path.parts file.2.1).Pairwise (· < ·) := by
  have walked := FileTree.descendants_increasing [] (.directory entries) proper
  rw [FileTree.descendants, pairwise_map] at walked
  have placed : ∀ place below name path size, (place, below) ∈ FileTree.descendantsOf [] entries →
      selection.fileAt? (place, below) = some (name, path, size) → Path.parts path = place := by
    intro place below name path size member taken
    have found := ((mem_descendantsOf_root_iff proper).mp member).2
    rw [(Selection.fileAt?_eq_some_iff.mp taken).2.1]
    exact Path.parts_join fun name inside => ((proper.get? found).1 name inside).toIsPart
  rw [pairwise_map, pairwise_filterMap]
  apply walked.imp_of_mem
  rintro ⟨place, below⟩ ⟨later, other⟩ here there less ⟨_, path, _⟩ taken ⟨_, next, _⟩ nextTaken
  rw [placed place below _ path _ here taken, placed later other _ next _ there nextTaken]
  exact less

theorem mem_taken_iff (proper : disk.root.Proper)
    (isDirectory : disk.root.get? base = some (.directory entries)) {name path : String} :
    (name, path, size) ∈ (FileTree.descendantsOf [] entries).filterMap selection.fileAt? ↔
      ∃ place file, selection.Takes disk base place file ∧ path = Text.join "/" place ∧
        name = Path.name path ∧ size = file.size := by
  rw [mem_filterMap]
  constructor
  · rintro ⟨⟨place, file⟩, member, taken⟩
    rcases Selection.fileAt?_eq_some_iff.mp taken with ⟨parts, rfl, rfl, rfl⟩
    exact ⟨place, file, (takes_iff selection proper isDirectory).mpr ⟨member, parts⟩, rfl, rfl, rfl⟩
  · rintro ⟨place, file, takes, rfl, rfl, rfl⟩
    rcases (takes_iff selection proper isDirectory).mp takes with ⟨member, parts⟩
    exact ⟨(place, file), member, Selection.fileAt?_eq_some_iff.mpr ⟨parts, rfl, rfl, rfl⟩⟩

theorem structureAt_eq_ok {path : String} (position : disk.entryPosition path = .ok base)
    (isDirectory : disk.root.get? base = some (.directory entries))
    (kept : selection.leavesOut "." (Path.name path) = false) :
    structureAt selection disk path =
      .ok (.directory (Path.name path) "." (structures selection "." entries)) := by
  have found : disk.entry? path = some (.directory entries) := by
    rw [ Disk.entry?, position]
    exact isDirectory
  have built : analyze? selection (Path.name path) (.directory entries) =
      some (.directory (Path.name path) "." (structures selection "." entries)) := by
    simp [analyze?, structure?, kept]
  rw [structureAt, found, Option.bind_some, built]
  rfl

theorem fileNodes_root (proper : (FileTree.directory entries).Proper) (name : String) :
    (Structure.directory name "." (structures selection "." entries)).fileNodes =
      (FileTree.descendantsOf [] entries).filterMap selection.fileAt? := by
  cases proper with
  | directory ordered each below =>
    have none : ∀ part ∈ ([] : List String), Path.IsName part :=
      forall_mem_nil _
    have files := files_structures selection none selection.admits_nil entries each below
    rw [← Structure.files_eq_fileNodes, Structure.files]
    exact files

end Root

/-- A structure lists exactly the files that a selection takes below a base, each of them once and
in the order of their positions. Every directory other than the root has a file beneath it. The
number of files and the code files are read off the file nodes. -/
structure Structure.Exact (found : Structure) (selection : Selection) (disk : Disk)
    (base : List String) : Prop where
  taken : ∀ name path size, (name, path, size) ∈ found.fileNodes ↔
    ∃ place file, selection.Takes disk base place file ∧ path = Text.join "/" place ∧
      name = Path.name path ∧ size = file.size
  once : (found.fileNodes.map fun file => file.2.1).Nodup
  ordered : (found.fileNodes.map fun file => Path.parts file.2.1).Pairwise (· < ·)
  filled : ∀ node ∈ found.nodes.tail, node.isDirectory = true → node.fileNodes ≠ []
  total : found.summary.lookup "total_files" = some (.nat found.fileNodes.length)
  code : codeFiles found.toJson = .ok (found.fileNodes.filterMap CodeFile.of?)

theorem structureAt_exact (selection : Selection) (disk : Disk) (path : String)
    (base : List String) (entries : List (String × FileTree)) (proper : disk.root.Proper)
    (position : disk.entryPosition path = .ok base)
    (isDirectory : disk.root.get? base = some (.directory entries))
    (kept : selection.leavesOut "." (Path.name path) = false) :
    ∃ found, structureAt selection disk path = .ok found ∧ found.Exact selection disk base := by
  have whole := (proper.get? isDirectory).2
  have listed := fileNodes_root selection whole (Path.name path)
  have increasing := taken_increasing selection whole
  rw [← listed] at increasing
  refine ⟨_, structureAt_eq_ok selection position isDirectory kept, ?_⟩
  constructor
  · intro name path size
    rw [listed]
    exact mem_taken_iff selection proper isDirectory
  · rw [List.pairwise_map] at increasing
    rw [List.Nodup, List.pairwise_map]
    apply increasing.imp
    intro earlier later less same
    rw [same] at less
    exact List.lt_irrefl _ less
  · exact increasing
  · intro node member _
    rw [← Structure.files_eq_fileNodes]
    cases whole with
    | directory ordered each below =>
      exact files_ne_nil_of_structures selection "." entries each below node member
  · rw [← Structure.files_eq_fileNodes]
    rfl
  · rw [← Structure.files_eq_fileNodes]
    exact codeFiles_toJson _

/-- A repository with a file that is only linked to, one in a directory that is left out, and one
that is no text. -/
def smallDisk : Disk where
  root := .directory [
    ("work", .directory [
      ("build", .directory [("made.py", .file "")]),
      ("lib", .directory [("Run.PY", .file "run()"), ("notes", .bytes [255])]),
      ("links", .directory [("run.py", .link "../lib/Run.PY")]),
      ("main.py", .file "main()")])]
  current := []

def pythonFiles : Selection := ⟨["*.py", "*.PY"], ["build/"]⟩

theorem smallDisk_structure_exact :
    smallDisk.root.Proper ∧ smallDisk.entryPosition "/work" = .ok ["work"] ∧
      pythonFiles.leavesOut "." (Path.name "/work") = false ∧
      ∃ found, structureAt pythonFiles smallDisk "/work" = .ok found ∧
        found.Exact pythonFiles smallDisk ["work"] := by
  have proper : smallDisk.root.Proper := by decide
  have top : Disk.Straight smallDisk.root [] := .nil smallDisk.root
  have text : "/work" = Disk.pathOf ([] ++ ["work"]) := by decide +kernel
  have position : smallDisk.entryPosition "/work" = .ok ["work"] := by
    rw [text]
    exact top.entryPosition_of_directory (by decide) rfl
  have kept : pythonFiles.leavesOut "." (Path.name "/work") = false := by cbv
  exact ⟨proper, position, kept,
    structureAt_exact pythonFiles smallDisk "/work" ["work"] _ proper position rfl kept⟩

end CodeAtlas.Repository
