import CodeAtlas.Proofs.Disk.Ways
import CodeAtlas.Proofs.Workspace

/-!
Writing to a disk. A change that leaves links and directories in their places leaves every way as it
was. Writing a file is such a change, and so is making a directory. Hence what was written is read
again under the same path, and the directories that were made once need not be made again.
-/

namespace CodeAtlas.FileTree

variable {entries : List (String × FileTree)} {name : String} {value : FileTree}

/-! ## What stands where after a change -/

theorem lookup_insertEntry (name other : String) (tree : FileTree)
    (entries : List (String × FileTree)) :
    (insertEntry name tree entries).lookup other =
      if other = name then some tree else entries.lookup other := by
  induction entries with
  | nil =>
    by_cases same : other = name
    · simp [insertEntry, same]
    · simp [insertEntry, OrderedMap.lookup_cons_of_ne same, same]
  | cons entry rest induction =>
    rcases entry with ⟨present, old⟩
    by_cases here : name = present
    · subst here
      by_cases same : other = name
      · simp [insertEntry, same]
      · simp [insertEntry, OrderedMap.lookup_cons_of_ne same, same]
    · by_cases before : name < present
      · by_cases same : other = name
        · simp [insertEntry, here, before, same]
        · simp [insertEntry, here, before, OrderedMap.lookup_cons_of_ne same, same]
      · by_cases atPresent : other = present
        · subst atPresent
          simp [insertEntry, here, before, Ne.symm here]
        · simp [insertEntry, here, before, OrderedMap.lookup_cons_of_ne atPresent, induction]

theorem child?_put_cons (tree : FileTree) (name other : String) (rest : List String)
    (value : FileTree) :
    (tree.put (name :: rest) value).child? other =
      if other = name then some (((tree.child? name).getD (.directory [])).put rest value)
      else tree.child? other := by
  rw [put]
  exact lookup_insertEntry name other _ tree.entries

@[simp] theorem get?_put_self (tree : FileTree) (place : List String) (value : FileTree) :
    (tree.put place value).get? place = some value := by
  induction place generalizing tree with
  | nil => simp [put]
  | cons name rest induction => simp [get?_cons, child?_put_cons, induction]

/-- A later tree has the links of an earlier one, and directories where that has directories. -/
structure Keeps (tree later : FileTree) : Prop where
  links : ∀ place target,
    later.get? place = some (.link target) ↔ tree.get? place = some (.link target)
  directories : ∀ place entries, tree.get? place = some (.directory entries) →
    ∃ entries, later.get? place = some (.directory entries)

theorem Keeps.refl (tree : FileTree) : Keeps tree tree :=
  ⟨fun _ _ => Iff.rfl, fun _ entries found => ⟨entries, found⟩⟩

theorem Keeps.trans {tree middle later : FileTree} (first : Keeps tree middle)
    (second : Keeps middle later) : Keeps tree later := by
  constructor
  · intro place target
    rw [second.links, first.links]
  · intro place entries found
    rcases first.directories place entries found with ⟨_, found⟩
    exact second.directories place _ found

theorem keeps_insertEntry (links : ∀ rest target, value.get? rest = some (.link target) ↔
      (directory entries).get? (name :: rest) = some (.link target))
    (directories : ∀ rest below, (directory entries).get? (name :: rest) = some (.directory below) →
      ∃ below, value.get? rest = some (.directory below)) :
    Keeps (.directory entries) (.directory (insertEntry name value entries)) := by
  have child : ∀ other, (directory (insertEntry name value entries)).child? other =
      if other = name then some value else (directory entries).child? other :=
    fun other => lookup_insertEntry name other value entries
  constructor
  · intro place target
    cases place with
    | nil => simp
    | cons other rest =>
      by_cases same : other = name
      · subst same
        rw [← links rest target, get?_cons, child, if_pos rfl]
        rfl
      · rw [get?_cons, get?_cons, child, if_neg same]
  · intro place below found
    cases place with
    | nil => exact ⟨_, get?_nil _⟩
    | cons other rest =>
      by_cases same : other = name
      · subst same
        rw [get?_cons, child, if_pos rfl]
        exact directories rest below found
      · rw [get?_cons, child, if_neg same, ← get?_cons]
        exact ⟨below, found⟩

/-- Whether nothing is below a tree and no way leads through it. -/
def isPlain : FileTree → Bool
  | .directory _ | .link _ => false
  | _ => true

theorem keeps_put_top
    (free : ∀ old, (directory entries).get? [name] = some old → old.isPlain = true)
    (notLink : value.isLink = false) (empty : value.entries = []) :
    Keeps (.directory entries) ((directory entries).put [name] value) := by
  have below : ∀ other rest, value.get? (other :: rest) = none := by
    intro other rest
    simp [get?_cons, child?, empty]
  -- What was there before leads nowhere further.
  have before : ∀ rest old, (directory entries).get? (name :: rest) = some old →
      rest = [] ∧ old.isPlain = true := by
    intro rest old found
    cases rest with
    | nil => exact ⟨rfl, free old found⟩
    | cons other rest =>
      have split : (directory entries).get? ([name] ++ other :: rest) = some old := found
      rcases directory_above (List.cons_ne_nil other rest) split with ⟨_, atName⟩
      cases free _ atName
  rw [put, put]
  apply keeps_insertEntry
  · intro rest target
    constructor
    · intro found
      cases rest with
      | nil =>
        rw [get?_nil] at found
        cases found
        cases notLink
      | cons other rest =>
        rw [below] at found
        cases found
    · intro found
      cases (before rest _ found).2
  · intro rest old found
    cases (before rest _ found).2

theorem keeps_put {tree : FileTree} {place : List String}
    (inside : tree.get? place = some (.directory entries))
    (free : ∀ old, tree.get? (place ++ [name]) = some old → old.isPlain = true)
    (notLink : value.isLink = false) (empty : value.entries = []) :
    Keeps tree (tree.put (place ++ [name]) value) := by
  induction place generalizing tree with
  | nil =>
    rw [get?_nil] at inside
    cases inside
    exact keeps_put_top free notLink empty
  | cons first place induction =>
    rw [get?_cons] at inside
    rcases Option.bind_eq_some_iff.mp inside with ⟨child, atFirst, atPlace⟩
    rcases directory_of_child? atFirst with ⟨above, rfl⟩
    have onward : ∀ rest, (directory above).get? (first :: rest) = child.get? rest := by
      intro rest
      rw [get?_cons, atFirst]
      rfl
    have kept := induction atPlace fun old found => free old (by
      rw [List.cons_append, onward]
      exact found)
    rw [List.cons_append, put, atFirst]
    apply keeps_insertEntry
    · intro rest target
      rw [onward]
      exact kept.links rest target
    · intro rest old found
      rw [onward] at found
      exact kept.directories rest old found

end CodeAtlas.FileTree

namespace CodeAtlas.Disk

variable {position place parts : List String} {after : Disk} {text : String}

variable {root later : FileTree} {strict : Bool}

/-! ## Ways after a change -/

theorem Way.keeps {links : Nat} {todo : List String}
    (way : Way root strict links position todo place) (kept : FileTree.Keeps root later) :
    Way later strict links position todo place := by
  have enters : ∀ {position},
      (strict = true → ∃ entries, root.get? position = some (.directory entries)) →
      strict = true → ∃ entries, later.get? position = some (.directory entries) := by
    intro position entered isStrict
    rcases entered isStrict with ⟨entries, found⟩
    exact kept.directories position entries found
  induction way with
  | arrived => exact .arrived
  | up entered further induction => exact .up (enters entered) induction
  | through entered notUp found further induction =>
    exact .through (enters entered) notUp ((kept.links _ _).mpr found) induction
  | down entered notUp plain further induction =>
    exact .down (enters entered) notUp
      (fun target found => plain target ((kept.links _ _).mp found))
      induction

/-- A disk after a change that keeps links and directories. -/
structure Keeps (disk later : Disk) : Prop where
  root : FileTree.Keeps disk.root later.root
  current : later.current = disk.current

namespace Keeps

theorem refl (disk : Disk) : Keeps disk disk := ⟨.refl disk.root, rfl⟩

theorem trans {disk middle later : Disk} (first : Keeps disk middle) (second : Keeps middle later) :
    Keeps disk later :=
  ⟨first.root.trans second.root, second.current.trans first.current⟩

theorem startOf {disk later : Disk} (kept : Keeps disk later) (path : String) :
    later.startOf path = disk.startOf path := by
  rw [Disk.startOf, Disk.startOf, kept.current]

theorem resolve {disk later : Disk} (kept : Keeps disk later) {path : String}
    (resolved : disk.resolve strict path = .ok place) : later.resolve strict path = .ok place := by
  rw [resolve_eq_ok_iff] at resolved ⊢
  rw [kept.startOf]
  exact ⟨resolved.1, resolved.2.keeps kept.root⟩

end Keeps

/-! ## Disks with a current directory -/

/-- The current directory is there. -/
def Grounded (disk : Disk) : Prop :=
  ∃ entries, disk.root.get? disk.current = some (.directory entries)

theorem Grounded.top {disk : Disk} (grounded : disk.Grounded) :
    ∃ entries, disk.root.get? [] = some (.directory entries) := by
  rcases grounded with ⟨entries, found⟩
  rw [← List.nil_append disk.current] at found
  rcases List.eq_nil_or_concat' disk.current with empty | ⟨above, last, filled⟩
  · rw [empty] at found
    exact ⟨entries, found⟩
  · exact FileTree.directory_above (filled ▸ List.concat_ne_nil last above) found

theorem Grounded.startOf {disk : Disk} (grounded : disk.Grounded) (path : String) :
    ∃ entries, disk.root.get? (disk.startOf path) = some (.directory entries) := by
  rw [Disk.startOf]
  split
  · exact grounded.top
  · exact grounded

theorem Keeps.grounded {disk later : Disk} (kept : Keeps disk later) (grounded : disk.Grounded) :
    later.Grounded := by
  rcases grounded with ⟨entries, found⟩
  rw [Grounded, kept.current]
  exact kept.root.directories disk.current entries found

/-! ## Files -/

theorem exists_folder_of_write {disk : Disk} {path : String} (grounded : disk.Grounded)
    (written : disk.write path text = .ok after) :
    ∃ folder name entries, disk.resolve true path = .ok (folder ++ [name]) ∧
      disk.root.get? folder = some (.directory entries) ∧
      after = { disk with root := disk.root.put (folder ++ [name]) (.file text) } := by
  rcases bind_eq_ok_iff.mp written with ⟨place, resolved, rest⟩
  rcases List.eq_nil_or_concat' place with rfl | ⟨folder, name, rfl⟩
  · rcases grounded.top with ⟨entries, top⟩
    rw [top] at rest
    cases rest
  · refine ⟨folder, name, ?_⟩
    cases found : disk.root.get? (folder ++ [name]) with
    | none =>
      simp only [found, List.dropLast_concat] at rest
      cases inside : disk.root.get? folder with
      | none => simp [inside, bind, Except.bind, throw, throwThe, MonadExceptOf.throw] at rest
      | some tree =>
        cases tree with
        | directory entries =>
          rw [inside] at rest
          cases rest
          exact ⟨entries, resolved, rfl, rfl⟩
        | _ =>
          simp [inside, FileTree.isDirectory, bind, Except.bind, throw, throwThe,
            MonadExceptOf.throw] at rest
    | some tree =>
      rcases FileTree.directory_above (List.cons_ne_nil name []) found with ⟨entries, inside⟩
      refine ⟨entries, resolved, inside, ?_⟩
      rw [found] at rest
      cases tree <;> cases rest <;> rfl

theorem write_of_resolve {disk : Disk} {path name : String} {above : List String}
    {entries : List (String × FileTree)} (resolved : disk.resolve true path = .ok (above ++ [name]))
    (inside : disk.root.get? above = some (.directory entries))
    (free : ∀ held, disk.root.get? (above ++ [name]) ≠ some (.directory held)) (text : String) :
    disk.write path text =
      .ok { disk with root := disk.root.put (above ++ [name]) (.file text) } := by
  simp only [write, writeFile, resolved, bind, Except.bind]
  cases there : disk.root.get? (above ++ [name]) with
  | none =>
    rw [List.dropLast_concat, inside]
    rfl
  | some old =>
    cases old with
    | directory held => exact absurd there (free held)
    | _ => rfl

theorem write_eq_ok {disk : Disk} {path : String} (grounded : disk.Grounded)
    (written : disk.write path text = .ok after)
    (free : ∀ old, disk.get? path = some old → old.isPlain = true) :
    Keeps disk after ∧ after.get? path = some (.file text) := by
  rcases exists_folder_of_write grounded written with
    ⟨folder, name, entries, resolved, inside, rfl⟩
  have kept : Keeps disk { disk with root := disk.root.put (folder ++ [name]) (.file text) } := by
    refine ⟨FileTree.keeps_put inside (fun old found => ?_) rfl rfl, rfl⟩
    exact free old (get?_eq_some_iff.mpr ⟨_, resolved, found⟩)
  refine ⟨kept, get?_eq_some_iff.mpr ⟨_, kept.resolve resolved, ?_⟩⟩
  exact FileTree.get?_put_self _ _ _

/-- Any text can be written at a path. -/
def Writable (disk : Disk) (path : String) : Prop :=
  ∀ text, ∃ after, disk.write path text = .ok after

theorem writable_of_file {disk : Disk} {path : String} (found : disk.get? path = some (.file text))
    : disk.Writable path := by
  intro other
  rcases get?_eq_some_iff.mp found with ⟨place, resolved, inside⟩
  refine ⟨{ disk with root := disk.root.put place (.file other) }, ?_⟩
  simp only [write, writeFile, resolved, bind, Except.bind, inside]
  rfl

/-! ## Directories -/

/-- Following the names from a position one after the other leads to directories only. -/
inductive Made (root : FileTree) : List String → List String → Prop
  | done {position : List String} : Made root position []
  | further {position place rest : List String} {name : String}
      {entries : List (String × FileTree)} (way : Way root false maxLinks position [name] place)
      (found : root.get? place = some (.directory entries)) (onward : Made root place rest) :
      Made root position (name :: rest)

theorem Made.keeps (made : Made root position parts) (kept : FileTree.Keeps root later) :
    Made later position parts := by
  induction made with
  | done => exact .done
  | further way found onward induction =>
    rcases kept.directories _ _ found with ⟨_, there⟩
    exact .further (way.keeps kept) there induction

theorem Made.go {disk : Disk} (made : Made disk.root position parts) :
    makeDirectories.go disk position.reverse parts = .ok disk := by
  induction made with
  | done => rfl
  | further way found onward induction =>
    rw [makeDirectories.go, way.follow]
    simp only [bind, Except.bind, List.reverse_reverse, found]
    exact induction

theorem eq_concat_of_way {links : Nat} {name : String} {entries : List (String × FileTree)}
    (here : root.get? position = some (.directory entries))
    (way : Way root strict links position [name] place) (missing : root.get? place = none)
    (noEntry : root.get? (position ++ [name]) = none) : place = position ++ [name] := by
  cases way with
  | up entered further =>
    cases further
    rcases List.eq_nil_or_concat' position with rfl | ⟨above, last, rfl⟩
    · cases here.symm.trans missing
    · rcases FileTree.directory_above (List.cons_ne_nil last []) here with ⟨_, found⟩
      rw [List.dropLast_concat, found] at missing
      cases missing
  | through entered notUp found further =>
    rw [noEntry] at found
    cases found
  | down entered notUp plain further =>
    cases further
    rfl

/-- One step goes to a directory that is there, or makes an empty one where nothing was. -/
theorem go_cons {disk : Disk} {name : String} {rest : List String}
    {entries : List (String × FileTree)}
    (here : disk.root.get? position = some (.directory entries))
    (run : makeDirectories.go disk position.reverse (name :: rest) = .ok after) :
    ∃ place middle, Way disk.root false maxLinks position [name] place ∧
      (∃ held, middle.root.get? place = some (.directory held)) ∧
      makeDirectories.go middle place.reverse rest = .ok after ∧
      (middle = disk ∨ place = position ++ [name] ∧ disk.root.get? place = none ∧
        middle = { disk with root := disk.root.put place (.directory []) }) := by
  rw [makeDirectories.go] at run
  rcases bind_eq_ok_iff.mp run with ⟨reversed, followed, run⟩
  have way := way_of_follow _ _ _ _ followed
  rw [← List.reverse_reverse reversed] at run
  generalize reversed.reverse = place at way run
  rw [List.reverse_reverse, List.reverse_cons, List.reverse_reverse] at run
  split at run
  · rename_i held found
    exact ⟨place, disk, way, ⟨held, found⟩, run, .inl rfl⟩
  · cases run
  · rename_i missing
    -- An entry that leads nowhere is a link and stops the run; otherwise the way ends here.
    cases noEntry : disk.root.get? (position ++ [name]) with
    | some tree => simp [noEntry, bind, Except.bind, throw, throwThe, MonadExceptOf.throw] at run
    | none =>
      cases eq_concat_of_way here way missing noEntry
      rw [noEntry] at run
      exact ⟨_, _, way, ⟨[], FileTree.get?_put_self disk.root _ _⟩, run, .inr ⟨rfl, missing, rfl⟩⟩

theorem made_of_go {disk : Disk} {entries : List (String × FileTree)}
    (here : disk.root.get? position = some (.directory entries))
    (run : makeDirectories.go disk position.reverse parts = .ok after) :
    Keeps disk after ∧ Made after.root position parts := by
  induction parts generalizing disk position entries with
  | nil =>
    cases run
    exact ⟨.refl _, .done⟩
  | cons name rest induction =>
    rcases go_cons here run with ⟨place, middle, way, ⟨held, there⟩, run, change⟩
    have first : Keeps disk middle := by
      rcases change with rfl | ⟨rfl, missing, rfl⟩
      · exact .refl _
      · refine ⟨FileTree.keeps_put here (fun old found => ?_) rfl rfl, rfl⟩
        cases missing.symm.trans found
    rcases induction there run with ⟨second, made⟩
    rcases second.root.directories _ _ there with ⟨_, there⟩
    have kept := first.trans second
    exact ⟨kept, .further (way.keeps kept.root) there made⟩

theorem keeps_makeDirectories {disk : Disk} {path : String} (grounded : disk.Grounded)
    (made : disk.makeDirectories path = .ok after) : Keeps disk after := by
  rw [makeDirectories] at made
  rcases grounded.startOf path with ⟨entries, here⟩
  split at made
  · cases made
  · exact (made_of_go here made).1

/-- Directories that were made are there after every change that keeps directories. -/
theorem makeDirectories_again {disk later : Disk} {path : String} (grounded : disk.Grounded)
    (made : disk.makeDirectories path = .ok after) (kept : Keeps after later) :
    later.makeDirectories path = .ok later := by
  rw [makeDirectories] at made ⊢
  rcases grounded.startOf path with ⟨entries, here⟩
  split at made
  · cases made
  · rcases made_of_go here made with ⟨first, whole⟩
    rw [(first.trans kept).startOf]
    exact (whole.keeps kept.root).go

end CodeAtlas.Disk
