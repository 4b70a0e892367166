import CodeAtlas.Proofs.Disk.Removal

/-!
Folders without links. Every path below such a folder leads to the place that its parts name, so what
can be read or written there depends on nothing but what is seen at this place and above it. The view
of a tree says for each place what is seen there: a file with its content, or that it is a directory,
whatever the directory holds. Writing a file changes the view at one place; making directories
changes it where a directory was missing.
-/

namespace CodeAtlas.FileTree

open List

variable {name : String} {tree : FileTree}

/-! ## What is put where -/

/-- Putting something somewhere changes nothing at a place that is neither above nor below. -/
theorem get?_put_apart (tree value : FileTree) {place other : List String}
    (notBelow : ¬ place <+: other) (notAbove : ¬ other <+: place) :
    (tree.put place value).get? other = tree.get? other := by
  induction place generalizing tree other with
  | nil => exact absurd nil_prefix notBelow
  | cons name rest induction =>
    cases other with
    | nil => exact absurd nil_prefix notAbove
    | cons first others =>
      rw [get?_cons, get?_cons, child?_put_cons]
      by_cases same : first = name
      · subst same
        have below : ¬ rest <+: others := fun starts =>
          notBelow (cons_prefix_cons.mpr ⟨rfl, starts⟩)
        have above : ¬ others <+: rest := fun starts =>
          notAbove (cons_prefix_cons.mpr ⟨rfl, starts⟩)
        rw [if_pos rfl, Option.bind_some, induction _ below above]
        cases tree.child? first with
        | some child => rfl
        | none =>
          cases others with
          | nil => exact absurd nil_prefix above
          | cons second others => rfl
      · rw [if_neg same]

theorem insertEntry_of_mem {child : FileTree} {entries : List (String × FileTree)}
    (ordered : (entries.map Prod.fst).Pairwise (· < ·)) (member : (name, child) ∈ entries) :
    insertEntry name child entries = entries := by
  induction entries with
  | nil => exact absurd member not_mem_nil
  | cons entry rest induction =>
    rcases entry with ⟨other, old⟩
    rcases pairwise_cons.mp ordered with ⟨first, later⟩
    rcases mem_cons.mp member with same | further
    · cases same
      simp [insertEntry]
    · have behind : other < name := first name (mem_map_of_mem further)
      have different : name ≠ other := fun same => String.lt_irrefl other (same ▸ behind)
      have notBefore : ¬ name < other := String.lt_asymm behind
      simp [insertEntry, different, notBefore, induction later further]

theorem put_get? {value : FileTree} {place : List String} (proper : tree.Proper)
    (found : tree.get? place = some value) : tree.put place value = tree := by
  induction place generalizing tree with
  | nil =>
    rw [get?_nil] at found
    cases found
    rw [put]
  | cons name rest induction =>
    rw [get?_cons] at found
    rcases Option.bind_eq_some_iff.mp found with ⟨child, atName, below⟩
    rcases directory_of_child? atName with ⟨entries, rfl⟩
    have member := proper.child?_iff.mp atName
    rw [put, atName, Option.getD_some, induction (proper.child atName).2 below]
    cases proper with
    | directory ordered named inner =>
      exact congrArg FileTree.directory (insertEntry_of_mem ordered member)

/-! ## Views -/

/-- A tree without what is in it. -/
def surface : FileTree → FileTree
  | .directory _ => .directory []
  | tree => tree

def view (tree : FileTree) (place : List String) : Option FileTree := (tree.get? place).map surface

variable {tree : FileTree} {place : List String}

theorem view_eq_directory_iff :
    tree.view place = some (.directory []) ↔ ∃ entries, tree.get? place = some (.directory entries) := by
  rw [view]
  cases tree.get? place with
  | none => simp
  | some below => cases below <;> simp [surface]

theorem view_eq_some_iff {file : FileTree} (isFile : file.isFile = true) :
    tree.view place = some file ↔ tree.get? place = some file := by
  rw [view]
  cases tree.get? place with
  | none => simp
  | some below => cases below <;> cases file <;> cases isFile <;> simp [surface]

theorem view_eq_none_iff : tree.view place = none ↔ tree.get? place = none := by
  rw [view, Option.map_eq_none_iff]

/-- What is put in the place of nothing, or of something that is no directory, is seen there and
nowhere else. -/
theorem view_put {above : List String} {value : FileTree}
    (inside : tree.view above = some (.directory []))
    (free : tree.view (above ++ [name]) ≠ some (.directory [])) (empty : value.entries = [])
    (other : List String) :
    (tree.put (above ++ [name]) value).view other =
      if other = above ++ [name] then some value.surface else tree.view other := by
  rcases view_eq_directory_iff.mp inside with ⟨entries, folder⟩
  split
  · rename_i same
    rw [same, view, get?_put_self, Option.map_some]
  · rename_i different
    by_cases upper : other <+: above ++ [name]
    · -- Above the place there are directories, before and afterwards.
      have starts : other <+: above := by
        rcases prefix_concat_iff.mp upper with same | starts
        · exact absurd same different
        · exact starts
      have apart : ¬ above ++ [name] <+: other := fun longer => by
        have shorter := (longer.trans starts).length_le
        rw [length_append] at shorter
        exact absurd shorter (by simp)
      have before : ∃ entries, tree.get? other = some (.directory entries) := by
        rcases starts with ⟨rest, rfl⟩
        cases rest with
        | nil => exact ⟨entries, by rwa [append_nil] at folder⟩
        | cons next rest => exact directory_above (cons_ne_nil next rest) folder
      rcases before with ⟨held, found⟩
      rw [view_eq_directory_iff.mpr ⟨held, found⟩,
        view_eq_directory_iff.mpr (directory_of_put value found apart)]
    · by_cases lower : above ++ [name] <+: other
      · -- Below the place there is nothing, before and afterwards.
        rcases lower with ⟨rest, rfl⟩
        cases rest with
        | nil => exact absurd (append_nil _) different
        | cons next rest =>
          have after : (tree.put (above ++ [name]) value).get? (above ++ [name] ++ next :: rest) =
              none := by
            rw [get?_append, get?_put_self, Option.bind_some, get?_cons, child?, empty]
            rfl
          have before : tree.get? (above ++ [name] ++ next :: rest) = none := by
            rw [Option.eq_none_iff_forall_ne_some]
            intro below found
            exact free (view_eq_directory_iff.mpr
              (directory_above (cons_ne_nil next rest) found))
          rw [view, view, after, before]
      · rw [view, view, get?_put_apart tree value lower upper]

/-! ## Trees without links -/

mutual

def isUnlinked : FileTree → Bool
  | .link _ => false
  | .directory entries => areUnlinked entries
  | _ => true

def areUnlinked : List (String × FileTree) → Bool
  | [] => true
  | (_, tree) :: rest => isUnlinked tree && areUnlinked rest

end

theorem isUnlinked_of_lookup {entries : List (String × FileTree)}
    (each : areUnlinked entries = true) (found : entries.lookup name = some tree) :
    tree.isUnlinked = true := by
  induction entries with
  | nil => cases found
  | cons entry rest induction =>
    rcases entry with ⟨first, child⟩
    rw [areUnlinked, Bool.and_eq_true] at each
    rw [lookup_cons] at found
    split at found
    · cases found
      exact each.1
    · exact induction each.2 found

theorem get?_ne_link (unlinked : tree.isUnlinked = true) (place : List String) (target : String) :
    tree.get? place ≠ some (.link target) := by
  induction place generalizing tree with
  | nil =>
    intro found
    rw [get?_nil] at found
    cases found
    cases unlinked
  | cons name rest induction =>
    rw [get?_cons]
    intro found
    rcases Option.bind_eq_some_iff.mp found with ⟨child, atName, below⟩
    rcases directory_of_child? atName with ⟨entries, rfl⟩
    exact induction (isUnlinked_of_lookup unlinked atName) below

end CodeAtlas.FileTree

namespace CodeAtlas.Disk

variable {disk : Disk} {base position : List String}

/-! ## Places in a folder -/

/-- A folder with no link in it, and the place where it is. -/
structure LinkFree (disk : Disk) (folder : String) (base : List String) : Prop where
  sound : disk.Sound
  resolved : disk.resolve true folder = .ok base
  directory : ∃ entries, disk.root.get? base = some (.directory entries)
  unlinked : ∀ rest target, disk.root.get? (base ++ rest) ≠ some (.link target)

theorem linkFree_of_isUnlinked {folder : String} {entries : List (String × FileTree)}
    (sound : disk.Sound) (resolved : disk.resolve true folder = .ok base)
    (found : disk.root.get? base = some (.directory entries))
    (unlinked : (FileTree.directory entries).isUnlinked = true) : disk.LinkFree folder base := by
  refine ⟨sound, resolved, ⟨entries, found⟩, fun rest target => ?_⟩
  rw [FileTree.get?_append, found, Option.bind_some]
  exact FileTree.get?_ne_link unlinked rest target

namespace LinkFree

variable {disk later : Disk} {folder path text : String} {base rest above : List String}
  {name : String}

theorem startOf_eq (isBelow : Path.IsBelow folder path rest) :
    disk.startOf path = disk.startOf folder := by
  rw [startOf, startOf, isBelow.start]

variable (free : disk.LinkFree folder base)

include free

theorem keeps (sound : later.Sound) (kept : Keeps disk later) :
    later.LinkFree folder base := by
  rcases free.directory with ⟨entries, found⟩
  refine ⟨sound, kept.resolve free.resolved, kept.root.directories base entries found, ?_⟩
  intro rest target there
  exact free.unlinked rest target ((kept.root.links _ _).mp there)

theorem write (written : disk.write path text = .ok later) : later.LinkFree folder base :=
  free.keeps (free.sound.write written).1 (free.sound.write written).2

theorem makeDirectories (made : disk.makeDirectories path = .ok later) :
    later.LinkFree folder base :=
  free.keeps (free.sound.makeDirectories made).1 (free.sound.makeDirectories made).2

theorem filled : folder ≠ "" := by
  rintro rfl
  have accepted := (resolve_eq_ok_iff.mp free.resolved).1
  exact absurd accepted (by decide)

theorem accepted (isBelow : Path.IsBelow folder path rest)
    (named : ∀ name ∈ rest, Path.IsName name) (strict : Bool) : refused? strict path = none := by
  have clean : '\x00' ∉ path.toList := by
    rw [Path.null_mem_iff, isBelow.parts]
    rintro ⟨part, member, null⟩
    rcases List.mem_append.mp member with inFolder | inRest
    · have folderClean := noNull_of_not_refused (resolve_eq_ok_iff.mp free.resolved).1
      exact folderClean ((Path.null_mem_iff folder).mpr ⟨part, inFolder, null⟩)
    · exact (named part inRest).noNull null
  have absent : Text.contains path "\x00" = false := by
    rwa [← Bool.not_eq_true, show "\x00" = String.ofList ['\x00'] from rfl,
      Text.contains_singleton_iff]
  simp [refused?, absent, isBelow.filled]

theorem place_eq (isBelow : Path.IsBelow folder path rest)
    (noUp : ∀ name ∈ rest, name ≠ "..") {place : List String}
    (resolved : disk.resolve true path = .ok place) : place = base ++ rest := by
  have way := (resolve_eq_ok_iff.mp resolved).2
  rw [startOf_eq isBelow, isBelow.parts] at way
  rcases way.split with ⟨middle, _, _, toFolder, onward⟩
  have same : middle = base := toFolder.unique (resolve_eq_ok_iff.mp free.resolved).2
  subst same
  exact onward.eq_append noUp fun upper target _ _ => free.unlinked upper target

theorem resolve_eq (isBelow : Path.IsBelow folder path rest)
    (named : ∀ name ∈ rest, Path.IsName name)
    (onward : ∀ links, Way disk.root true links base rest (base ++ rest)) :
    disk.resolve true path = .ok (base ++ rest) := by
  rw [resolve_eq_ok_iff, startOf_eq isBelow, isBelow.parts]
  exact ⟨free.accepted isBelow named true, (resolve_eq_ok_iff.mp free.resolved).2.append onward⟩

theorem straight (named : ∀ name ∈ rest, Path.IsName name) :
    Straight disk.root (base ++ rest) := by
  have toBase := free.sound.straight_resolve free.resolved
  constructor
  · intro name member
    rcases List.mem_append.mp member with inBase | inRest
    · exact toBase.named name inBase
    · exact named name inRest
  · intro upper target filled starts
    rcases List.prefix_or_prefix_of_prefix starts (List.prefix_append base rest) with short | long
    · exact toBase.unlinked upper target filled short
    · rcases long with ⟨more, rfl⟩
      exact free.unlinked more target

theorem get?_eq (isBelow : Path.IsBelow folder path rest)
    (noUp : ∀ name ∈ rest, name ≠ "..") : disk.get? path = disk.root.get? (base ++ rest) := by
  apply Option.ext
  intro tree
  rw [get?_eq_some_iff]
  constructor
  · rintro ⟨place, resolved, found⟩
    rwa [← free.place_eq isBelow noUp resolved]
  · intro found
    have named : ∀ name ∈ rest, Path.IsName name := fun name member =>
      (free.sound.proper.get? found).1 name (List.mem_append_right base member)
    exact ⟨_, free.resolve_eq isBelow named ((free.straight named).way fun _ => ⟨tree, found⟩), found⟩

/-! ## Writing in a folder -/

theorem write_eq (isBelow : Path.IsBelow folder path (above ++ [name]))
    (named : ∀ part ∈ above ++ [name], Path.IsName part)
    (inside : disk.root.view (base ++ above) = some (.directory []))
    (notFolder : disk.root.view (base ++ above ++ [name]) ≠ some (.directory [])) (text : String) :
    disk.write path text =
      .ok { disk with root := disk.root.put (base ++ above ++ [name]) (.file text) } := by
  rcases FileTree.view_eq_directory_iff.mp inside with ⟨entries, found⟩
  have namedAbove : ∀ part ∈ above, Path.IsName part := fun part member =>
    named part (List.mem_append_left _ member)
  have last : ∀ links, Way disk.root true links (base ++ above) [name] (base ++ above ++ [name]) := by
    intro links
    apply Way.down (fun _ => ⟨entries, found⟩) (named name (by simp)).notUp _ .arrived
    intro target
    rw [List.append_assoc]
    exact free.unlinked (above ++ [name]) target
  have resolved : disk.resolve true path = .ok (base ++ (above ++ [name])) := by
    apply free.resolve_eq isBelow named
    intro links
    rw [← List.append_assoc]
    exact ((free.straight namedAbove).way (fun _ => ⟨_, found⟩) links).append last
  rw [← List.append_assoc] at resolved
  apply write_of_resolve resolved found
  intro held there
  exact notFolder (FileTree.view_eq_directory_iff.mpr ⟨held, there⟩)

theorem of_write (isBelow : Path.IsBelow folder path (above ++ [name]))
    (noUp : ∀ part ∈ above ++ [name], part ≠ "..")
    (written : disk.write path text = .ok later) :
    disk.root.view (base ++ above) = some (.directory []) ∧
      disk.root.view (base ++ above ++ [name]) ≠ some (.directory []) ∧
      later = { disk with root := disk.root.put (base ++ above ++ [name]) (.file text) } := by
  rcases exists_folder_of_write free.sound.current written with
    ⟨holder, last, entries, resolved, found, rfl⟩
  have place := free.place_eq isBelow noUp resolved
  rw [← List.append_assoc] at place
  rcases List.append_inj' place rfl with ⟨rfl, same⟩
  cases same
  refine ⟨FileTree.view_eq_directory_iff.mpr ⟨entries, found⟩, ?_, rfl⟩
  intro seen
  rcases FileTree.view_eq_directory_iff.mp seen with ⟨held, there⟩
  have plain := free.sound.free_of_write written (get?_eq_some_iff.mpr ⟨_, resolved, there⟩)
  cases plain

theorem view_write (isBelow : Path.IsBelow folder path (above ++ [name]))
    (noUp : ∀ part ∈ above ++ [name], part ≠ "..")
    (written : disk.write path text = .ok later) (other : List String) :
    later.root.view other =
      if other = base ++ above ++ [name] then some (.file text) else disk.root.view other := by
  rcases free.of_write isBelow noUp written with ⟨inside, notFolder, rfl⟩
  exact FileTree.view_put inside notFolder rfl other

theorem named_of_view (present : disk.root.view (base ++ rest) ≠ none) :
    ∀ part ∈ rest, Path.IsName part := by
  intro part member
  cases found : disk.root.get? (base ++ rest) with
  | none => exact absurd (FileTree.view_eq_none_iff.mpr found) present
  | some tree => exact (free.sound.proper.get? found).1 part (List.mem_append_right base member)

theorem write_over (isBelow : Path.IsBelow folder path (above ++ [name]))
    (present : disk.root.view (base ++ (above ++ [name])) ≠ none)
    (plain : disk.root.view (base ++ (above ++ [name])) ≠ some (.directory [])) (text : String) :
    disk.write path text =
      .ok { disk with root := disk.root.put (base ++ above ++ [name]) (.file text) } := by
  have named := free.named_of_view present
  rw [← List.append_assoc] at present plain
  apply free.write_eq isBelow named _ plain
  cases found : disk.root.get? (base ++ above ++ [name]) with
  | none => exact absurd (FileTree.view_eq_none_iff.mpr found) present
  | some tree =>
    exact FileTree.view_eq_directory_iff.mpr
      (FileTree.directory_above (List.cons_ne_nil name []) found)

theorem write_self (isBelow : Path.IsBelow folder path (above ++ [name])) {text : String}
    (there : disk.root.view (base ++ (above ++ [name])) = some (.file text)) :
    disk.write path text = .ok disk := by
  have plain : disk.root.view (base ++ (above ++ [name])) ≠ some (.directory []) := by simp [there]
  rw [free.write_over isBelow (by simp [there]) plain, List.append_assoc,
    FileTree.put_get? free.sound.proper ((FileTree.view_eq_some_iff rfl).mp there)]

end LinkFree

/-! ## Making directories in a folder -/

theorem go_append {links : Nat} {left middle : List String}
    (way : Way disk.root true links position left middle) (within : links ≤ maxLinks)
    (arrived : ∃ entries, disk.root.get? middle = some (.directory entries)) (right : List String) :
    makeDirectories.go disk position.reverse (left ++ right) =
      makeDirectories.go disk middle.reverse right := by
  induction left generalizing position links with
  | nil =>
    cases way
    rfl
  | cons name left induction =>
    have whole : Way disk.root true links position ([name] ++ left) middle := way
    rcases whole.split with ⟨place, remaining, fewer, first, onward⟩
    have entered : ∃ entries, disk.root.get? place = some (.directory entries) := by
      cases left with
      | nil =>
        cases onward
        exact arrived
      | cons next left => exact entered_of_follow onward.follow rfl
    rcases entered with ⟨entries, found⟩
    rw [List.cons_append, makeDirectories.go, (first.relax within).follow]
    simp only [bind, Except.bind, List.reverse_reverse, found]
    exact induction onward (fewer.trans within)

theorem follow_unlinked {name : String} (notUp : name ≠ "..")
    (unlinked : ∀ target, disk.root.get? (position ++ [name]) ≠ some (.link target)) :
    follow disk.root false maxLinks position.reverse [name] = .ok (position ++ [name]).reverse := by
  apply Way.follow
  exact .down (fun strictly => absurd strictly Bool.false_ne_true) notUp unlinked .arrived

/-- Where nothing but directories is in the way, the missing ones are made and nothing else. -/
theorem go_clear {rest : List String} (named : ∀ name ∈ rest, Path.IsName name)
    (here : disk.root.view position = some (.directory []))
    (clear : ∀ upper, upper <+: rest → disk.root.view (position ++ upper) = none ∨
      disk.root.view (position ++ upper) = some (.directory [])) :
    ∃ after, makeDirectories.go disk position.reverse rest = .ok after ∧
      ∀ other, ¬ other <+: position ++ rest → after.root.view other = disk.root.view other := by
  induction rest generalizing disk position with
  | nil => exact ⟨disk, rfl, fun _ _ => rfl⟩
  | cons name rest induction =>
    have regroup : position ++ name :: rest = position ++ [name] ++ rest := by
      rw [List.append_assoc, List.singleton_append]
    have first := clear [name] (List.cons_prefix_cons.mpr ⟨rfl, List.nil_prefix⟩)
    have follows : follow disk.root false maxLinks position.reverse [name] =
        .ok (position ++ [name]).reverse := by
      apply follow_unlinked (named name List.mem_cons_self).notUp
      intro target found
      rcases first with missing | present
      · cases (FileTree.view_eq_none_iff.mp missing).symm.trans found
      · rcases FileTree.view_eq_directory_iff.mp present with ⟨entries, there⟩
        cases there.symm.trans found
    -- Once the first directory is there, the others are made from it.
    have onward : ∀ next : Disk, next.root.view (position ++ [name]) = some (.directory []) →
        (∀ other, other ≠ position ++ [name] → next.root.view other = disk.root.view other) →
        ∃ after, makeDirectories.go next (position ++ [name]).reverse rest = .ok after ∧
          ∀ other, ¬ other <+: position ++ name :: rest →
            after.root.view other = disk.root.view other := by
      intro next made same
      have nextClear : ∀ upper, upper <+: rest →
          next.root.view (position ++ [name] ++ upper) = none ∨
            next.root.view (position ++ [name] ++ upper) = some (.directory []) := by
        intro upper starts
        cases upper with
        | nil => exact .inr (by rwa [List.append_nil])
        | cons second upper =>
          rw [same _ (by simp), List.append_assoc]
          exact clear _ (List.cons_prefix_cons.mpr ⟨rfl, starts⟩)
      rcases induction (fun other member => named other (List.mem_cons_of_mem _ member)) made
        nextClear with ⟨after, run, view⟩
      refine ⟨after, run, fun other apart => ?_⟩
      rw [regroup] at apart
      rw [view other apart, same]
      rintro rfl
      exact apart (List.prefix_append _ _)
    rw [makeDirectories.go, follows]
    simp only [bind, Except.bind, List.reverse_reverse, List.reverse_cons]
    rcases first with missing | present
    · have free : disk.root.view (position ++ [name]) ≠ some (.directory []) := by simp [missing]
      have put : ∀ other, (disk.root.put (position ++ [name]) (.directory [])).view other =
          if other = position ++ [name] then some (.directory []) else disk.root.view other :=
        FileTree.view_put here free rfl
      rw [FileTree.view_eq_none_iff.mp missing]
      apply onward
      · exact (put _).trans (if_pos rfl)
      · exact fun other different => (put other).trans (if_neg different)
    · rcases FileTree.view_eq_directory_iff.mp present with ⟨entries, found⟩
      rw [found]
      exact onward disk present fun _ _ => rfl

theorem go_blocked {rest upper : List String} (named : ∀ name ∈ rest, Path.IsName name)
    (unlinked : ∀ more target, disk.root.get? (position ++ more) ≠ some (.link target))
    (here : disk.root.view position = some (.directory [])) (starts : upper <+: rest)
    (present : disk.root.view (position ++ upper) ≠ none)
    (blocked : disk.root.view (position ++ upper) ≠ some (.directory [])) :
    ∃ cause, makeDirectories.go disk position.reverse rest = .error cause := by
  induction rest generalizing position upper with
  | nil =>
    rw [List.prefix_nil.mp starts, List.append_nil] at blocked
    exact absurd here blocked
  | cons name rest induction =>
    cases upper with
    | nil =>
      rw [List.append_nil] at blocked
      exact absurd here blocked
    | cons first upper =>
      rcases List.cons_prefix_cons.mp starts with ⟨rfl, further⟩
      have regroup : position ++ first :: upper = position ++ [first] ++ upper := by
        rw [List.append_assoc, List.singleton_append]
      rw [regroup] at present blocked
      rw [makeDirectories.go, follow_unlinked (named first List.mem_cons_self).notUp
        (unlinked [first])]
      simp only [bind, Except.bind, List.reverse_reverse]
      cases found : disk.root.get? (position ++ [first]) with
      | none =>
        rw [FileTree.view, FileTree.get?_append, found] at present
        exact absurd rfl present
      | some tree =>
        cases tree with
        | directory entries =>
          apply induction (fun part member => named part (List.mem_cons_of_mem _ member)) _
            (FileTree.view_eq_directory_iff.mpr ⟨entries, found⟩) further present blocked
          intro more target
          rw [List.append_assoc]
          exact unlinked ([first] ++ more) target
        | _ => exact ⟨_, rfl⟩

namespace LinkFree

variable {disk : Disk} {folder path : String} {base rest upper : List String}
  (free : disk.LinkFree folder base)

include free

theorem view_base : disk.root.view base = some (.directory []) :=
  FileTree.view_eq_directory_iff.mpr free.directory

variable (isBelow : Path.IsBelow folder path rest)

include isBelow

theorem makeDirectories_eq (named : ∀ name ∈ rest, Path.IsName name) :
    disk.makeDirectories path = makeDirectories.go disk base.reverse rest := by
  rw [Disk.makeDirectories, free.accepted isBelow named true, startOf_eq isBelow, isBelow.parts]
  exact go_append (resolve_eq_ok_iff.mp free.resolved).2 (Nat.le_refl _) free.directory rest

theorem makeDirectories_congr {other : String} (otherBelow : Path.IsBelow folder other rest)
    (named : ∀ name ∈ rest, Path.IsName name) :
    disk.makeDirectories path = disk.makeDirectories other := by
  rw [free.makeDirectories_eq isBelow named, free.makeDirectories_eq otherBelow named]

/-- Directories are made down to a place in the folder, and all else stays as it is. -/
theorem exists_makeDirectories (named : ∀ name ∈ rest, Path.IsName name)
    (clear : ∀ upper, upper <+: rest → disk.root.view (base ++ upper) = none ∨
      disk.root.view (base ++ upper) = some (.directory [])) :
    ∃ after, disk.makeDirectories path = .ok after ∧ after.LinkFree folder base ∧
      (∀ upper, upper <+: rest → after.root.view (base ++ upper) = some (.directory [])) ∧
      ∀ other, ¬ other <+: base ++ rest → after.root.view other = disk.root.view other := by
  rcases go_clear named free.view_base clear with ⟨after, run, same⟩
  have made : disk.makeDirectories path = .ok after :=
    (free.makeDirectories_eq isBelow named).trans run
  have freeAfter := free.makeDirectories made
  refine ⟨after, made, freeAfter, fun upper starts => ?_, same⟩
  rcases free.directory with ⟨entries, found⟩
  rcases (made_of_go found run).2.directory (freeAfter.straight named) freeAfter.directory with
    ⟨held, deepest⟩
  rcases starts with ⟨more, rfl⟩
  rw [FileTree.view_eq_directory_iff]
  cases more with
  | nil => exact ⟨held, by rwa [List.append_nil] at deepest⟩
  | cons next more =>
    rw [← List.append_assoc] at deepest
    exact FileTree.directory_above (List.cons_ne_nil next more) deepest

theorem makeDirectories_self (there : disk.root.view (base ++ rest) = some (.directory [])) :
    disk.makeDirectories path = .ok disk := by
  rcases FileTree.view_eq_directory_iff.mp there with ⟨entries, found⟩
  have named : ∀ part ∈ rest, Path.IsName part := fun part member =>
    (free.sound.proper.get? found).1 part (List.mem_append_right base member)
  have way : Way disk.root true maxLinks base rest (base ++ rest) :=
    (free.straight named).way (fun _ => ⟨_, found⟩) maxLinks
  have along := go_append way (Nat.le_refl _) ⟨entries, found⟩ []
  rw [free.makeDirectories_eq isBelow named]
  rwa [List.append_nil] at along

theorem makeDirectories_blocked (named : ∀ part ∈ rest, Path.IsName part)
    (starts : upper <+: rest) (present : disk.root.view (base ++ upper) ≠ none)
    (blocked : disk.root.view (base ++ upper) ≠ some (.directory [])) :
    ∃ cause, disk.makeDirectories path = .error cause := by
  rw [free.makeDirectories_eq isBelow named]
  exact go_blocked named free.unlinked free.view_base starts present blocked

end LinkFree

/-! ## Places for files -/

/-- A file can be put at a place of a folder: nothing but directories is in the way to it, and it is
not one itself. -/
structure IsOpen (root : FileTree) (base place : List String) : Prop where
  clear : ∀ upper, upper <+: place → upper ≠ place → root.view (base ++ upper) = none ∨
    root.view (base ++ upper) = some (.directory [])
  free : root.view (base ++ place) ≠ some (.directory [])

/-- After a file was put at a place: the directories above it are there, and at all places that are
not above it nothing has changed. -/
structure Saved (root later : FileTree) (base place : List String) (text : String) : Prop where
  above : ∀ upper, upper <+: place → upper ≠ place →
    later.view (base ++ upper) = some (.directory [])
  here : later.view (base ++ place) = some (.file text)
  same : ∀ other, ¬ other <+: place → later.view (base ++ other) = root.view (base ++ other)

theorem Saved.isOpen {root later : FileTree} {place other : List String} {text : String}
    (saved : Saved root later base place text) (isOpen : IsOpen root base other)
    (notAbove : other <+: place → other = place) (notBelow : place <+: other → place = other) :
    IsOpen later base other := by
  constructor
  · intro upper starts different
    by_cases inside : upper <+: place
    · apply Or.inr
      apply saved.above upper inside
      rintro rfl
      exact different (notBelow starts)
    · rw [saved.same upper inside]
      exact isOpen.clear upper starts different
  · by_cases inside : other <+: place
    · rw [notAbove inside, saved.here]
      simp
    · rw [saved.same other inside]
      exact isOpen.free

theorem LinkFree.exists_save {folder path name : String} {above : List String}
    (free : disk.LinkFree folder base) (isBelow : Path.IsBelow folder path (above ++ [name]))
    (named : ∀ part ∈ above ++ [name], Path.IsName part)
    (isOpen : IsOpen disk.root base (above ++ [name])) (text : String) :
    ∃ made after, disk.makeDirectories (Path.parent path) = .ok made ∧
      made.write path text = .ok after ∧ after.LinkFree folder base ∧
      Saved disk.root after.root base (above ++ [name]) text := by
  have namedAbove : ∀ part ∈ above, Path.IsName part := fun part member =>
    named part (List.mem_append_left _ member)
  have upper_iff : ∀ upper, upper <+: above → upper <+: above ++ [name] ∧ upper ≠ above ++ [name] := by
    intro upper starts
    refine ⟨starts.trans (List.prefix_append _ _), fun same => ?_⟩
    have longer := (same ▸ starts : above ++ [name] <+: above).length_le
    simp at longer
  rcases free.exists_makeDirectories isBelow.parent namedAbove (fun upper starts =>
    isOpen.clear upper (upper_iff upper starts).1 (upper_iff upper starts).2) with
    ⟨made, ran, madeFree, directories, same⟩
  have notAbove : ∀ other, ¬ other <+: above → ¬ base ++ other <+: base ++ above :=
    fun other apart starts => apart ((List.prefix_append_right_inj base).mp starts)
  have notFolder : made.root.view (base ++ above ++ [name]) ≠ some (.directory []) := by
    rw [List.append_assoc, same _ (notAbove _ fun starts => ?_)]
    · exact isOpen.free
    · have longer := starts.length_le
      simp at longer
  have inside := directories above List.prefix_rfl
  have written := madeFree.write_eq isBelow named inside notFolder text
  have noUp : ∀ part ∈ above ++ [name], part ≠ ".." := fun part member => (named part member).notUp
  have view := madeFree.view_write isBelow noUp written
  refine ⟨made, _, ran, written, madeFree.write written, ?_, ?_, ?_⟩
  · intro upper starts different
    rw [view, List.append_assoc, if_neg fun equal => different (List.append_cancel_left equal)]
    apply directories
    exact (List.prefix_concat_iff.mp starts).resolve_left different
  · rw [view, List.append_assoc, if_pos rfl]
  · intro other apart
    have different : base ++ other ≠ base ++ (above ++ [name]) := by
      intro equal
      rw [List.append_cancel_left equal] at apart
      exact apart List.prefix_rfl
    rw [view, List.append_assoc, if_neg different]
    exact same _ (notAbove other fun starts => apart (starts.trans (List.prefix_append _ _)))

end CodeAtlas.Disk
