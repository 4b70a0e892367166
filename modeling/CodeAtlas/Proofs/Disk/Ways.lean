import CodeAtlas.Disk.Basic
import CodeAtlas.Proofs.Disk.Tree
import Mathlib.Data.List.Induction

/-!
Ways through a disk. A way leads to a position with no link on it, so that following the path of
that position leads nowhere else. Where a path meets no link and no double dot, its way is the path
itself.
-/

namespace CodeAtlas.Disk

open List

variable {position base place todo : List String} {path name : String} {links : Nat}

/-! ## The text of a position -/

theorem parts_pathOf (named : ∀ name ∈ position, Path.IsName name) :
    Path.parts (pathOf position) = position := by
  have split := Path.parts_append "" (Text.join "/" position)
  rw [String.empty_append, Path.parts_empty, nil_append] at split
  rw [pathOf, split, Path.parts_join fun name member => (named name member).toIsPart]

theorem isAbsolute_pathOf (position : List String) : Path.isAbsolute (pathOf position) = true := by
  rw [Path.isAbsolute, Text.startsWith_iff, pathOf, String.toList_append]
  exact prefix_append _ _

theorem startOf_pathOf (disk : Disk) (position : List String) :
    disk.startOf (pathOf position) = [] := by
  rw [startOf, if_pos (isAbsolute_pathOf position)]

theorem noNull_of_not_refused {strict : Bool} (accepted : refused? strict path = none) :
    '\x00' ∉ path.toList := by
  intro null
  have holds : Text.contains path "\x00" = true :=
    (Text.contains_singleton_iff path '\x00').mpr null
  rw [refused?, if_pos holds] at accepted
  cases accepted

theorem not_refused_pathOf (strict : Bool) (named : ∀ name ∈ position, Path.IsName name) :
    refused? strict (pathOf position) = none := by
  have clean : Text.contains (pathOf position) "\x00" = false := by
    rw [← Bool.not_eq_true, show "\x00" = String.ofList ['\x00'] from rfl,
      Text.contains_singleton_iff, pathOf, String.toList_append, mem_append]
    rintro (atTop | inside)
    · exact absurd atTop (by decide)
    · rcases Path.mem_toList_join inside with mark | ⟨name, member, null⟩
      · exact absurd mark (by decide)
      · exact (named name member).noNull null
  have filled : (pathOf position == "") = false := by
    rw [beq_eq_false_iff_ne, ne_eq, ← String.toList_inj, pathOf, String.toList_append]
    exact cons_ne_nil _ _
  simp [refused?, clean, filled]

theorem exists_cons_join {names : List String} (filled : names ≠ [])
    (named : ∀ name ∈ names, Path.IsName name) :
    ∃ char chars, (Text.join "/" names).toList = char :: chars ∧ char ≠ '/' := by
  obtain ⟨name, rest, rfl⟩ := exists_cons_of_ne_nil filled
  have isName := named name mem_cons_self
  have first : ∃ char chars, name.toList = char :: chars :=
    exists_cons_of_ne_nil fun empty => isName.filled (String.toList_inj.mp empty)
  rcases first with ⟨char, chars, written⟩
  have noSlash : char ≠ '/' := fun slash => isName.noSlash (written ▸ slash ▸ mem_cons_self)
  cases rest with
  | nil => exact ⟨char, chars, by rw [Text.join_singleton, written], noSlash⟩
  | cons next rest =>
    refine ⟨char, chars ++ '/' :: (Text.join "/" (next :: rest)).toList, ?_, noSlash⟩
    simp [Text.join_cons_cons, written]

theorem isAbsolute_join_names {names : List String} (filled : names ≠ [])
    (named : ∀ name ∈ names, Path.IsName name) :
    Path.isAbsolute (Text.join "/" names) = false := by
  rw [Path.isAbsolute, ← Bool.not_eq_true, Text.startsWith_iff]
  rintro ⟨rest, starts⟩
  rcases exists_cons_join filled named with ⟨char, chars, written, noSlash⟩
  rw [written] at starts
  exact noSlash (List.cons.inj starts).1.symm

theorem below_pathOf (baseNamed : ∀ name ∈ base, Path.IsName name)
    (placeNamed : ∀ name ∈ place, Path.IsName name) (filled : place ≠ []) :
    Path.below (pathOf base) (Text.join "/" place) = pathOf (base ++ place) := by
  have relative := isAbsolute_join_names filled placeNamed
  have parts : Path.parts (Path.join (pathOf base) (Text.join "/" place)) = base ++ place := by
    rw [Path.parts_joined relative, parts_pathOf baseNamed,
      Path.parts_join fun name member => (placeNamed name member).toIsPart]
  -- There is one slash at the start, in front of the base or, at the top, of the place.
  have start : ∃ char chars, char ≠ '/' ∧
      (Path.join (pathOf base) (Text.join "/" place)).toList = '/' :: char :: chars := by
    cases base with
    | nil =>
      rcases exists_cons_join filled placeNamed with ⟨char, chars, written, noSlash⟩
      have ends : Text.endsWith "/" "/" = true := by decide
      refine ⟨char, chars, noSlash, ?_⟩
      simp [Path.join, relative, ends, pathOf, written]
    | cons name rest =>
      rcases exists_cons_join (cons_ne_nil name rest) baseNamed with
        ⟨char, chars, written, noSlash⟩
      simp only [Path.join, relative, Bool.false_eq_true, if_false]
      split
      · refine ⟨char, chars ++ (Text.join "/" place).toList, noSlash, ?_⟩
        simp [pathOf, written]
      · refine ⟨char, chars ++ '/' :: (Text.join "/" place).toList, noSlash, ?_⟩
        simp [pathOf, written]
  rcases start with ⟨char, chars, noSlash, written⟩
  have anchor : Path.anchor (Path.join (pathOf base) (Text.join "/" place)) = "/" := by
    simp [Path.anchor, written, noSlash]
  rw [Path.below, Path.clean, anchor, parts]
  simp [pathOf, ← String.toList_inj]

/-! ## Straight positions -/

/-- A position of names such that whatever stands on the way to it, itself included, is no link. -/
structure Straight (root : FileTree) (place : List String) : Prop where
  named : ∀ name ∈ place, Path.IsName name
  unlinked : ∀ upper target, upper ≠ [] → upper <+: place → root.get? upper ≠ some (.link target)

namespace Straight

variable {root : FileTree} {place upper : List String}

theorem nil (root : FileTree) : Straight root [] :=
  ⟨forall_mem_nil _,
    fun _ _ filled starts => absurd (prefix_nil.mp starts) filled⟩

theorem of_prefix (straight : Straight root place) (starts : upper <+: place) :
    Straight root upper :=
  ⟨fun name member => straight.named name (starts.subset member),
    fun further target filled before =>
      straight.unlinked further target filled (before.trans starts)⟩

theorem concat (straight : Straight root place) (isName : Path.IsName name)
    (plain : ∀ target, root.get? (place ++ [name]) ≠ some (.link target)) :
    Straight root (place ++ [name]) := by
  constructor
  · intro other member
    rcases mem_append.mp member with before | last
    · exact straight.named other before
    · rw [mem_singleton.mp last]
      exact isName
  · intro upper target filled starts
    rcases prefix_concat_iff.mp starts with rfl | before
    · exact plain target
    · exact straight.unlinked upper target filled before

/-- The position of something that is no link is straight: above it are only directories. -/
theorem of_get? {below : FileTree} (proper : root.Proper) (found : root.get? place = some below)
    (plain : below.isLink = false) : Straight root place := by
  refine ⟨(proper.get? found).1, ?_⟩
  intro upper target _ starts atUpper
  rcases starts with ⟨rest, rfl⟩
  cases rest with
  | nil =>
    rw [append_nil, atUpper] at found
    cases found
    cases plain
  | cons name rest =>
    rcases FileTree.directory_above (cons_ne_nil name rest) found with ⟨entries, isDirectory⟩
    rw [atUpper] at isDirectory
    cases isDirectory

end Straight

/-! ## Following names -/

/-- A way through a tree: from a position through the names that are left to a place. At most so
many links are followed. On a strict way each step starts in a directory. -/
inductive Way (root : FileTree) (strict : Bool) :
    Nat → List String → List String → List String → Prop
  | arrived {links : Nat} {position : List String} : Way root strict links position [] position
  | up {links : Nat} {position rest place : List String}
      (entered : strict = true → ∃ entries, root.get? position = some (.directory entries))
      (further : Way root strict links position.dropLast rest place) :
      Way root strict links position (".." :: rest) place
  | through {links : Nat} {position rest place : List String} {name target : String}
      (entered : strict = true → ∃ entries, root.get? position = some (.directory entries))
      (notUp : name ≠ "..")
      (found : root.get? (position ++ [name]) = some (.link target))
      (further : Way root strict links (if Path.isAbsolute target then [] else position)
        (Path.parts target ++ rest) place) :
      Way root strict (links + 1) position (name :: rest) place
  | down {links : Nat} {position rest place : List String} {name : String}
      (entered : strict = true → ∃ entries, root.get? position = some (.directory entries))
      (notUp : name ≠ "..")
      (plain : ∀ target, root.get? (position ++ [name]) ≠ some (.link target))
      (further : Way root strict links (position ++ [name]) rest place) :
      Way root strict links position (name :: rest) place

variable {root : FileTree} {strict : Bool}

theorem entered_iff (here : Option FileTree) :
    (strict = true → ∃ entries, here = some (.directory entries)) ↔
      (strict && here.isNone) = false ∧ (strict && !here.any FileTree.isDirectory) = false := by
  cases strict with
  | false => simp
  | true =>
    cases here with
    | none => simp
    | some tree => cases tree <;> simp [FileTree.isDirectory]

section Steps

variable {links : Nat} {position rest : List String} {name target : String}

theorem entered_of_follow
    (followed : follow root strict links position.reverse (name :: rest) = .ok place) :
    strict = true → ∃ entries, root.get? position = some (.directory entries) := by
  rw [follow, reverse_reverse] at followed
  rw [entered_iff, ← Bool.not_eq_true, ← Bool.not_eq_true]
  constructor
  · intro missing
    simp [missing] at followed
  · intro barred
    simp only [barred, if_true] at followed
    split at followed <;> cases followed

variable (entered : strict = true → ∃ entries, root.get? position = some (.directory entries))

include entered

theorem follow_up :
    follow root strict links position.reverse (".." :: rest) =
      follow root strict links position.dropLast.reverse rest := by
  have steps := (entered_iff _).mp entered
  rw [follow, reverse_reverse]
  simp [steps.1, steps.2]

theorem follow_through (notUp : name ≠ "..")
    (found : root.get? (position ++ [name]) = some (.link target)) :
    follow root strict (links + 1) position.reverse (name :: rest) =
      follow root strict links (if Path.isAbsolute target then [] else position).reverse
        (Path.parts target ++ rest) := by
  have steps := (entered_iff _).mp entered
  rw [FileTree.get?_concat] at found
  rw [follow, reverse_reverse]
  simp only [steps.1, steps.2, beq_iff_eq, notUp, found, if_false, Bool.false_eq_true]
  split <;> simp

theorem follow_exhausted (notUp : name ≠ "..")
    (found : root.get? (position ++ [name]) = some (.link target)) :
    follow root strict 0 position.reverse (name :: rest) = .error .badValue := by
  have steps := (entered_iff _).mp entered
  rw [FileTree.get?_concat] at found
  rw [follow, reverse_reverse]
  simp [steps.1, steps.2, notUp, found]

theorem follow_down (notUp : name ≠ "..")
    (plain : ∀ target, root.get? (position ++ [name]) ≠ some (.link target)) :
    follow root strict links position.reverse (name :: rest) =
      follow root strict links (position ++ [name]).reverse rest := by
  have steps := (entered_iff _).mp entered
  rw [FileTree.get?_concat] at plain
  rw [follow, reverse_reverse]
  simp [steps.1, steps.2, notUp]

end Steps

theorem Way.follow (way : Way root strict links position todo place) :
    follow root strict links position.reverse todo = .ok place.reverse := by
  induction way with
  | arrived => rw [Disk.follow]
  | up entered further induction => rw [follow_up entered, induction]
  | through entered notUp found further induction =>
    rw [follow_through entered notUp found, induction]
  | down entered notUp plain further induction => rw [follow_down entered notUp plain, induction]

theorem Way.unique {other : List String} (way : Way root strict links position todo place)
    (second : Way root strict links position todo other) : place = other := by
  have same := way.follow.symm.trans second.follow
  exact reverse_injective (Except.ok.inj same)

theorem way_of_follow (links : Nat) (position todo place : List String)
    (followed : Disk.follow root strict links position.reverse todo = .ok place) :
    Way root strict links position todo place.reverse := by
  cases todo with
  | nil =>
    rw [Disk.follow] at followed
    cases followed
    rw [reverse_reverse]
    exact .arrived
  | cons name rest =>
    have entered := entered_of_follow followed
    by_cases isUp : name = ".."
    · subst isUp
      rw [follow_up entered] at followed
      exact .up entered (way_of_follow links position.dropLast rest place followed)
    · by_cases linked : ∃ target, root.get? (position ++ [name]) = some (.link target)
      · rcases linked with ⟨target, found⟩
        cases links with
        | zero =>
          rw [follow_exhausted entered isUp found] at followed
          cases followed
        | succ links =>
          rw [follow_through entered isUp found] at followed
          exact .through entered isUp found (way_of_follow links _ _ place followed)
      · have plain := not_exists.mp linked
        rw [follow_down entered isUp plain] at followed
        exact .down entered isUp plain (way_of_follow links _ rest place followed)
termination_by (links, todo.length)

/-! ## What a way preserves, and where it leads -/

namespace Way

variable {links : Nat} {position todo place : List String}

theorem straight (way : Way root strict links position todo place) (proper : root.Proper)
    (start : Straight root position) (parts : ∀ part ∈ todo, Path.IsPart part) :
    Straight root place := by
  induction way with
  | arrived => exact start
  | up entered further induction =>
    have later := forall_mem_cons.mp parts
    exact induction (start.of_prefix (List.dropLast_prefix _)) later.2
  | @through links position rest place name target entered notUp found further induction =>
    have later := forall_mem_cons.mp parts
    apply induction
    · split
      · exact .nil root
      · exact start
    · intro part member
      rcases mem_append.mp member with inTarget | inRest
      · have linkProper := (proper.get? found).2
        cases linkProper with
        | link clean => exact Path.isPart_of_mem_parts clean inTarget
      · exact later.2 part inRest
  | down entered notUp plain further induction =>
    have later := forall_mem_cons.mp parts
    exact induction (start.concat ⟨later.1, notUp⟩ plain) later.2

/-- Without links and double dots a way leads to where its names say. -/
theorem eq_append (way : Way root strict links position todo place)
    (noUp : ∀ name ∈ todo, name ≠ "..")
    (unlinked : ∀ upper target, upper ≠ [] → upper <+: todo →
      root.get? (position ++ upper) ≠ some (.link target)) : place = position ++ todo := by
  induction way with
  | arrived => rw [append_nil]
  | up entered further induction => exact absurd rfl (noUp ".." mem_cons_self)
  | @through links position rest place name target entered notUp found further induction =>
    have here : [name] <+: name :: rest := ⟨rest, rfl⟩
    exact absurd found (unlinked [name] target (cons_ne_nil name []) here)
  | @down links position rest place name entered notUp plain further induction =>
    have later := forall_mem_cons.mp noUp
    have arrived := induction later.2 (by
      intro upper target filled starts
      have onward := unlinked (name :: upper) target (cons_ne_nil name upper)
        (cons_prefix_cons.mpr ⟨rfl, starts⟩)
      rwa [append_assoc, singleton_append])
    rw [arrived, append_assoc, singleton_append]

/-- A way through the names of two paths is a way through the first and then one through the
second. -/
theorem split {left right : List String}
    (way : Way root strict links position (left ++ right) place) :
    ∃ middle remaining, remaining ≤ links ∧ Way root strict links position left middle ∧
      Way root strict remaining middle right place := by
  generalize whole : left ++ right = todo at way
  induction way generalizing left with
  | @arrived links position =>
    rcases append_eq_nil_iff.mp whole with ⟨rfl, rfl⟩
    exact ⟨position, links, Nat.le_refl _, .arrived, .arrived⟩
  | @up links position rest place entered further induction =>
    cases left with
    | nil =>
      rw [nil_append] at whole
      exact ⟨position, links, Nat.le_refl _, .arrived, whole ▸ .up entered further⟩
    | cons name left =>
      rcases List.cons.inj whole with ⟨rfl, same⟩
      rcases induction same with ⟨middle, remaining, fewer, before, after⟩
      exact ⟨middle, remaining, fewer, .up entered before, after⟩
  | @through links position rest place name target entered notUp found further induction =>
    cases left with
    | nil =>
      rw [nil_append] at whole
      exact ⟨position, links + 1, Nat.le_refl _, .arrived,
        whole ▸ .through entered notUp found further⟩
    | cons first left =>
      rcases List.cons.inj whole with ⟨rfl, same⟩
      have onward : Path.parts target ++ left ++ right = Path.parts target ++ rest := by
        rw [append_assoc]
        exact congrArg (Path.parts target ++ ·) same
      rcases induction onward with ⟨middle, remaining, fewer, before, after⟩
      exact ⟨middle, remaining, Nat.le_succ_of_le fewer,
        .through entered notUp found before, after⟩
  | @down links position rest place name entered notUp plain further induction =>
    cases left with
    | nil =>
      rw [nil_append] at whole
      exact ⟨position, links, Nat.le_refl _, .arrived, whole ▸ .down entered notUp plain further⟩
    | cons first left =>
      rcases List.cons.inj whole with ⟨rfl, same⟩
      rcases induction same with ⟨middle, remaining, fewer, before, after⟩
      exact ⟨middle, remaining, fewer, .down entered notUp plain before, after⟩

theorem append {left right middle : List String} (way : Way root strict links position left middle)
    (onward : ∀ links, Way root strict links middle right place) :
    Way root strict links position (left ++ right) place := by
  induction way with
  | arrived => exact onward _
  | up entered further induction => exact .up entered (induction onward)
  | through entered notUp found further induction =>
    have whole := induction onward
    rw [append_assoc] at whole
    exact .through entered notUp found whole
  | down entered notUp plain further induction =>
    exact .down entered notUp plain (induction onward)

theorem relax (way : Way root true links position todo place) {more : Nat} (within : links ≤ more) :
    Way root false more position todo place := by
  have loose : ∀ {here : Prop}, false = true → here :=
    fun strictly => absurd strictly Bool.false_ne_true
  induction way generalizing more with
  | arrived => exact .arrived
  | up entered further induction => exact .up loose (induction within)
  | through entered notUp found further induction =>
    cases more with
    | zero => exact absurd within (Nat.not_succ_le_zero _)
    | succ more => exact .through loose notUp found (induction (Nat.le_of_succ_le_succ within))
  | down entered notUp plain further induction => exact .down loose notUp plain (induction within)

end Way

theorem Straight.way (straight : Straight root (position ++ todo))
    (present : strict = true → ∃ below, root.get? (position ++ todo) = some below) (links : Nat) :
    Way root strict links position todo (position ++ todo) := by
  induction todo generalizing position with
  | nil =>
    rw [append_nil]
    exact .arrived
  | cons name rest induction =>
    have entered : strict = true → ∃ entries, root.get? position = some (.directory entries) := by
      intro isStrict
      rcases present isStrict with ⟨below, found⟩
      exact FileTree.directory_above (cons_ne_nil name rest) found
    have inside : name ∈ position ++ name :: rest := mem_append_right _ mem_cons_self
    have regroup : position ++ name :: rest = position ++ [name] ++ rest := by
      rw [append_assoc, singleton_append]
    have plain : ∀ target, root.get? (position ++ [name]) ≠ some (.link target) := by
      intro target
      apply straight.unlinked
      · exact append_ne_nil_of_right_ne_nil _ (cons_ne_nil name [])
      · exact ⟨rest, regroup.symm⟩
    rw [regroup] at straight present ⊢
    exact .down entered (straight.named name (regroup ▸ inside)).notUp plain
      (induction straight present)

theorem Straight.eq_of_way {other : List String} (straight : Straight root place)
    (way : Way root strict links [] place other) :
    other = place :=
  way.eq_append (fun name member => (straight.named name member).notUp) straight.unlinked

/-! ## Resolving paths -/

variable {disk : Disk}

theorem resolve_eq_ok_iff :
    disk.resolve strict path = .ok place ↔ refused? strict path = none ∧
      Way disk.root strict maxLinks (disk.startOf path) (Path.parts path) place := by
  rw [resolve]
  cases refused? strict path with
  | some cause => simp
  | none =>
    simp only [true_and]
    constructor
    · intro resolved
      cases followed : follow disk.root strict maxLinks (disk.startOf path).reverse
          (Path.parts path) with
      | error cause =>
        rw [followed] at resolved
        cases resolved
      | ok reversed =>
        rw [followed] at resolved
        cases resolved
        exact way_of_follow _ _ _ _ followed
    · intro way
      rw [way.follow, Except.map_ok, reverse_reverse]

theorem get?_eq_some_iff {tree : FileTree} :
    disk.get? path = some tree ↔
      ∃ place, disk.resolve true path = .ok place ∧ disk.root.get? place = some tree := by
  rw [get?]
  cases disk.resolve true path with
  | error cause => simp
  | ok place => simp

/-- A relative name without double dots stays below the folder as long as it meets no link. -/
theorem resolve_join {folder : String} (atBase : disk.resolve true folder = .ok base)
    (atPlace : disk.resolve true (Path.join folder name) = .ok place)
    (relative : Path.isAbsolute name = false) (noUp : ∀ part ∈ Path.parts name, part ≠ "..")
    (unlinked : ∀ upper target, upper ≠ [] → upper <+: Path.parts name →
      disk.root.get? (base ++ upper) ≠ some (.link target)) :
    place = base ++ Path.parts name := by
  have way := (resolve_eq_ok_iff.mp atPlace).2
  have start : disk.startOf (Path.join folder name) = disk.startOf folder := by
    rw [startOf, startOf, Path.isAbsolute_join relative]
  rw [Path.parts_joined relative, start] at way
  rcases way.split with ⟨middle, _, _, toFolder, onward⟩
  have same : middle = base := toFolder.unique (resolve_eq_ok_iff.mp atBase).2
  subst same
  exact onward.eq_append noUp unlinked

/-- A disk with a proper tree whose current directory is a directory. -/
structure Sound (disk : Disk) : Prop where
  proper : disk.root.Proper
  current : ∃ entries, disk.root.get? disk.current = some (.directory entries)

theorem Sound.straight_startOf (sound : disk.Sound) (path : String) :
    Straight disk.root (disk.startOf path) := by
  rw [startOf]
  split
  · exact .nil disk.root
  · rcases sound.current with ⟨entries, found⟩
    exact .of_get? sound.proper found rfl

theorem Sound.straight_resolve (sound : disk.Sound)
    (resolved : disk.resolve strict path = .ok place) : Straight disk.root place := by
  rcases resolve_eq_ok_iff.mp resolved with ⟨accepted, way⟩
  apply way.straight sound.proper (sound.straight_startOf path)
  intro part member
  exact Path.isPart_of_mem_parts (noNull_of_not_refused accepted) member

namespace Straight

variable {place : List String}

theorem follow (straight : Straight disk.root place)
    (present : strict = true → ∃ below, disk.root.get? place = some below) :
    Disk.follow disk.root strict maxLinks [] place = .ok place.reverse := by
  have way : Way disk.root strict maxLinks [] place place :=
    Straight.way straight present maxLinks
  exact way.follow

theorem resolve_pathOf (straight : Straight disk.root place)
    (present : strict = true → ∃ below, disk.root.get? place = some below) :
    disk.resolve strict (pathOf place) = .ok place := by
  rw [resolve_eq_ok_iff, startOf_pathOf, parts_pathOf straight.named]
  exact ⟨not_refused_pathOf strict straight.named, Straight.way straight present maxLinks⟩

theorem get?_pathOf (straight : Straight disk.root place) :
    disk.get? (pathOf place) = disk.root.get? place := by
  rw [get?]
  cases found : disk.root.get? place with
  | some below =>
    have resolved := straight.resolve_pathOf fun (_ : true = true) => ⟨below, found⟩
    rw [resolved]
    exact found
  | none =>
    cases resolved : disk.resolve true (pathOf place) with
    | error cause => rfl
    | ok other =>
      have way := (resolve_eq_ok_iff.mp resolved).2
      rw [startOf_pathOf, parts_pathOf straight.named] at way
      rw [straight.eq_of_way way]
      exact found

theorem entryPosition_pathOf (straight : Straight disk.root place) (isName : Path.IsName name) :
    disk.entryPosition (pathOf (place ++ [name])) = (do
      let folder ← Disk.follow disk.root true maxLinks [] place
      let here := disk.root.get? folder.reverse
      if here.isNone then throw .noFile
      if !here.any FileTree.isDirectory then throw .notDirectory
      return (name :: folder).reverse) := by
  have parts : Path.parts (pathOf (place ++ [name])) = place ++ [name] :=
    parts_pathOf (forall_mem_append.mpr ⟨straight.named, by simpa using isName⟩)
  simp only [entryPosition, parts, startOf_pathOf, getLast?_concat, dropLast_concat]
  split
  · rename_i none
    cases none
  · rename_i isUp
    exact absurd (Option.some.inj isUp) isName.notUp
  · rename_i other _ same
    cases same
    rfl

theorem entryPosition_of_directory {entries : List (String × FileTree)}
    (straight : Straight disk.root place) (isName : Path.IsName name)
    (found : disk.root.get? place = some (.directory entries)) :
    disk.entryPosition (pathOf (place ++ [name])) = .ok (place ++ [name]) := by
  rw [straight.entryPosition_pathOf isName, straight.follow fun _ => ⟨_, found⟩]
  simp [bind, Except.bind, found, FileTree.isDirectory, pure, Except.pure]

theorem entry?_pathOf (straight : Straight disk.root place) (isName : Path.IsName name) :
    disk.entry? (pathOf (place ++ [name])) = disk.root.get? (place ++ [name]) := by
  rw [ entry?, straight.entryPosition_pathOf isName, FileTree.get?_concat]
  cases found : disk.root.get? place with
  | some tree =>
    have followed := straight.follow fun (_ : true = true) => ⟨tree, found⟩
    rw [followed]
    cases tree <;>
      simp [bind, Except.bind, throw, throwThe, MonadExceptOf.throw, pure, Except.pure, found,
        FileTree.isDirectory, FileTree.get?_concat, FileTree.child?, FileTree.entries]
  | none =>
    cases followed : Disk.follow disk.root true maxLinks [] place with
    | error cause => rfl
    | ok folder =>
      have same := straight.eq_of_way (way_of_follow maxLinks [] place folder followed)
      simp [same, found, bind, Except.bind, throw, throwThe, MonadExceptOf.throw]

theorem isLink_pathOf (straight : Straight disk.root place) (filled : place ≠ []) :
    disk.isLink (pathOf place) = false := by
  rcases eq_nil_or_concat' place with empty | ⟨above, name, rfl⟩
  · exact absurd empty filled
  · have isName := straight.named name mem_concat_self
    have entry := (straight.of_prefix (prefix_append above [name])).entry?_pathOf isName
    rw [isLink, entry]
    cases found : disk.root.get? (above ++ [name]) with
    | none => rfl
    | some tree =>
      cases tree with
      | link target => exact absurd found (straight.unlinked _ target filled prefix_rfl)
      | file text => rfl
      | bytes content => rfl
      | directory entries => rfl
      | pipe => rfl

theorem append (straight : Straight disk.root base) (named : ∀ name ∈ place, Path.IsName name)
    (unlinked : ∀ upper, upper ≠ [] → upper <+: place →
      disk.isLink (pathOf (base ++ upper)) = false) : Straight disk.root (base ++ place) := by
  induction place using List.reverseRecOn with
  | nil =>
    rw [append_nil]
    exact straight
  | append_singleton place name induction =>
    have isName := named name mem_concat_self
    have above := induction (fun part member => named part (mem_append_left _ member))
      (fun upper filled starts =>
        unlinked upper filled (starts.trans (prefix_append place [name])))
    have plain := unlinked (place ++ [name]) (concat_ne_nil name place) prefix_rfl
    rw [← append_assoc] at plain ⊢
    apply above.concat isName
    intro target found
    rw [isLink, above.entry?_pathOf isName, found] at plain
    cases plain

end Straight

/-! ## Reading -/

theorem read_eq_ok_iff {text : String} :
    disk.read path = .ok text ↔ (disk.get? path).bind FileTree.content? = some text := by
  rw [read, need, get?]
  cases disk.resolve true path with
  | error cause => simp [bind, Except.bind]
  | ok place =>
    cases found : disk.root.get? place with
    | none => simp [bind, Except.bind, found, throw, throwThe, MonadExceptOf.throw]
    | some tree =>
      cases tree <;> simp [bind, Except.bind, found, throw, throwThe, MonadExceptOf.throw, pure,
        Except.pure, FileTree.content?]

end CodeAtlas.Disk
