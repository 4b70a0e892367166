import CodeAtlas.Proofs.Disk.Writing

/-!
Proper trees stay proper when something is put into them or removed. What is removed is gone, and
the directory that it was in is still there. So a sound disk, a proper tree with a current directory
in it, stays sound under all that is done to it.
-/

namespace CodeAtlas.FileTree

open List

/-! ## Putting -/

theorem mem_insertEntry {name : String} {tree : FileTree} {entry : String × FileTree}
    {entries : List (String × FileTree)} (member : entry ∈ insertEntry name tree entries) :
    entry = (name, tree) ∨ entry ∈ entries := by
  fun_induction insertEntry name tree entries with
  | case1 => exact .inl (mem_singleton.mp member)
  | case2 other old rest same =>
    exact (mem_cons.mp member).imp_right fun later => mem_cons_of_mem _ later
  | case3 other old rest different before => exact mem_cons.mp member
  | case4 other old rest different notBefore induction =>
    rcases mem_cons.mp member with here | later
    · exact .inr (here ▸ mem_cons_self)
    · exact (induction later).imp_right fun further => mem_cons_of_mem _ further

theorem ordered_insertEntry {name : String} {tree : FileTree} {entries : List (String × FileTree)}
    (ordered : (entries.map Prod.fst).Pairwise (· < ·)) :
    ((insertEntry name tree entries).map Prod.fst).Pairwise (· < ·) := by
  fun_induction insertEntry name tree entries with
  | case1 => exact pairwise_singleton _ _
  | case2 other old rest same => rwa [map_cons, beq_iff_eq.mp same]
  | case3 other old rest different before =>
    have parts := pairwise_cons.mp ordered
    refine pairwise_cons.mpr ⟨?_, ordered⟩
    intro later member
    rcases mem_cons.mp member with rfl | further
    · exact before
    · exact before.trans (parts.1 later further)
  | case4 other old rest different notBefore induction =>
    have parts := pairwise_cons.mp ordered
    have after : other < name :=
      lt_of_le_of_ne (not_lt.mp notBefore) fun same => different (beq_iff_eq.mpr same.symm)
    refine pairwise_cons.mpr ⟨?_, induction parts.2⟩
    intro later member
    rcases mem_map.mp member with ⟨entry, inserted, rfl⟩
    rcases mem_insertEntry inserted with rfl | old
    · exact after
    · exact parts.1 entry.1 (mem_map_of_mem old)

namespace Proper

theorem empty : (FileTree.directory []).Proper :=
  .directory List.Pairwise.nil nofun nofun

theorem entries {tree : FileTree} (proper : tree.Proper) : (FileTree.directory tree.entries).Proper := by
  cases tree with
  | directory entries => exact proper
  | _ => exact empty

theorem insertEntry {name : String} {value : FileTree} {entries : List (String × FileTree)}
    (proper : (FileTree.directory entries).Proper) (isName : Path.IsName name) (inner : value.Proper) :
    (FileTree.directory (FileTree.insertEntry name value entries)).Proper := by
  cases proper with
  | directory ordered named below =>
    refine .directory (ordered_insertEntry ordered) ?_ ?_
    · intro entry member
      rcases mem_insertEntry member with rfl | old
      · exact isName
      · exact named entry old
    · intro entry member
      rcases mem_insertEntry member with rfl | old
      · exact inner
      · exact below entry old

theorem eraseEntry {entries : List (String × FileTree)} (proper : (FileTree.directory entries).Proper)
    (name : String) : (FileTree.directory (FileTree.eraseEntry name entries)).Proper := by
  cases proper with
  | directory ordered named below =>
    have fewer : (FileTree.eraseEntry name entries).Sublist entries := filter_sublist
    exact .directory (ordered.sublist (fewer.map Prod.fst))
      (fun entry member => named entry (fewer.subset member))
      (fun entry member => below entry (fewer.subset member))

theorem put {tree value : FileTree} {position : List String} (proper : tree.Proper)
    (named : ∀ name ∈ position, Path.IsName name) (inner : value.Proper) :
    (tree.put position value).Proper := by
  induction position generalizing tree with
  | nil => rwa [FileTree.put]
  | cons name rest induction =>
    have names := forall_mem_cons.mp named
    have child : ((tree.child? name).getD (.directory [])).Proper := by
      cases found : tree.child? name with
      | none => exact empty
      | some child => exact (proper.child found).2
    rw [FileTree.put]
    exact proper.entries.insertEntry names.1 (induction child names.2)

end Proper

theorem directory_of_put {tree : FileTree} (value : FileTree) {position place : List String}
    {entries : List (String × FileTree)} (found : tree.get? place = some (.directory entries))
    (apart : ¬ position <+: place) :
    ∃ entries, (tree.put position value).get? place = some (.directory entries) := by
  induction position generalizing tree place with
  | nil => exact absurd nil_prefix apart
  | cons name rest induction =>
    cases place with
    | nil => exact ⟨_, by rw [put, get?_nil]⟩
    | cons other more =>
      rw [get?_cons] at found ⊢
      rw [child?_put_cons]
      rcases Option.bind_eq_some_iff.mp found with ⟨child, atOther, below⟩
      by_cases same : other = name
      · subst same
        rw [if_pos rfl, atOther, Option.getD_some, Option.bind_some]
        exact induction below fun starts => apart (cons_prefix_cons.mpr ⟨rfl, starts⟩)
      · rw [if_neg same]
        exact ⟨_, found⟩

/-! ## Removing -/

theorem remove_cons {tree : FileTree} {name : String} {rest : List String} (filled : rest ≠ []) :
    tree.remove (name :: rest) =
      match tree.child? name with
      | some child => .directory (insertEntry name (child.remove rest) tree.entries)
      | none => tree := by
  cases rest with
  | nil => exact absurd rfl filled
  | cons next rest => rfl

theorem Proper.remove {tree : FileTree} {position : List String} (proper : tree.Proper) :
    (tree.remove position).Proper := by
  induction position generalizing tree with
  | nil => rwa [FileTree.remove]
  | cons name rest induction =>
    by_cases filled : rest = []
    · rw [filled, FileTree.remove]
      exact proper.entries.eraseEntry name
    · rw [remove_cons filled]
      cases found : tree.child? name with
      | none => exact proper
      | some child =>
        have inside := proper.child found
        exact proper.entries.insertEntry inside.1 (induction inside.2)

theorem lookup_eraseEntry (name other : String) (entries : List (String × FileTree)) :
    (eraseEntry name entries).lookup other = if other = name then none else entries.lookup other := by
  induction entries with
  | nil => simp [eraseEntry]
  | cons entry rest induction =>
    rcases entry with ⟨present, tree⟩
    rw [eraseEntry] at induction ⊢
    by_cases here : present = name
    · subst here
      by_cases same : other = present
      · simpa [same] using induction
      · simpa [same, OrderedMap.lookup_cons_of_ne same] using induction
    · by_cases same : other = present
      · subst same
        simp [here]
      · simpa [here, OrderedMap.lookup_cons_of_ne same] using induction

theorem get?_remove_above {tree : FileTree} {above : List String}
    {entries : List (String × FileTree)} (found : tree.get? above = some (.directory entries))
    (name : String) :
    (tree.remove (above ++ [name])).get? above = some (.directory (eraseEntry name entries)) := by
  induction above generalizing tree with
  | nil =>
    rw [get?_nil] at found
    cases found
    rw [nil_append, remove, get?_nil, FileTree.entries]
  | cons first above induction =>
    rw [get?_cons] at found
    rcases Option.bind_eq_some_iff.mp found with ⟨child, atFirst, below⟩
    rw [cons_append, remove_cons (concat_ne_nil name above), atFirst, get?_cons, child?,
      FileTree.entries, lookup_insertEntry, if_pos rfl, Option.bind_some]
    exact induction below

theorem get?_remove_self {tree : FileTree} {above : List String}
    {entries : List (String × FileTree)} (found : tree.get? above = some (.directory entries))
    (name : String) :
    (tree.remove (above ++ [name])).get? (above ++ [name]) = none := by
  rw [get?_concat, get?_remove_above found, Option.bind_some, child?, FileTree.entries,
    lookup_eraseEntry, if_pos rfl]

end CodeAtlas.FileTree

namespace CodeAtlas.Disk

variable {disk : Disk} {above : List String} {name : String} {entries : List (String × FileTree)}

theorem removeEntry_pathOf {child : FileTree} (proper : disk.root.Proper)
    (found : disk.root.get? above = some (.directory entries)) (member : (name, child) ∈ entries) :
    disk.removeEntry (pathOf (above ++ [name])) =
      .ok { disk with root := disk.root.remove (above ++ [name]) } := by
  have straight := Straight.of_get? proper found rfl
  have inside := (proper.get? found).2
  have isChild := inside.child?_iff.mpr member
  have there : disk.root.get? (above ++ [name]) = some child := by
    rw [FileTree.get?_concat, found]
    exact isChild
  rw [removeEntry, straight.entryPosition_of_directory (inside.child isChild).1 found]
  simp only [bind, Except.bind, there]
  rfl

theorem removeTree_pathOf {inner : List (String × FileTree)} (proper : disk.root.Proper)
    (found : disk.root.get? (above ++ [name]) = some (.directory inner)) :
    disk.removeTree (pathOf (above ++ [name])) =
      .ok { disk with root := disk.root.remove (above ++ [name]) } := by
  rcases FileTree.directory_above (List.cons_ne_nil name []) found with ⟨entries, isAbove⟩
  have straight := Straight.of_get? proper isAbove rfl
  have isChild := found
  rw [FileTree.get?_concat, isAbove, Option.bind_some] at isChild
  have inside := (proper.get? isAbove).2
  have position := straight.entryPosition_of_directory (inside.child isChild).1 isAbove
  rw [removeTree, position]
  simp only [bind, Except.bind, found]
  exact removeEntry_pathOf proper isAbove (inside.child?_iff.mp isChild)

theorem exists?_remove (proper : disk.root.Proper) (isName : Path.IsName name)
    (found : disk.root.get? above = some (.directory entries)) :
    Disk.exists? { disk with root := disk.root.remove (above ++ [name]) }
      (pathOf (above ++ [name])) = false := by
  have gone := FileTree.get?_remove_self found name
  have still := FileTree.get?_remove_above found name
  have straight : Straight (disk.root.remove (above ++ [name])) (above ++ [name]) := by
    apply (Straight.of_get? proper.remove still rfl).concat isName
    intro target there
    cases gone.symm.trans there
  have nothing := Straight.get?_pathOf
    (show Straight (Disk.root { disk with root := disk.root.remove (above ++ [name]) }) _ from straight)
  rw [ exists?, nothing, gone, Option.isSome_none]

/-! ## Sound disks stay sound -/

theorem proper_go {after : Disk} {position parts : List String} (proper : disk.root.Proper)
    (here : disk.root.get? position = some (.directory entries))
    (named : ∀ part ∈ parts, Path.IsPart part)
    (run : makeDirectories.go disk position.reverse parts = .ok after) : after.root.Proper := by
  induction parts generalizing disk position entries with
  | nil =>
    cases run
    exact proper
  | cons part rest induction =>
    have names := List.forall_mem_cons.mp named
    rcases go_cons here run with ⟨place, middle, way, ⟨held, there⟩, run, change⟩
    have straight := Straight.of_get? proper here rfl
    have onward := way.straight proper straight (List.forall_mem_singleton.mpr names.1)
    have made : middle.root.Proper := by
      rcases change with rfl | ⟨_, _, rfl⟩
      · exact proper
      · exact proper.put onward.named FileTree.Proper.empty
    exact induction made there names.2 run

theorem Straight.keeps {root later : FileTree} {place : List String} (straight : Straight root place)
    (kept : FileTree.Keeps root later) : Straight later place :=
  ⟨straight.named, fun upper target filled starts found =>
    straight.unlinked upper target filled starts ((kept.links upper target).mp found)⟩

/-- Where no link is on the way, the directories are made in the places that the names say. -/
theorem Made.directory {root : FileTree} {position parts : List String}
    (made : Made root position parts) (straight : Straight root (position ++ parts))
    (here : ∃ entries, root.get? position = some (.directory entries)) :
    ∃ entries, root.get? (position ++ parts) = some (.directory entries) := by
  induction made with
  | done => rwa [List.append_nil]
  | @further position place rest name entries way found onward induction =>
    have regroup : position ++ name :: rest = position ++ [name] ++ rest := by
      rw [List.append_assoc, List.singleton_append]
    rw [regroup] at straight ⊢
    have arrived : place = position ++ [name] := by
      apply way.eq_append
      · intro other member
        rw [List.mem_singleton.mp member]
        exact (straight.named name (by simp)).notUp
      · intro upper target filled starts
        apply straight.unlinked _ _ (List.append_ne_nil_of_right_ne_nil _ filled)
        exact ((List.prefix_append_right_inj position).mpr starts).trans (List.prefix_append _ rest)
    subst arrived
    exact induction straight ⟨entries, found⟩

namespace Sound

variable {after : Disk} {path text : String}

theorem makeDirectories (sound : disk.Sound) (made : disk.makeDirectories path = .ok after) :
    after.Sound ∧ Keeps disk after := by
  have kept := keeps_makeDirectories sound.current made
  refine ⟨⟨?_, kept.grounded sound.current⟩, kept⟩
  rw [Disk.makeDirectories] at made
  split at made
  · cases made
  · rename_i accepted
    rcases Grounded.startOf sound.current path with ⟨entries, here⟩
    apply proper_go sound.proper here _ made
    intro part member
    exact Path.isPart_of_mem_parts (noNull_of_not_refused accepted) member

theorem directory_made {place : List String} (sound : disk.Sound)
    (straight : Straight disk.root place)
    (made : disk.makeDirectories (pathOf place) = .ok after) :
    ∃ entries, after.root.get? place = some (.directory entries) := by
  have kept := (sound.makeDirectories made).2
  have top := Grounded.top sound.current
  rw [Disk.makeDirectories, startOf_pathOf, parts_pathOf straight.named] at made
  split at made
  · cases made
  · rcases top with ⟨entries, top⟩
    have whole := (made_of_go top made).2
    have placed : Straight after.root ([] ++ place) := straight.keeps kept.root
    exact whole.directory placed (kept.root.directories [] entries top)

theorem free_of_write (sound : disk.Sound) (written : disk.write path text = .ok after)
    {old : FileTree} (found : disk.get? path = some old) : old.isPlain = true := by
  rcases get?_eq_some_iff.mp found with ⟨place, resolved, there⟩
  cases old with
  | directory entries => simp [write, writeFile, resolved, there, bind, Except.bind] at written
  | link target =>
    have filled : place ≠ [] := by
      rintro rfl
      rcases Grounded.top sound.current with ⟨entries, top⟩
      cases there.symm.trans top
    exact absurd there
      ((sound.straight_resolve resolved).unlinked place target filled List.prefix_rfl)
  | file text => rfl
  | bytes content => rfl
  | pipe => rfl

theorem write (sound : disk.Sound) (written : disk.write path text = .ok after) :
    after.Sound ∧ Keeps disk after := by
  have kept := (write_eq_ok sound.current written fun _ => sound.free_of_write written).1
  refine ⟨⟨?_, kept.grounded sound.current⟩, kept⟩
  rcases exists_folder_of_write sound.current written with ⟨folder, name, _, resolved, _, rfl⟩
  exact sound.proper.put (sound.straight_resolve resolved).named (.file text)

end Sound

end CodeAtlas.Disk
