import CodeAtlas.Module.Clustering
import CodeAtlas.Proofs.Graph.Sorted
import CodeAtlas.Proofs.OrderedMap
import CodeAtlas.Proofs.Text
import Mathlib.Data.List.Nodup
import Mathlib.Data.List.Perm.Basic

/-!
The modules of leaf components. Each leaf goes to the one module that its path names, so the modules
share out the leaves with a module; what a module holds depends on how often each leaf is given, not
on the order of the leaves.
-/

namespace CodeAtlas.Clustering

open List

/-! ## The module of a path -/

theorem isSome_moduleOf? (path : String) :
    (moduleOf? path).isSome = true ↔ '/' ∈ path.toList := by
  have pieces : (Text.split path "/").length = path.toList.count '/' + 1 := by
    rw [Text.split, length_map]
    exact Text.Chars.length_split '/' path.toList
  rw [← count_pos_iff, moduleOf?]
  split
  · simp_all
  · simp_all
  · rename_i split
    rw [split, length_cons, length_cons] at pieces
    have positive : 0 < path.toList.count '/' := by omega
    simp only [positive, iff_true]
    split
    · split <;> rfl
    · split <;> rfl

theorem isSome_moduleOfLeaf? (files : OrderedMap String String) (leaf : String) :
    (moduleOfLeaf? files leaf).isSome =
      (files.get? leaf).any fun path => '/' ∈ path.toList := by
  cases found : files.get? leaf with
  | none => simp [moduleOfLeaf?, found]
  | some path =>
    rw [Bool.eq_iff_iff]
    simpa [moduleOfLeaf?, found] using isSome_moduleOf? path

/-! ## Collecting the leaves -/

section Groups

variable (files : OrderedMap String String)

def membersOf (name : String) (leaves : List String) : List String :=
  leaves.filter fun leaf => moduleOfLeaf? files leaf = some name

theorem getD_addLeaf (groups : OrderedMap String (List String)) (leaf name : String) :
    (addLeaf files groups leaf).getD name [] =
      groups.getD name [] ++ membersOf files name [leaf] := by
  rw [addLeaf]
  split
  · rename_i own found
    by_cases same : name = own
    · subst same
      simp [membersOf, found]
    · rw [OrderedMap.getD_insert_of_ne _ same]
      simp [membersOf, found, Ne.symm same]
  · rename_i missing
    simp [membersOf, missing]

theorem getD_foldl_addLeaf (leaves : List String) (groups : OrderedMap String (List String))
    (name : String) :
    (leaves.foldl (addLeaf files) groups).getD name [] =
      groups.getD name [] ++ membersOf files name leaves := by
  induction leaves generalizing groups with
  | nil => simp [membersOf]
  | cons leaf rest induction =>
    rw [foldl_cons, induction, getD_addLeaf, append_assoc, membersOf, membersOf, ← filter_append]
    rfl

theorem filled_addLeaf {groups : OrderedMap String (List String)}
    (filled : ∀ group ∈ groups.entries, group.2 ≠ []) (leaf : String) :
    ∀ group ∈ (addLeaf files groups leaf).entries, group.2 ≠ [] := by
  rw [addLeaf]
  split
  · intro group member
    rcases OrderedMap.mem_insertEntry member with rfl | before
    · simp
    · exact filled group before
  · exact filled

theorem filled_foldl_addLeaf (leaves : List String) {groups : OrderedMap String (List String)}
    (filled : ∀ group ∈ groups.entries, group.2 ≠ []) :
    ∀ group ∈ (leaves.foldl (addLeaf files) groups).entries, group.2 ≠ [] := by
  induction leaves generalizing groups with
  | nil => exact filled
  | cons leaf rest induction => exact induction (filled_addLeaf files filled leaf)

/-- Items that are added to a group are added to all groups together. -/
theorem perm_insertEntry (name : String) (added : List String)
    (groups : List (String × List String)) :
    ((OrderedMap.insertEntry name ((groups.lookup name).getD [] ++ added) groups).flatMap
      Prod.snd).Perm (groups.flatMap Prod.snd ++ added) := by
  induction groups with
  | nil => simp [OrderedMap.insertEntry]
  | cons group rest induction =>
    rcases group with ⟨other, members⟩
    by_cases same : other = name
    · subst same
      simp only [OrderedMap.insertEntry, lookup_cons_self, if_true, flatMap_cons,
        Option.getD_some, append_assoc]
      exact perm_append_comm.append_left members
    · simp only [OrderedMap.insertEntry, same, if_false, flatMap_cons, append_assoc,
        OrderedMap.lookup_cons_of_ne (Ne.symm same)]
      exact induction.append_left members

theorem perm_addLeaf (groups : OrderedMap String (List String)) (leaf : String) :
    ((addLeaf files groups leaf).entries.flatMap Prod.snd).Perm
      (groups.entries.flatMap Prod.snd ++
        [leaf].filter fun leaf => (moduleOfLeaf? files leaf).isSome) := by
  rw [addLeaf]
  split
  · rename_i name found
    rw [filter_singleton, found]
    exact perm_insertEntry name [leaf] groups.entries
  · rename_i missing
    simp [missing]

theorem perm_foldl_addLeaf (leaves : List String) (groups : OrderedMap String (List String)) :
    ((leaves.foldl (addLeaf files) groups).entries.flatMap Prod.snd).Perm
      (groups.entries.flatMap Prod.snd ++
        leaves.filter fun leaf => (moduleOfLeaf? files leaf).isSome) := by
  induction leaves generalizing groups with
  | nil => simp
  | cons leaf rest induction =>
    apply (induction (addLeaf files groups leaf)).trans
    apply ((perm_addLeaf files groups leaf).append_right _).trans
    rw [append_assoc, ← filter_append, singleton_append]

end Groups

/-! ## The modules -/

section Modules

variable (leaves : List String) (files : OrderedMap String String)

theorem mem_cluster_iff (name : String) (entry : ModuleEntry) :
    (name, entry) ∈ (cluster leaves files).entries ↔
      membersOf files name leaves ≠ [] ∧
        entry = ⟨Graph.sorted (membersOf files name leaves), name⟩ := by
  have filled : ∀ group ∈ (leaves.foldl (addLeaf files) .empty).entries, group.2 ≠ [] :=
    filled_foldl_addLeaf files leaves (by simp [OrderedMap.empty])
  have all := getD_foldl_addLeaf files leaves .empty name
  rw [OrderedMap.getD, OrderedMap.getD, OrderedMap.get?_empty, Option.getD_none, nil_append] at all
  rw [← OrderedMap.get?_eq_some_iff, cluster, OrderedMap.get?_mapValues, ← all]
  cases found : (leaves.foldl (addLeaf files) .empty).get? name with
  | none => simp
  | some members =>
    have own := filled _ ((OrderedMap.get?_eq_some_iff _ _ _).mp found)
    simp [own, eq_comm]

theorem moduleOfLeaf?_of_mem {name : String} {entry : ModuleEntry}
    (listed : (name, entry) ∈ (cluster leaves files).entries) (leaf : String)
    (member : leaf ∈ entry.components) : moduleOfLeaf? files leaf = some name := by
  rcases (mem_cluster_iff leaves files name entry).mp listed with ⟨_, rfl⟩
  have among := (Graph.sorted_perm _).mem_iff.mp member
  simpa using (mem_filter.mp among).2

theorem nodup_cluster : (cluster leaves files).entries.Nodup :=
  List.Nodup.of_map Prod.fst (cluster leaves files).distinct

/-- The leaves with a module are shared out among the modules: each occurrence of such a leaf goes to
one module, the one that its path names, and each module lists its leaves in order. The order in
which the leaves are given decides the order of the modules and nothing else. -/
theorem leaves_shared_out :
    ((cluster leaves files).values.flatMap ModuleEntry.components).Perm
        (leaves.filter fun leaf => (files.get? leaf).any fun path => '/' ∈ path.toList) ∧
      (cluster leaves files).values.Pairwise
        (fun left right => left.components.Disjoint right.components) ∧
      (∀ name entry, (name, entry) ∈ (cluster leaves files).entries →
        entry.components ≠ [] ∧ entry.components.Pairwise (· ≤ ·) ∧ entry.path = name ∧
          entry.toJson.get "children" = .object [] ∧
          ∀ leaf ∈ entry.components, moduleOfLeaf? files leaf = some name) ∧
      ∀ others : List String, others.Perm leaves →
        (cluster others files).entries.Perm (cluster leaves files).entries := by
  refine ⟨?_, ?_, ?_, ?_⟩
  · simp only [← isSome_moduleOfLeaf?]
    apply List.Perm.trans _ (perm_foldl_addLeaf files leaves .empty)
    rw [cluster, OrderedMap.values, OrderedMap.mapValues, List.map_map, List.flatMap_map]
    apply List.Perm.flatMap_left
    intro group _
    exact Graph.sorted_perm group.2
  · apply List.pairwise_map.mpr
    apply (List.pairwise_map.mp (cluster leaves files).distinct).imp_of_mem
    intro left right leftListed rightListed different leaf inLeft inRight
    apply different
    apply Option.some.inj
    rw [← moduleOfLeaf?_of_mem leaves files leftListed leaf inLeft,
      moduleOfLeaf?_of_mem leaves files rightListed leaf inRight]
  · intro name entry listed
    have named := moduleOfLeaf?_of_mem leaves files listed
    rcases (mem_cluster_iff leaves files name entry).mp listed with ⟨filled, rfl⟩
    refine ⟨?_, Graph.pairwise_sorted _, rfl, rfl, named⟩
    rw [← List.length_pos_iff, (Graph.sorted_perm _).length_eq]
    exact List.length_pos_iff.mpr filled
  · intro others same
    apply (List.perm_ext_iff_of_nodup (nodup_cluster others files) (nodup_cluster leaves files)).mpr
    rintro ⟨name, entry⟩
    have members : (membersOf files name others).Perm (membersOf files name leaves) :=
      same.filter _
    rw [mem_cluster_iff, mem_cluster_iff, Graph.sorted_eq_of_perm members,
      ← List.length_pos_iff, ← List.length_pos_iff, members.length_eq]

end Modules

end CodeAtlas.Clustering
