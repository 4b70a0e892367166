import CodeAtlas.Disk.Tree
import CodeAtlas.Proofs.OrderedMap
import CodeAtlas.Proofs.Path
import Mathlib.Data.String.Basic

/-!
Proper file trees, in which every directory has its names in order and each of them once. In such a
tree the positions below a directory are those that can be looked up, and they are walked through in
the order of their names.
-/

namespace CodeAtlas.FileTree

open List

inductive Proper : FileTree → Prop
  | file (text : String) : Proper (.file text)
  | bytes (content : List UInt8) : Proper (.bytes content)
  | pipe : Proper .pipe
  | link {target : String} (clean : '\x00' ∉ target.toList) : Proper (.link target)
  | directory {entries : List (String × FileTree)}
      (ordered : (entries.map Prod.fst).Pairwise (· < ·))
      (named : ∀ entry ∈ entries, Path.IsName entry.1)
      (below : ∀ entry ∈ entries, Proper entry.2) : Proper (.directory entries)

mutual

def isProper : FileTree → Bool
  | .directory entries => decide ((entries.map Prod.fst).Pairwise (· < ·)) && areProper entries
  | .link target => decide ('\x00' ∉ target.toList)
  | _ => true

def areProper : List (String × FileTree) → Bool
  | [] => true
  | (name, tree) :: rest => decide (Path.IsName name) && isProper tree && areProper rest

end

mutual

theorem isProper_iff : (tree : FileTree) → (tree.isProper = true ↔ tree.Proper)
  | .file text => ⟨fun _ => .file text, fun _ => by simp [isProper]⟩
  | .bytes content => ⟨fun _ => .bytes content, fun _ => by simp [isProper]⟩
  | .pipe => ⟨fun _ => .pipe, fun _ => by simp [isProper]⟩
  | .link target => by
    rw [isProper, decide_eq_true_iff]
    exact ⟨.link, fun | .link clean => clean⟩
  | .directory entries => by
    rw [isProper, Bool.and_eq_true, decide_eq_true_iff, areProper_iff entries]
    constructor
    · rintro ⟨ordered, each⟩
      exact .directory ordered (fun entry member => (each entry member).1)
        (fun entry member => (each entry member).2)
    · rintro (_ | _ | _ | _ | ⟨ordered, named, below⟩)
      exact ⟨ordered, fun entry member => ⟨named entry member, below entry member⟩⟩

theorem areProper_iff : (entries : List (String × FileTree)) →
    (areProper entries = true ↔ ∀ entry ∈ entries, Path.IsName entry.1 ∧ entry.2.Proper)
  | [] => by simp [areProper]
  | (name, tree) :: rest => by
    rw [areProper, Bool.and_eq_true, Bool.and_eq_true, decide_eq_true_iff, isProper_iff tree,
      areProper_iff rest, forall_mem_cons]

end

instance (tree : FileTree) : Decidable tree.Proper := decidable_of_iff _ (isProper_iff tree)

/-! ## Looking up positions -/

@[simp] theorem get?_nil (tree : FileTree) : tree.get? [] = some tree := by
  simp [get?]

theorem get?_cons (tree : FileTree) (name : String) (rest : List String) :
    tree.get? (name :: rest) = (tree.child? name).bind fun child => child.get? rest := by
  simp [get?]

theorem get?_append (tree : FileTree) (left right : List String) :
    tree.get? (left ++ right) = (tree.get? left).bind fun below => below.get? right := by
  induction left generalizing tree with
  | nil => simp
  | cons name left induction =>
    rw [cons_append, get?_cons, get?_cons]
    cases tree.child? name with
    | none => rfl
    | some child => exact induction child

theorem get?_concat (tree : FileTree) (position : List String) (name : String) :
    tree.get? (position ++ [name]) = (tree.get? position).bind fun below => below.child? name := by
  rw [get?_append]
  cases tree.get? position with
  | none => rfl
  | some below => simp [get?_cons]

theorem directory_of_child? {tree child : FileTree} {name : String}
    (found : tree.child? name = some child) : ∃ entries, tree = .directory entries := by
  cases tree with
  | directory entries => exact ⟨entries, rfl⟩
  | file text => cases found
  | bytes content => cases found
  | link target => cases found
  | pipe => cases found

theorem directory_above {tree below : FileTree} {position rest : List String} (filled : rest ≠ [])
    (found : tree.get? (position ++ rest) = some below) :
    ∃ entries, tree.get? position = some (.directory entries) := by
  rw [get?_append] at found
  rcases Option.bind_eq_some_iff.mp found with ⟨above, atPosition, atRest⟩
  cases rest with
  | nil => exact absurd rfl filled
  | cons name rest =>
    rw [get?_cons] at atRest
    rcases Option.bind_eq_some_iff.mp atRest with ⟨child, atName, _⟩
    rcases directory_of_child? atName with ⟨entries, rfl⟩
    exact ⟨entries, atPosition⟩

namespace Proper

theorem child?_iff {entries : List (String × FileTree)} (proper : Proper (.directory entries))
    {name : String} {child : FileTree} :
    (FileTree.directory entries).child? name = some child ↔ (name, child) ∈ entries := by
  cases proper with
  | directory ordered named below =>
    have distinct : (entries.map Prod.fst).Nodup := ordered.imp fun less => ne_of_lt less
    exact OrderedMap.lookup_eq_some_iff_mem distinct name child

theorem child {tree child : FileTree} {name : String} (proper : tree.Proper)
    (found : tree.child? name = some child) : Path.IsName name ∧ child.Proper := by
  rcases directory_of_child? found with ⟨entries, rfl⟩
  have member := proper.child?_iff.mp found
  cases proper with
  | directory ordered named below => exact ⟨named _ member, below _ member⟩

theorem get? {tree below : FileTree} {position : List String} (proper : tree.Proper)
    (found : tree.get? position = some below) :
    (∀ name ∈ position, Path.IsName name) ∧ below.Proper := by
  induction position generalizing tree with
  | nil =>
    rw [get?_nil] at found
    cases found
    exact ⟨forall_mem_nil _, proper⟩
  | cons name rest induction =>
    rw [get?_cons] at found
    rcases Option.bind_eq_some_iff.mp found with ⟨child, atName, atRest⟩
    have first := proper.child atName
    have later := induction first.2 atRest
    exact ⟨forall_mem_cons.mpr ⟨first.1, later.1⟩, later.2⟩

end Proper

/-! ## The walk -/

theorem descendants_of_not_directory {tree : FileTree} (plain : tree.isDirectory = false)
    (position : List String) : tree.descendants position = [] := by
  cases tree with
  | directory entries => cases plain
  | file text => rw [descendants]; nofun
  | bytes content => rw [descendants]; nofun
  | link target => rw [descendants]; nofun
  | pipe => rw [descendants]; nofun

theorem get?_cons_of_not_directory {tree : FileTree} (plain : tree.isDirectory = false)
    (name : String) (rest : List String) : tree.get? (name :: rest) = none := by
  rw [get?_cons]
  cases tree with
  | directory entries => cases plain
  | file text => rfl
  | bytes content => rfl
  | link target => rfl
  | pipe => rfl

theorem mem_descendants_of_not_directory {tree below : FileTree} {position place : List String}
    (plain : tree.isDirectory = false) :
    (place, below) ∈ tree.descendants position ↔
      ∃ rest, rest ≠ [] ∧ place = position ++ rest ∧ tree.get? rest = some below := by
  rw [descendants_of_not_directory plain]
  constructor
  · exact fun member => absurd member not_mem_nil
  · rintro ⟨rest, filled, _, found⟩
    cases rest with
    | nil => exact absurd rfl filled
    | cons name rest =>
      rw [get?_cons_of_not_directory plain] at found
      cases found

mutual

theorem mem_descendants_iff (position place : List String) (below : FileTree) :
    (tree : FileTree) → tree.Proper →
      ((place, below) ∈ tree.descendants position ↔
        ∃ rest, rest ≠ [] ∧ place = position ++ rest ∧ tree.get? rest = some below)
  | .directory entries, proper => by
    have each : ∀ entry ∈ entries, entry.2.Proper := by
      cases proper with
      | directory ordered named below => exact below
    rw [descendants, mem_descendantsOf_iff position place below entries each]
    constructor
    · rintro ⟨name, child, rest, member, same, found⟩
      refine ⟨name :: rest, cons_ne_nil name rest, same, ?_⟩
      rw [get?_cons, proper.child?_iff.mpr member]
      exact found
    · rintro ⟨rest, filled, same, found⟩
      cases rest with
      | nil => exact absurd rfl filled
      | cons name rest =>
        rw [get?_cons] at found
        rcases Option.bind_eq_some_iff.mp found with ⟨child, atName, atRest⟩
        exact ⟨name, child, rest, proper.child?_iff.mp atName, same, atRest⟩
  | .file _, _ => mem_descendants_of_not_directory rfl
  | .bytes _, _ => mem_descendants_of_not_directory rfl
  | .link _, _ => mem_descendants_of_not_directory rfl
  | .pipe, _ => mem_descendants_of_not_directory rfl

theorem mem_descendantsOf_iff (position place : List String) (below : FileTree) :
    (entries : List (String × FileTree)) → (∀ entry ∈ entries, entry.2.Proper) →
      ((place, below) ∈ descendantsOf position entries ↔
        ∃ name child rest, (name, child) ∈ entries ∧ place = position ++ name :: rest ∧
          child.get? rest = some below)
  | [], _ => by simp [descendantsOf]
  | (name, tree) :: entries, each => by
    have head := mem_descendants_iff (position ++ [name]) place below tree
      (each (name, tree) mem_cons_self)
    have tail := mem_descendantsOf_iff position place below entries
      fun other member => each other (mem_cons_of_mem (name, tree) member)
    rw [descendantsOf, cons_append, mem_cons, mem_append, head, tail]
    constructor
    · rintro (here | ⟨rest, _, same, found⟩ | ⟨other, child, rest, member, same, found⟩)
      · rcases Prod.mk.inj here with ⟨rfl, rfl⟩
        exact ⟨name, below, [], mem_cons_self, rfl, get?_nil below⟩
      · refine ⟨name, tree, rest, mem_cons_self, ?_, found⟩
        rw [same, append_assoc, singleton_append]
      · exact ⟨other, child, rest, mem_cons_of_mem _ member, same, found⟩
    · rintro ⟨other, child, rest, member, same, found⟩
      rcases mem_cons.mp member with here | later
      · rcases Prod.mk.inj here with ⟨rfl, rfl⟩
        cases rest with
        | nil =>
          rw [get?_nil] at found
          exact .inl (Prod.ext same (Option.some.inj found).symm)
        | cons next rest =>
          refine .inr (.inl ⟨next :: rest, cons_ne_nil next rest, ?_, found⟩)
          rw [same, append_assoc, singleton_append]
      · exact .inr (.inr ⟨other, child, rest, later, same, found⟩)

end

theorem lt_append {position rest : List String} (filled : rest ≠ []) :
    position < position ++ rest := by
  cases rest with
  | nil => exact absurd rfl filled
  | cons name rest =>
    have step : position ++ [] < position ++ name :: rest :=
      append_left_lt (nil_lt_cons name rest)
    rwa [append_nil] at step

mutual

theorem descendants_increasing (position : List String) :
    (tree : FileTree) → tree.Proper →
      ((tree.descendants position).map Prod.fst).Pairwise (· < ·)
  | .directory entries, proper => by
    cases proper with
    | directory ordered named below =>
      rw [descendants]
      exact descendantsOf_increasing position entries ordered below
  | .file _, _ => by simp [descendants]
  | .bytes _, _ => by simp [descendants]
  | .link _, _ => by simp [descendants]
  | .pipe, _ => by simp [descendants]

theorem descendantsOf_increasing (position : List String) :
    (entries : List (String × FileTree)) → (entries.map Prod.fst).Pairwise (· < ·) →
      (∀ entry ∈ entries, entry.2.Proper) →
      ((descendantsOf position entries).map Prod.fst).Pairwise (· < ·)
  | [], _, _ => by simp [descendantsOf]
  | (name, tree) :: entries, ordered, each => by
    have proper := each (name, tree) mem_cons_self
    have later : ∀ entry ∈ entries, entry.2.Proper :=
      fun entry member => each entry (mem_cons_of_mem (name, tree) member)
    have parts := pairwise_cons.mp ordered
    have inside := descendants_increasing (position ++ [name]) tree proper
    have after := descendantsOf_increasing position entries parts.2 later
    have under : ∀ place ∈ (tree.descendants (position ++ [name])).map Prod.fst,
        ∃ rest, rest ≠ [] ∧ place = position ++ [name] ++ rest := by
      intro place member
      rcases mem_map.mp member with ⟨⟨_, below⟩, found, rfl⟩
      rcases (mem_descendants_iff _ _ below tree proper).mp found with ⟨rest, filled, same, _⟩
      exact ⟨rest, filled, same⟩
    have beyond : ∀ rest, ∀ place ∈ (descendantsOf position entries).map Prod.fst,
        position ++ [name] ++ rest < place := by
      intro rest place member
      rcases mem_map.mp member with ⟨⟨_, below⟩, found, rfl⟩
      rcases (mem_descendantsOf_iff position _ below entries later).mp found with
        ⟨other, child, further, present, rfl, _⟩
      have less : name < other := parts.1 other (mem_map.mpr ⟨_, present, rfl⟩)
      rw [append_assoc, singleton_append]
      exact append_left_lt (cons_lt_cons_iff.mpr (.inl less))
    rw [descendantsOf, cons_append, map_cons, map_append, pairwise_cons, pairwise_append]
    refine ⟨?_, inside, after, ?_⟩
    · intro place member
      rcases mem_append.mp member with here | there
      · rcases under place here with ⟨rest, filled, rfl⟩
        exact lt_append filled
      · simpa using beyond [] place there
    · intro place here other there
      rcases under place here with ⟨rest, _, rfl⟩
      exact beyond rest other there

end

/-! ## Reading -/

/-- What is read from a tree: a pipe gives nothing, and what is no text gives no answer. -/
def content? : FileTree → Option String
  | .file text => some text
  | .bytes _ | .directory _ => none
  | .link _ | .pipe => some ""

end CodeAtlas.FileTree
