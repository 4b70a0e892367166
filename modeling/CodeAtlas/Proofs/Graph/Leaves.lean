import CodeAtlas.Proofs.Component
import CodeAtlas.Proofs.Graph.CycleBreaking
import CodeAtlas.Repository.ModuleFiles
import Mathlib.Data.List.ProdSigma

/-!
Which components documentation starts from. Below a threshold every qualified component is a leaf;
from the threshold on, only those that no component depends on in the graph without the cut edges.
The leaves are selected once more before they are handed on with the components; this keeps them all.
-/

namespace CodeAtlas.Graph

open List

/-! ## Qualified components -/

/-- A component of a kind that can be a leaf, under an identifier that is not blank and does not
read like the text of an error. A function counts only where no component is of another such
kind. -/
def Qualified (components : Components) (id : String) : Prop :=
  (∃ component, components.get? id = some component ∧
    (component.kind ∈ ["class", "interface", "struct"] ∨
      component.kind = "function" ∧
        ∀ other ∈ components.values, other.kind ∉ ["class", "interface", "struct"])) ∧
  Text.strip id ≠ "" ∧
  ∀ word ∈ ["error", "exception", "failed", "invalid"],
    Text.contains (Text.lower id) word = false

theorem Qualified.mem_keys {components : Components} {id : String}
    (holds : Qualified components id) : id ∈ components.keys := by
  rcases holds with ⟨⟨component, found, _⟩, _⟩
  exact OrderedMap.mem_keys_of_get? found

theorem isPlausibleId_iff (id : String) :
    isPlausibleId id = true ↔
      Text.strip id ≠ "" ∧
        ∀ word ∈ ["error", "exception", "failed", "invalid"],
          Text.contains (Text.lower id) word = false := by
  simp [isPlausibleId, Text.containsAny]

theorem mem_leafKinds_iff (components : Components) (kind : String) :
    kind ∈ leafKinds components.kinds ↔
      kind ∈ ["class", "interface", "struct"] ∨
        kind = "function" ∧
          ∀ other ∈ components.values, other.kind ∉ ["class", "interface", "struct"] := by
  have usual : (components.kinds.values.any fun kind =>
        ["class", "interface", "struct"].contains kind) = true ↔
      ∃ other ∈ components.values, other.kind ∈ ["class", "interface", "struct"] := by
    rw [Components.values_kinds, any_map, any_eq_true]
    simp only [Function.comp_apply, contains_iff_mem]
  unfold leafKinds
  simp only
  split
  · rename_i present
    rcases usual.mp present with ⟨other, member, isUsual⟩
    constructor
    · exact .inl
    · rintro (listed | ⟨_, none⟩)
      · exact listed
      · exact absurd isUsual (none other member)
  · rename_i absent
    have none : ∀ other ∈ components.values,
        other.kind ∉ ["class", "interface", "struct"] := fun other member isUsual =>
      absent (usual.mpr ⟨other, member, isUsual⟩)
    rw [mem_append, mem_singleton]
    exact or_congr_right ⟨fun equal => ⟨equal, none⟩, fun both => both.1⟩

theorem isLeaf_iff (components : Components) (id : String) :
    isLeaf components.kinds id = true ↔ Qualified components id := by
  unfold isLeaf Qualified
  rw [Bool.and_eq_true, isPlausibleId_iff, and_comm, Components.get?_kinds]
  refine and_congr_left fun _ => ?_
  cases components.get? id with
  | none => simp
  | some component =>
    simp only [Option.map_some, contains_iff_mem, mem_leafKinds_iff]
    constructor
    · exact fun kind => ⟨component, rfl, kind⟩
    · rintro ⟨other, same, kind⟩
      rwa [Option.some.inj same]

instance (components : Components) (id : String) : Decidable (Qualified components id) :=
  decidable_of_iff _ (isLeaf_iff components id)

def qualified (components : Components) : List String :=
  components.keys.filter fun id => Qualified components id

theorem mem_qualified_iff (components : Components) (id : String) :
    id ∈ qualified components ↔ Qualified components id := by
  simp only [qualified, mem_filter, decide_eq_true_eq, and_iff_right_iff_imp]
  exact Qualified.mem_keys

theorem filter_isLeaf (components : Components) :
    components.keys.filter (isLeaf components.kinds) = qualified components := by
  apply filter_congr
  intro id _
  rw [Bool.eq_iff_iff, isLeaf_iff, decide_eq_true_eq]

/-! ## Leaves -/

theorem mem_leaves_iff (components : Components) (id : String) :
    id ∈ leaves components.graph components.kinds ↔
      Qualified components id ∧
        ((qualified components).length < manyLeaves ∨
          ∀ dependent, ¬ components.graph.breakCycles.Edge dependent id) := by
  have keys : components.graph.breakCycles.keys = components.keys :=
    (keys_breakCycles components.graph).trans components.keys_graph
  have free : (components.graph.breakCycles.entries.all fun entry => decide (id ∉ entry.2)) = true ↔
      ∀ dependent, ¬ components.graph.breakCycles.Edge dependent id := by
    simp only [all_eq_true, decide_eq_true_eq, edge_iff_entry, not_exists, not_and, Prod.forall]
  unfold leaves
  simp only [keys, filter_isLeaf]
  split
  · rename_i few
    rw [mem_qualified_iff]
    exact ⟨fun holds => ⟨holds, .inl few⟩, fun both => both.1⟩
  · rename_i many
    rw [mem_filter, mem_filter, isLeaf_iff, free]
    constructor
    · rintro ⟨⟨_, unused⟩, holds⟩
      exact ⟨holds, .inr unused⟩
    · rintro ⟨holds, unused⟩
      exact ⟨⟨holds.mem_keys, unused.resolve_left many⟩, holds⟩

theorem leaves_eq_nil_of_used (components : Components)
    (many : 400 ≤ (qualified components).length)
    (used : ∀ id, Qualified components id → ∃ dependent,
      components.graph.Edge dependent id ∧ ¬ components.graph.Reaches id dependent) :
    leaves components.graph components.kinds = [] := by
  rw [eq_nil_iff_forall_not_mem]
  intro id isLeaf
  rcases (mem_leaves_iff components id).mp isLeaf with ⟨holds, few | unused⟩
  · exact absurd few (Nat.not_lt.mpr many)
  · rcases used id holds with ⟨dependent, edge, noReturn⟩
    exact unused dependent (edge_breakCycles_of_not_reaches edge noReturn)

/-- There are leaves whenever fewer than 400 components are qualified and at least one is, and
also whenever a qualified component is a dependency of none. From 400 on there are no leaves if
each qualified component is a dependency of one that it does not depend on in turn. -/
theorem leaf_existence (components : Components) :
    ((∃ id, Qualified components id ∧
        ((qualified components).length < 400 ∨
          ∀ other ∈ components.values, id ∉ other.dependsOn)) →
      leaves components.graph components.kinds ≠ []) ∧
    (400 ≤ (qualified components).length →
      (∀ id, Qualified components id → ∃ dependent,
        components.graph.Edge dependent id ∧ ¬ components.graph.Reaches id dependent) →
      leaves components.graph components.kinds = []) := by
  refine ⟨?_, leaves_eq_nil_of_used components⟩
  rintro ⟨id, holds, reason⟩
  have isLeaf : id ∈ leaves components.graph components.kinds := by
    rw [mem_leaves_iff]
    refine ⟨holds, reason.imp_right fun unused dependent edge => ?_⟩
    rcases Components.edge_graph_iff.mp edge.of_breakCycles with ⟨_, other, found, named⟩
    have member := (OrderedMap.get?_eq_some_iff components dependent other).mp found
    exact unused other (List.mem_map.mpr ⟨(dependent, other), member, rfl⟩) named
  exact List.ne_nil_of_mem isLeaf

/-! ## A crowd of components without leaves -/

def crowdLetters : List Char :=
  "abcdefghijklmnopqrst".toList

/-- Four hundred names of two letters. -/
def crowdNames : List String :=
  (crowdLetters ×ˢ crowdLetters).map fun pair => String.ofList [pair.1, pair.2]

theorem nodup_crowdNames : crowdNames.Nodup := by
  have letters : crowdLetters.Nodup := by decide
  refine (letters.product letters).map ?_
  rintro ⟨first, second⟩ ⟨first', second'⟩ equal
  simpa using equal

theorem length_crowdNames : crowdNames.length = 400 := by
  have letters : crowdLetters.length = 20 := by decide
  rw [crowdNames, length_map, length_product, letters]

theorem length_le_of_contains {part : List Char} :
    ∀ {text : List Char}, Text.Chars.contains part text = true → part.length ≤ text.length
  | [], found => by rw [isEmpty_iff.mp found]
  | char :: rest, found => by
    rcases Bool.or_eq_true_iff.mp found with leading | later
    · exact (List.isPrefixOf_iff_prefix.mp leading).length_le
    · exact (length_le_of_contains later).trans (Nat.le_succ _)

theorem isPlausibleId_of_mem_crowdNames {name : String} (member : name ∈ crowdNames) :
    isPlausibleId name = true := by
  have plain : (crowdLetters.all fun letter => !Text.isBlank letter && letter.toNat != 931 &&
      Text.lowerChar letter == [letter]) = true := by decide
  simp only [all_eq_true, Bool.and_eq_true, Bool.not_eq_true', bne_iff_ne, beq_iff_eq,
    and_assoc] at plain
  rcases mem_map.mp member with ⟨⟨first, second⟩, inProduct, rfl⟩
  rcases mem_product.mp inProduct with ⟨firstMem, secondMem⟩
  rcases plain first firstMem with ⟨firstShown, firstSigma, firstLower⟩
  rcases plain second secondMem with ⟨secondShown, secondSigma, secondLower⟩
  rw [isPlausibleId_iff]
  constructor
  · simp [Text.strip, Text.Chars.trim, Text.Chars.trimRight, firstShown, secondShown]
  · -- Every word is longer than the name.
    have lowered : Text.lowerFrom [] [first, second] = [first, second] := by
      simp [Text.lowerFrom, Text.lowerBetween, firstSigma, firstLower, secondSigma, secondLower]
    intro word listed
    have long : 2 < word.toList.length := by
      revert word
      decide
    rw [Text.contains, Text.lower, String.toList_ofList, String.toList_ofList, lowered,
      Bool.eq_false_iff]
    intro found
    exact absurd (length_le_of_contains found) (Nat.not_le.mpr long)

/-- The function that uses the whole crowd. -/
def crowdMain : Component :=
  { id := "main", name := "main", kind := "function", filePath := "main.py"
    relativePath := "main.py", dependsOn := crowdNames }

def crowdClass (name : String) : Component :=
  { id := name, name, kind := "class", filePath := "crowd.py", relativePath := "crowd.py" }

theorem main_not_mem_crowdNames : "main" ∉ crowdNames := by
  intro member
  rcases mem_map.mp member with ⟨⟨first, second⟩, _, equal⟩
  have lengths : 2 = "main".toList.length := by
    rw [← equal, String.toList_ofList]
    rfl
  exact absurd lengths (by decide)

/-- Four hundred classes, and a function that depends on all of them. -/
def crowd : Components :=
  ⟨("main", crowdMain) :: crowdNames.map fun name => (name, crowdClass name), by
    rw [map_cons, map_map]
    refine nodup_cons.mpr ⟨?_, ?_⟩
    · simpa [Function.comp_def] using main_not_mem_crowdNames
    · simpa [Function.comp_def] using nodup_crowdNames⟩

theorem get?_crowd_iff (id : String) (component : Component) :
    crowd.get? id = some component ↔
      id = "main" ∧ component = crowdMain ∨ id ∈ crowdNames ∧ component = crowdClass id := by
  rw [OrderedMap.get?_eq_some_iff]
  simp only [crowd, mem_cons, Prod.mk.injEq, mem_map]
  refine or_congr_right ?_
  constructor
  · rintro ⟨name, member, rfl, rfl⟩
    exact ⟨member, rfl⟩
  · rintro ⟨member, rfl⟩
    exact ⟨id, member, rfl, rfl⟩

theorem qualified_crowd_iff (id : String) : Qualified crowd id ↔ id ∈ crowdNames := by
  constructor
  · rintro ⟨⟨component, found, kind⟩, _⟩
    rcases (get?_crowd_iff id component).mp found with ⟨_, rfl⟩ | ⟨member, _⟩
    · -- The function would count only if there were no classes.
      exfalso
      rcases kind with usual | ⟨_, none⟩
      · exact absurd usual (by decide)
      · have aClass : crowdClass "aa" ∈ crowd.values := by
          refine mem_cons_of_mem _ (mem_map.mpr ⟨("aa", crowdClass "aa"), ?_, rfl⟩)
          exact mem_map.mpr ⟨"aa", mem_map.mpr ⟨('a', 'a'), by decide, rfl⟩, rfl⟩
        exact none _ aClass (by decide)
    · exact member
  · intro member
    refine ⟨⟨crowdClass id, ?_, .inl mem_cons_self⟩, ?_⟩
    · exact (get?_crowd_iff id _).mpr (.inr ⟨member, rfl⟩)
    · exact (isPlausibleId_iff id).mp (isPlausibleId_of_mem_crowdNames member)

/-- Four hundred classes qualify, yet none of them is a leaf: the function depends on each. -/
theorem crowd_without_leaves :
    (∃ id, Qualified crowd id) ∧ leaves crowd.graph crowd.kinds = [] := by
  constructor
  · refine ⟨"aa", (qualified_crowd_iff "aa").mpr ?_⟩
    exact List.mem_map.mpr ⟨('a', 'a'), by decide, rfl⟩
  · apply leaves_eq_nil_of_used
    · rw [← length_crowdNames]
      refine (nodup_crowdNames.subperm fun name member => ?_).length_le
      exact (mem_qualified_iff crowd name).mpr ((qualified_crowd_iff name).mpr member)
    · intro id qualifies
      have member := (qualified_crowd_iff id).mp qualifies
      refine ⟨"main", ?_, fun walk => ?_⟩
      · rw [Components.edge_graph_iff]
        refine ⟨?_, crowdMain, (get?_crowd_iff _ _).mpr (Or.inl ⟨rfl, rfl⟩), member⟩
        exact OrderedMap.mem_keys_of_get? ((get?_crowd_iff id _).mpr (Or.inr ⟨member, rfl⟩))
      · rcases Relation.ReflTransGen.cases_head walk with rfl | ⟨next, edge, _⟩
        · exact main_not_mem_crowdNames member
        · rcases Components.edge_graph_iff.mp edge with ⟨_, component, found, named⟩
          rcases (get?_crowd_iff id component).mp found with ⟨rfl, _⟩ | ⟨_, rfl⟩
          · exact main_not_mem_crowdNames member
          · exact List.not_mem_nil named

/-! ## The second selection -/

theorem nodup_leaves (graph : Graph) (kinds : OrderedMap String String) :
    (leaves graph kinds).Nodup := by
  have distinct := graph.breakCycles.nodup_keys
  unfold leaves
  simp only
  split
  · exact distinct.filter _
  · exact (distinct.filter _).filter _

/-- The second selection reads the kinds off the components themselves. -/
theorem keepLeaves_eq_filter (components : Components) (ids : List String) :
    Repository.keepLeaves components ids = ids.filter fun id => Qualified components id := by
  have kinds : leafKinds components.kinds =
      if components.values.any fun component =>
        ["class", "interface", "struct"].contains component.kind
      then ["class", "interface", "struct"]
      else ["class", "interface", "struct"] ++ ["function"] := by
    rw [leafKinds, Components.values_kinds, any_map]
    rfl
  apply filter_congr
  intro id _
  rw [Bool.eq_iff_iff, decide_eq_true_eq, ← isLeaf_iff, isLeaf, Components.get?_kinds, kinds]
  cases components.get? id with
  | none => rfl
  | some component => rfl

/-- The leaves are distinct. Each is qualified, and a qualified component is missing only where 400
or more are qualified and one depends on it by an edge that was not cut. The second selection picks
the qualified ones out of any identifiers, so it keeps all leaves, in whatever order they are
listed. -/
theorem second_selection_keeps_leaves (components : Components) :
    (leaves components.graph components.kinds).Nodup ∧
    (∀ id, id ∈ leaves components.graph components.kinds ↔
      Qualified components id ∧
        ((qualified components).length < 400 ∨
          ∀ dependent, ¬ components.graph.breakCycles.Edge dependent id)) ∧
    (∀ ids, Repository.keepLeaves components ids =
      ids.filter fun id => Qualified components id) ∧
    ∀ listed, listed.Perm (leaves components.graph components.kinds) →
      Repository.keepLeaves components listed = listed := by
  refine ⟨nodup_leaves _ _, mem_leaves_iff components, keepLeaves_eq_filter components, ?_⟩
  intro listed order
  rw [keepLeaves_eq_filter, filter_eq_self]
  intro id member
  exact decide_eq_true ((mem_leaves_iff components id).mp (order.mem_iff.mp member)).1

/-- Two classes, one of which uses the other, beside a function and a class named like an error. -/
def shop : Components :=
  ⟨[("Cart", { crowdClass "Cart" with dependsOn := ["Item", "pay"] }),
    ("pay", { crowdClass "pay" with kind := "function" }),
    ("PaymentFailed", crowdClass "PaymentFailed"), ("Item", crowdClass "Item")], by decide⟩

theorem second_selection_keeps_shop_leaves :
    ["Item", "Cart"].Perm (leaves shop.graph shop.kinds) ∧
      Repository.keepLeaves shop ["Item", "Cart"] = ["Item", "Cart"] := by
  have found : leaves shop.graph shop.kinds = ["Cart", "Item"] := by decide +kernel
  have order : ["Item", "Cart"].Perm (leaves shop.graph shop.kinds) := by
    rw [found]
    exact .swap "Cart" "Item" []
  exact ⟨order, (second_selection_keeps_leaves shop).2.2.2 _ order⟩

end CodeAtlas.Graph
