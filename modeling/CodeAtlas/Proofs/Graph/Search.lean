import CodeAtlas.Graph.Cycle
import CodeAtlas.Proofs.Graph.Reachability
import Mathlib.Data.List.Nodup

/-!
The depth-first search for components, step by step. What the search knows between two steps is an
invariant with two halves: how the stack stands to the nodes whose exploration is under way, and
what the components reported so far are. Each step of the search keeps both; the exploration of a
whole node is then one induction over its depth.
-/

namespace CodeAtlas.Graph.Search

open List

variable {node other : String}

/-! ## What the steps do to a state -/

def discovered (search : Search) : List String :=
  search.number.keys

def rank (search : Search) (node : String) : Nat :=
  search.number.getD node 0

def lowest (search : Search) (node : String) : Nat :=
  search.link.getD node 0

@[simp] theorem isDiscovered_iff (search : Search) (node : String) :
    search.isDiscovered node = true ↔ node ∈ search.discovered := by
  simp [isDiscovered, discovered]

@[simp] theorem mem_discovered_discover (search : Search) (node other : String) :
    other ∈ (search.discover node).discovered ↔ other = node ∨ other ∈ search.discovered := by
  simp [discover, discovered]

theorem mem_discovered_of_outside {search : Search} {nodes : List String}
    (known : other ∈ (search.discover node).discovered) (outside : other ∉ node :: nodes) :
    other ∈ search.discovered :=
  ((search.mem_discovered_discover node other).mp known).resolve_left fun equal =>
    outside (equal ▸ mem_cons_self)

@[simp] theorem rank_discover_self (search : Search) (node : String) :
    (search.discover node).rank node = search.number.size := by
  simp [discover, rank]

theorem rank_discover_of_ne (search : Search) (different : other ≠ node) :
    (search.discover node).rank other = search.rank other := by
  simp [discover, rank, OrderedMap.getD_insert_of_ne _ different]

@[simp] theorem lowest_discover_self (search : Search) (node : String) :
    (search.discover node).lowest node = search.number.size := by
  simp [discover, lowest]

theorem lowest_discover_of_ne (search : Search) (different : other ≠ node) :
    (search.discover node).lowest other = search.lowest other := by
  simp [discover, lowest, OrderedMap.getD_insert_of_ne _ different]

theorem size_discover (search : Search) (fresh : node ∉ search.discovered) :
    (search.discover node).number.size = search.number.size + 1 :=
  search.number.size_insert_of_not_mem fresh search.number.size

@[simp] theorem lowest_lower_self (search : Search) (node : String) (reachable : Nat) :
    (search.lower node reachable).lowest node = min (search.lowest node) reachable := by
  simp [lower, lowest]

theorem lowest_lower_of_ne (search : Search) (different : other ≠ node) (reachable : Nat) :
    (search.lower node reachable).lowest other = search.lowest other := by
  simp [lower, lowest, OrderedMap.getD_insert_of_ne _ different]

theorem popThrough_append {above : List String} (absent : node ∉ above) (below : List String) :
    popThrough node (above ++ node :: below) = (above ++ [node], below) := by
  induction above with
  | nil => simp [popThrough]
  | cons top rest induction =>
    have different : top ≠ node := fun equal => absent (equal ▸ mem_cons_self)
    have absentRest : node ∉ rest := fun member => absent (mem_cons_of_mem top member)
    simp [popThrough, different, induction absentRest]

theorem close_of_stack (search : Search) {above below : List String}
    (stack : search.stack = above ++ node :: below) (absent : node ∉ above) :
    search.close node =
      { search with
        stack := below
        components :=
          if (above ++ [node]).length > 1 then search.components ++ [above ++ [node]]
          else search.components } := by
  simp only [close, stack, popThrough_append absent]

/-! ## The invariant -/

/-- How the stack stands to the nodes under exploration, which are listed in `path`. Nodes that are
discovered but not on the stack belong to components that are complete. -/
structure Consistent (graph : Graph) (path : List String) (search : Search) : Prop where
  rank_lt : ∀ node ∈ search.discovered, search.rank node < search.number.size
  stack_discovered : ∀ node ∈ search.stack, node ∈ search.discovered
  stack_sorted : search.stack.Pairwise fun upper lower => search.rank lower < search.rank upper
  path_stacked : ∀ node ∈ path, node ∈ search.stack
  /-- Only a node under exploration may have successors not yet discovered. -/
  explored : ∀ node ∈ search.discovered, node ∉ path →
    ∀ successor, graph.Edge node successor → successor ∈ search.discovered
  /-- No edge leads from a complete component back to the stack. -/
  settled : ∀ node ∈ search.discovered, node ∉ search.stack →
    ∀ successor, graph.Edge node successor → successor ∉ search.stack
  ascends : ∀ lower ∈ search.stack, ∀ upper ∈ search.stack,
    search.rank lower ≤ search.rank upper → graph.Reaches lower upper
  /-- Each node of the stack reaches a node under exploration that lies no higher. -/
  returns : ∀ node ∈ search.stack,
    ∃ active ∈ path, search.rank active ≤ search.rank node ∧ graph.Reaches node active

/-- The components reported so far are whole classes of linked nodes, and no class of two or more
nodes that has left the stack is missing. -/
structure Reported (graph : Graph) (search : Search) : Prop where
  whole : ∀ component ∈ search.components, ∀ member ∈ component,
    ∀ other, other ∈ component ↔ graph.Linked member other
  several : ∀ component ∈ search.components, 1 < component.length
  left : ∀ component ∈ search.components, ∀ member ∈ component,
    member ∈ search.discovered ∧ member ∉ search.stack
  distinct : search.components.flatten.Nodup
  complete : ∀ node ∈ search.discovered, node ∉ search.stack →
    ∀ other, other ≠ node → graph.Linked node other →
      ∃ component ∈ search.components, node ∈ component

/-- A later state knows all that an earlier one knew. -/
structure Extends (before after : Search) : Prop where
  discovered : ∀ node ∈ before.discovered, node ∈ after.discovered
  rank : ∀ node ∈ before.discovered, after.rank node = before.rank node
  lowest : ∀ node ∈ before.discovered, after.lowest node = before.lowest node

theorem Extends.trans {first second third : Search} (left : Extends first second)
    (right : Extends second third) : Extends first third where
  discovered node member := right.discovered node (left.discovered node member)
  rank node member :=
    (right.rank node (left.discovered node member)).trans (left.rank node member)
  lowest node member :=
    (right.lowest node (left.discovered node member)).trans (left.lowest node member)

theorem Extends.lower {before after : Search} (earlier : Extends before after)
    (fresh : node ∉ before.discovered) (reachable : Nat) :
    Extends before (after.lower node reachable) where
  discovered := earlier.discovered
  rank := earlier.rank
  lowest other member := by
    have different : other ≠ node := fun equal => fresh (equal ▸ member)
    rw [lowest_lower_of_ne after different]
    exact earlier.lowest other member

theorem extends_discover (search : Search) (fresh : node ∉ search.discovered) :
    Extends search (search.discover node) where
  discovered other member := (search.mem_discovered_discover node other).mpr (.inr member)
  rank _ member := search.rank_discover_of_ne fun equal => fresh (equal ▸ member)
  lowest _ member := search.lowest_discover_of_ne fun equal => fresh (equal ▸ member)

theorem Consistent.lower {graph : Graph} {path : List String} {search : Search}
    (consistent : Consistent graph path search) (node : String) (reachable : Nat) :
    Consistent graph path (search.lower node reachable) :=
  ⟨consistent.1, consistent.2, consistent.3, consistent.4, consistent.5, consistent.6,
    consistent.7, consistent.8⟩

theorem Reported.lower {graph : Graph} {search : Search} (reported : Reported graph search)
    (node : String) (reachable : Nat) : Reported graph (search.lower node reachable) :=
  ⟨reported.1, reported.2, reported.3, reported.4, reported.5⟩

theorem rank_of_sorted {rank : String → Nat} {stack below : List String}
    (sorted : stack.Pairwise fun upper lower => rank lower < rank upper)
    (stacked : (node :: below) <:+ stack) :
    (∀ other ∈ below, rank other < rank node) ∧
      ∀ other ∈ stack, other ∈ below ∨ other = node ∨ rank node < rank other := by
  rcases stacked with ⟨above, rfl⟩
  rcases pairwise_append.mp sorted with ⟨_, lowerPart, across⟩
  constructor
  · intro other member
    exact (pairwise_cons.mp lowerPart).1 other member
  · intro other member
    rcases mem_append.mp member with higher | rest
    · exact .inr (.inr (across other higher node mem_cons_self))
    · rcases mem_cons.mp rest with equal | lower
      · exact .inr (.inl equal)
      · exact .inl lower

/-! ## Discovering a node -/

section Discover

variable {graph : Graph} {path : List String} {before : Search} {node : String}

theorem Consistent.discover (start : Consistent graph path before)
    (fresh : node ∉ before.discovered) (called : ∀ active ∈ path, graph.Reaches active node) :
    Consistent graph (node :: path) (before.discover node) := by
  have later := before.extends_discover fresh
  have rankOld : ∀ other ∈ before.stack,
      (before.discover node).rank other = before.rank other :=
    fun other member => later.rank other (start.stack_discovered other member)
  have rankTop : ∀ other ∈ before.stack,
      (before.discover node).rank other < (before.discover node).rank node := by
    intro other member
    rw [rankOld other member, rank_discover_self]
    exact start.rank_lt other (start.stack_discovered other member)
  constructor
  case rank_lt =>
    intro other member
    rw [before.size_discover fresh]
    rcases (before.mem_discovered_discover node other).mp member with rfl | old
    · rw [rank_discover_self]
      exact Nat.lt_succ_self _
    · rw [later.rank other old]
      exact Nat.lt_succ_of_lt (start.rank_lt other old)
  case stack_discovered =>
    intro other member
    rw [mem_discovered_discover]
    exact (mem_cons.mp member).imp_right (start.stack_discovered other)
  case stack_sorted =>
    refine pairwise_cons.mpr ⟨rankTop, start.stack_sorted.imp_of_mem ?_⟩
    intro upper lower upperMem lowerMem less
    rwa [rankOld upper upperMem, rankOld lower lowerMem]
  case path_stacked =>
    intro other member
    rcases mem_cons.mp member with rfl | old
    · exact mem_cons_self
    · exact mem_cons_of_mem node (start.path_stacked other old)
  case explored =>
    intro other member outside successor edge
    have old := mem_discovered_of_outside member outside
    exact later.discovered successor (start.explored other old
      (fun inPath => outside (mem_cons_of_mem node inPath)) successor edge)
  case settled =>
    intro other member outside successor edge
    have old := mem_discovered_of_outside member outside
    have outsideOld : other ∉ before.stack := fun inStack =>
      outside (mem_cons_of_mem node inStack)
    have reached := start.explored other old
      (fun inPath => outsideOld (start.path_stacked other inPath)) successor edge
    intro stacked
    rcases mem_cons.mp stacked with equal | inStack
    · exact fresh (equal ▸ reached)
    · exact start.settled other old outsideOld successor edge inStack
  case ascends =>
    intro lower lowerMem upper upperMem order
    rcases mem_cons.mp lowerMem with rfl | lowerOld
    · rcases mem_cons.mp upperMem with rfl | upperOld
      · exact .refl upper
      · exact absurd (rankTop upper upperOld) (Nat.not_lt.mpr order)
    · rcases mem_cons.mp upperMem with rfl | upperOld
      · rcases start.returns lower lowerOld with ⟨active, inPath, _, walk⟩
        exact walk.trans (called active inPath)
      · rw [rankOld lower lowerOld, rankOld upper upperOld] at order
        exact start.ascends lower lowerOld upper upperOld order
  case returns =>
    intro other member
    rcases mem_cons.mp member with rfl | old
    · exact ⟨other, mem_cons_self, Nat.le_refl _, .refl other⟩
    · rcases start.returns other old with ⟨active, inPath, order, walk⟩
      refine ⟨active, mem_cons_of_mem node inPath, ?_, walk⟩
      rwa [rankOld active (start.path_stacked active inPath), rankOld other old]

theorem Reported.discover (reported : Reported graph before) (fresh : node ∉ before.discovered) :
    Reported graph (before.discover node) := by
  refine ⟨reported.whole, reported.several, ?_, reported.distinct, ?_⟩
  · intro component inComponents member inComponent
    have old := reported.left component inComponents member inComponent
    refine ⟨(before.mem_discovered_discover node member).mpr (.inr old.1), fun stacked => ?_⟩
    rcases mem_cons.mp stacked with equal | inStack
    · exact fresh (equal ▸ old.1)
    · exact old.2 inStack
  · intro other member outside
    have old := mem_discovered_of_outside member outside
    exact reported.complete other old fun inStack => outside (mem_cons_of_mem node inStack)

end Discover

end CodeAtlas.Graph.Search
