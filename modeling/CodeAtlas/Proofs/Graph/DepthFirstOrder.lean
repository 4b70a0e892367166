import CodeAtlas.Graph.Order
import CodeAtlas.Proofs.Graph.CycleBreaking
import CodeAtlas.Proofs.Graph.Sorted
import Mathlib.Data.Set.Card

/-!
The depth-first order of a closed graph lists every node once, each after the nodes it depends on,
unless the dependency lies on a closed walk. The walk itself is analysed for any graph; the edges
that matter survive the breaking of cycles. Where dependencies are no nodes, the order may miss
nodes, because what the roots lead to is counted and not compared with the nodes.
-/

namespace CodeAtlas.Graph

open List

def Precedes (order : List String) (first second : String) : Prop :=
  [first, second].Sublist order

instance (order : List String) (first second : String) :
    Decidable (Precedes order first second) :=
  inferInstanceAs (Decidable ([first, second].Sublist order))

theorem Precedes.append {order : List String} {first second : String}
    (before : Precedes order first second) (rest : List String) :
    Precedes (order ++ rest) first second :=
  before.trans (sublist_append_left order rest)

theorem precedes_last {order : List String} {first : String} (member : first ∈ order)
    (last : String) : Precedes (order ++ [last]) first last :=
  (singleton_sublist.mpr member).append (.refl [last])

/-! ## The walk -/

/-- The state of a walk among the nodes inside a set while the nodes in `path` are visited but not
finished. -/
structure Walk.Ordered (graph : Graph) (inside : Set String) (path : List String) (state : Walk) :
    Prop where
  visited_iff : ∀ node, node ∈ state.visited ↔ node ∈ state.finished ∨ node ∈ path
  unfinished : ∀ node ∈ path, node ∉ state.finished
  nodup : state.finished.Nodup
  nodes : ∀ node ∈ state.visited, node ∈ inside
  followed : ∀ source ∈ state.finished, ∀ target, graph.Edge source target →
    target ∈ state.visited
  /-- A finished node comes after its dependencies, save those that depend on it in turn. -/
  ordered : ∀ source ∈ state.finished, ∀ target, graph.Edge source target →
    ¬ graph.Reaches target source → Precedes state.finished target source

namespace Walk

variable {graph : Graph} {inside : Set String} {path : List String} {state : Walk} {node : String}

theorem ordered_start (graph : Graph) (inside : Set String) : Ordered graph inside [] start := by
  constructor
  case visited_iff => simp [start]
  case nodup => exact nodup_nil
  all_goals
    intro other member
    exact absurd member not_mem_nil

theorem Ordered.visit (ordered : Ordered graph inside path state) (fresh : node ∉ state.visited)
    (known : node ∈ inside) :
    Ordered graph inside (node :: path) { state with visited := node :: state.visited } where
  visited_iff other := by
    rw [mem_cons, ordered.visited_iff, mem_cons]
    tauto
  unfinished other member finished := by
    rcases mem_cons.mp member with rfl | older
    · exact fresh ((ordered.visited_iff other).mpr (.inl finished))
    · exact ordered.unfinished other older finished
  nodup := ordered.nodup
  nodes other member := by
    rcases mem_cons.mp member with rfl | older
    · exact known
    · exact ordered.nodes other older
  followed source finished target edge :=
    mem_cons_of_mem node (ordered.followed source finished target edge)
  ordered := ordered.ordered

theorem Ordered.finish (ordered : Ordered graph inside (node :: path) state) (fresh : node ∉ path)
    (called : ∀ active ∈ path, graph.Reaches active node)
    (followed : ∀ target, graph.Edge node target → target ∈ state.visited) :
    Ordered graph inside path { state with finished := state.finished ++ [node] } where
  visited_iff other := by
    rw [ordered.visited_iff, mem_cons, mem_append, mem_singleton]
    tauto
  unfinished other member finished := by
    rcases mem_append.mp finished with older | last
    · exact ordered.unfinished other (mem_cons_of_mem node member) older
    · exact fresh (mem_singleton.mp last ▸ member)
  nodup := by
    refine nodup_append.mpr ⟨ordered.nodup, nodup_singleton node, ?_⟩
    intro other member last isLast equal
    rw [mem_singleton] at isLast
    subst equal
    subst isLast
    exact ordered.unfinished other mem_cons_self member
  nodes := ordered.nodes
  followed source finished target edge := by
    rcases mem_append.mp finished with older | last
    · exact ordered.followed source older target edge
    · exact followed target (mem_singleton.mp last ▸ edge)
  ordered source finished target edge noReturn := by
    rcases mem_append.mp finished with older | last
    · exact (ordered.ordered source older target edge noReturn).append [node]
    · rw [mem_singleton] at last
      subst last
      rcases (ordered.visited_iff target).mp (followed target edge) with done | active
      · exact precedes_last done source
      · -- A dependency that is still under way leads back to the node.
        exfalso
        apply noReturn
        rcases mem_cons.mp active with rfl | older
        · exact .refl target
        · exact called target older

/-- A state reached from another: still ordered, with no visit forgotten. -/
structure Advances (graph : Graph) (inside : Set String) (path : List String)
    (before after : Walk) : Prop where
  ordered : Ordered graph inside path after
  visited : before.visited ⊆ after.visited

theorem Ordered.foldl (step : Walk → String → Walk) (depth : Nat) (nodes : List String)
    (each : ∀ state, ∀ node ∈ nodes, Ordered graph inside path state →
      graph.remaining state.visited ≤ depth →
        Advances graph inside path state (step state node) ∧ node ∈ (step state node).visited)
    (ordered : Ordered graph inside path state) (room : graph.remaining state.visited ≤ depth) :
    Advances graph inside path state (nodes.foldl step state) ∧
      ∀ node ∈ nodes, node ∈ (nodes.foldl step state).visited := by
  induction nodes generalizing state with
  | nil => exact ⟨⟨ordered, fun _ member => member⟩, forall_mem_nil _⟩
  | cons head rest induction =>
    rcases each state head mem_cons_self ordered room with ⟨first, reached⟩
    have roomRest := (graph.remaining_le first.visited).trans room
    rcases induction
        (fun state node member => each state node (mem_cons_of_mem head member))
        first.ordered roomRest with ⟨later, all⟩
    refine ⟨⟨later.ordered, fun _ member => later.visited (first.visited member)⟩, ?_⟩
    intro node member
    rcases mem_cons.mp member with rfl | inRest
    · exact later.visited reached
    · exact all node inRest

/-- A walk that is deep enough for all nodes still to be visited advances and visits its node. -/
theorem Ordered.walk
    (stays : ∀ source ∈ inside, ∀ target, graph.Edge source target → target ∈ inside)
    (depth : Nat) :
    ∀ {path : List String} {state : Walk} {node : String}, Ordered graph inside path state →
      node ∈ inside → node ∈ graph.mentioned → (∀ active ∈ path, graph.Reaches active node) →
      graph.remaining state.visited ≤ depth →
        Advances graph inside path state (Graph.walk graph depth state node) ∧
          node ∈ (Graph.walk graph depth state node).visited := by
  induction depth with
  | zero =>
    intro path state node ordered _ mentioned _ room
    exact ⟨⟨ordered, fun _ member => member⟩,
      mem_of_remaining_eq_zero (Nat.le_zero.mp room) mentioned⟩
  | succ depth induction =>
    intro path state node ordered known mentioned called room
    unfold Graph.walk
    split
    · rename_i visited
      exact ⟨⟨ordered, fun _ member => member⟩, visited⟩
    · rename_i fresh
      have outside : node ∉ path := fun inPath =>
        fresh ((ordered.visited_iff node).mpr (.inr inPath))
      have fewer := remaining_lt (subset_cons_self node state.visited)
        mentioned fresh mem_cons_self
      rcases (ordered.visit fresh known).foldl (Graph.walk graph depth) depth
          (sorted (graph.dependencies node))
          (by
            intro state target member ordered room
            have edge : graph.Edge node target := mem_sorted.mp member
            apply induction ordered (stays node known target edge)
              (mem_mentioned_of_edge edge) ?_ room
            intro active inPath
            rcases mem_cons.mp inPath with rfl | older
            · exact edge.reaches
            · exact (called active older).trans edge.reaches)
          (by
            change graph.remaining (node :: state.visited) ≤ depth
            omega) with ⟨advances, all⟩
      refine ⟨⟨advances.ordered.finish outside called fun target edge =>
        all target (mem_sorted.mpr edge), ?_⟩, ?_⟩
      · exact fun other member => advances.visited (mem_cons_of_mem node member)
      · exact advances.visited mem_cons_self

end Walk

/-! ## The whole order -/

theorem Closed.breakCycles {graph : Graph} (closed : graph.Closed) : graph.breakCycles.Closed := by
  intro source target edge
  rw [keys_breakCycles]
  exact closed source target edge.of_breakCycles

theorem mem_keys_of_mem_roots {graph : Graph} {node : String} (member : node ∈ graph.roots) :
    node ∈ graph.keys := by
  unfold roots at member
  simp only at member
  split at member
  · exact mem_of_mem_take member
  · exact (mem_filter.mp member).1

theorem Walk.Ordered.pass {graph : Graph} {inside : Set String}
    (stays : ∀ source ∈ inside, ∀ target, graph.Edge source target → target ∈ inside)
    {state : Walk} (ordered : Ordered graph inside [] state) (nodes : List String)
    (members : ∀ node ∈ nodes, node ∈ graph.keys) (known : ∀ node ∈ nodes, node ∈ inside) :
    let after := (sorted nodes).foldl (Graph.walk graph (graph.mentioned.length + 1)) state
    Ordered graph inside [] after ∧ ∀ node ∈ nodes, node ∈ after.finished := by
  have deep : ∀ state : Walk, graph.remaining state.visited ≤ graph.mentioned.length + 1 :=
    fun state => (graph.remaining_le_length state.visited).trans (Nat.le_succ _)
  rcases ordered.foldl _ (graph.mentioned.length + 1) (sorted nodes)
      (fun state node member ordered room =>
        Walk.Ordered.walk stays (graph.mentioned.length + 1) ordered
          (known node (mem_sorted.mp member))
          (mem_mentioned_of_mem_keys (members node (mem_sorted.mp member)))
          (fun _ inPath => absurd inPath not_mem_nil) room)
      (deep state) with ⟨advances, all⟩
  refine ⟨advances.ordered, fun node member => ?_⟩
  have visited := all node (mem_sorted.mpr member)
  exact ((advances.ordered.visited_iff node).mp visited).resolve_right not_mem_nil

/-- The order is what some walk over the graph without the cut edges has finished, and no node is
missing: either the first pass counts as many nodes as there are, or the second visits all. -/
theorem exists_walk {graph : Graph} (closed : graph.Closed) :
    ∃ state : Walk, state.finished = graph.depthFirst ∧
      Walk.Ordered graph.breakCycles {node | node ∈ graph.breakCycles.keys} [] state ∧
      ∀ node ∈ graph.keys, node ∈ state.finished := by
  have stays := fun source (_ : source ∈ graph.breakCycles.keys) => closed.breakCycles source
  rcases (Walk.ordered_start graph.breakCycles _).pass stays graph.breakCycles.roots
      (fun _ => mem_keys_of_mem_roots) fun _ => mem_keys_of_mem_roots with ⟨first, _⟩
  rw [← keys_breakCycles graph]
  unfold depthFirst
  simp only
  split
  · rcases first.pass stays graph.breakCycles.keys (fun _ member => member)
        fun _ member => member with ⟨second, all⟩
    exact ⟨_, rfl, second, all⟩
  · rename_i counted
    refine ⟨_, rfl, first, ?_⟩
    have subset : _ ⊆ graph.breakCycles.keys := fun node finished =>
      first.nodes node ((first.visited_iff node).mpr (.inl finished))
    have sizes := Decidable.of_not_not counted
    rw [← OrderedMap.length_keys] at sizes
    have permutation := (first.nodup.subperm subset).perm_of_length_le sizes.ge
    exact fun node member => permutation.mem_iff.mpr member

/-- Each node of a closed graph is listed once, after every dependency that does not depend on it
in turn. -/
theorem depthFirst_dependencies_first (graph : Graph) (closed : graph.Closed) :
    graph.depthFirst.Perm graph.keys ∧
      ∀ source target, graph.Edge source target → ¬ graph.Reaches target source →
        Precedes graph.depthFirst target source := by
  rcases exists_walk closed with ⟨state, finished, ordered, all⟩
  rw [← finished]
  constructor
  · rw [List.perm_ext_iff_of_nodup ordered.nodup graph.nodup_keys]
    intro node
    refine ⟨fun member => ?_, all node⟩
    rw [← keys_breakCycles graph]
    exact ordered.nodes node ((ordered.visited_iff node).mpr (Or.inl member))
  · intro source target edge noReturn
    exact ordered.ordered source (all source (mem_keys_of_edge edge)) target
      (edge_breakCycles_of_not_reaches edge noReturn)
      fun walk => noReturn walk.of_breakCycles

/-- A node that depends on itself and on one of two nodes that depend on each other. -/
def looped : Graph :=
  .ofList [("app", ["lib", "app"]), ("core", ["lib"]), ("lib", ["core"])]

theorem looped_dependencies_first :
    looped.Closed ∧ looped.Edge "app" "lib" ∧ ¬ looped.Reaches "lib" "app" ∧
      looped.depthFirst.Perm ["app", "core", "lib"] ∧
      Precedes looped.depthFirst "lib" "app" := by
  have closed : looped.Closed := by decide
  have edge : looped.Edge "app" "lib" := by decide
  have noReturn : ¬ looped.Reaches "lib" "app" := by
    intro walk
    have stays := walk.stays (fun node => node = "lib" ∨ node = "core") (by
      rintro source target (rfl | rfl) edge
      · exact Or.inr (List.mem_singleton.mp edge)
      · exact Or.inl (List.mem_singleton.mp edge)) (Or.inl rfl)
    exact absurd stays (by decide)
  rcases depthFirst_dependencies_first looped closed with ⟨permutation, ordered⟩
  exact ⟨closed, edge, noReturn, permutation, ordered "app" "lib" edge noReturn⟩

/-! ## Dependencies that are no nodes -/

/-- The nodes that the roots lead to. -/
def reached (graph : Graph) : Set String :=
  {node | ∃ root ∈ graph.roots, graph.Reaches root node}

def firstPass (graph : Graph) : Walk :=
  (sorted graph.roots).foldl (walk graph (graph.mentioned.length + 1)) Walk.start

theorem ordered_firstPass (graph : Graph) :
    Walk.Ordered graph graph.reached [] graph.firstPass ∧
      ∀ root ∈ graph.roots, root ∈ graph.firstPass.finished := by
  apply (Walk.ordered_start graph graph.reached).pass
  · rintro source ⟨root, member, walk⟩ target edge
    exact ⟨root, member, walk.trans edge.reaches⟩
  · exact fun _ => mem_keys_of_mem_roots
  · exact fun root member => ⟨root, member, .refl root⟩

/-- The first pass finishes exactly the nodes that the roots lead to: a finished node has all its
dependencies visited, and nothing is under way in the end. -/
theorem mem_finished_firstPass {graph : Graph} {node : String} :
    node ∈ graph.firstPass.finished ↔ node ∈ graph.reached := by
  rcases ordered_firstPass graph with ⟨ordered, all⟩
  have visited_iff : ∀ other, other ∈ graph.firstPass.visited ↔
      other ∈ graph.firstPass.finished := fun other =>
    (ordered.visited_iff other).trans (or_iff_left not_mem_nil)
  constructor
  · exact fun finished => ordered.nodes node ((visited_iff node).mpr finished)
  · rintro ⟨root, member, walk⟩
    refine walk.stays (fun other => other ∈ graph.firstPass.finished) ?_ (all root member)
    exact fun source target finished edge =>
      (visited_iff target).mp (ordered.followed source finished target edge)

theorem length_finished_firstPass (graph : Graph) :
    graph.firstPass.finished.length = graph.reached.ncard := by
  have same : graph.reached = graph.firstPass.finished.toFinset :=
    Set.ext fun node => by rw [coe_toFinset, Set.mem_ofPred_eq, mem_finished_firstPass]
  rw [same, Set.ncard_coe_finset, toFinset_card_of_nodup (ordered_firstPass graph).1.nodup]

theorem depthFirst_cases (graph : Graph) :
    let broken := graph.breakCycles
    graph.depthFirst.Nodup ∧
      (broken.reached.ncard = broken.size ∧ graph.depthFirst = broken.firstPass.finished ∨
        broken.reached.ncard ≠ broken.size ∧ ∀ node ∈ broken.keys, node ∈ graph.depthFirst) := by
  intro broken
  have first := (ordered_firstPass broken).1
  have everywhere : Walk.Ordered broken Set.univ [] broken.firstPass :=
    { first with nodes := fun node _ => Set.mem_univ node }
  rcases everywhere.pass (fun _ _ target _ => Set.mem_univ target) broken.keys
    (fun _ member => member) (fun node _ => Set.mem_univ node) with ⟨second, all⟩
  rw [← length_finished_firstPass]
  unfold depthFirst
  dsimp only
  split
  · rename_i fewer
    exact ⟨second.nodup, .inr ⟨fewer, all⟩⟩
  · rename_i counted
    exact ⟨first.nodup, .inl ⟨Decidable.of_not_not counted, rfl⟩⟩

/-- Nothing is listed twice. Every node is listed, unless the roots lead to as many names as the
graph has nodes without leading to all of its nodes. -/
theorem keys_listed_once_iff (graph : Graph) :
    (∀ node, graph.depthFirst.count node ≤ 1) ∧
      ((∀ node ∈ graph.keys, graph.depthFirst.count node = 1) ↔
        (∀ node ∈ graph.keys, node ∈ graph.breakCycles.reached) ∨
          graph.breakCycles.reached.ncard ≠ graph.keys.length) := by
  rcases depthFirst_cases graph with ⟨distinct, cases⟩
  refine ⟨List.nodup_iff_count_le_one.mp distinct, ?_⟩
  have listed : ∀ node, graph.depthFirst.count node = 1 ↔ node ∈ graph.depthFirst := fun node => by
    simp [distinct.count]
  rw [← OrderedMap.length_keys, keys_breakCycles] at cases
  simp only [listed]
  rcases cases with ⟨counted, whole⟩ | ⟨fewer, all⟩
  · rw [or_iff_left (not_not_intro counted), whole]
    simp only [mem_finished_firstPass]
  · exact iff_of_true all (Or.inr fewer)

/-- One node with a dependency that is no node, and one that depends on itself. -/
def dangling : Graph :=
  .ofList [("app", ["lib"]), ("loop", ["loop"])]

/-- The root and its dependency are as many as there are nodes, so the other node is left out. -/
theorem dangling_loop_left_out : ¬ ∀ node ∈ dangling.keys, dangling.depthFirst.count node = 1 := by
  have order : dangling.depthFirst = ["lib", "app"] := by decide +kernel
  rw [order]
  decide

end CodeAtlas.Graph
