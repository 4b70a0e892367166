import CodeAtlas.Proofs.Graph.DepthFirstOrder

/-!
The layered order of a graph. A count starts as the number of edges into a node, while taking a
node lowers the counts of those that depend on it. So the queue begins with the nodes that nothing
depends on, taking them lowers no count, and no other node is ever taken. Main statements: the
order is the order of insertion as soon as one node of the graph depends on another or on itself,
and the reverse of it otherwise; so it has dependencies first only where the order of insertion has.
-/

namespace CodeAtlas.Graph

open List

variable {graph : Graph} {node : String}

/-! ## Nodes that nothing depends on -/

theorem foldl_count_eq_zero_iff (entries : List (String × List String)) (node : String)
    (total : Nat) :
    entries.foldl (fun total entry => total + entry.2.count node) total = 0 ↔
      total = 0 ∧ ∀ entry ∈ entries, node ∉ entry.2 := by
  induction entries generalizing total with
  | nil => simp
  | cons entry rest induction =>
    rw [foldl_cons, induction, Nat.add_eq_zero_iff, count_eq_zero, forall_mem_cons, and_assoc]

theorem incoming_eq_zero_iff : graph.incoming node = 0 ↔ ∀ source, ¬ graph.Edge source node := by
  rw [incoming, foldl_count_eq_zero_iff]
  simp only [edge_iff_entry, true_and, not_exists, not_and, Prod.forall]

/-! ## The queue -/

namespace Layering

def start (graph : Graph) : Layering where
  counts := graph.mapValues fun node _ => (graph.incoming node : Int)
  queue := graph.keys.filter fun node => graph.incoming node = 0
  taken := []

theorem release_of_free (free : ∀ source, ¬ graph.Edge source node) (layering : Layering) :
    release graph node layering = layering := by
  have absent : ∀ entry ∈ graph.entries, node ∉ entry.2 := fun entry member named =>
    free entry.1 (edge_iff_entry.mpr ⟨entry.2, member, named⟩)
  unfold release
  generalize graph.entries = entries at absent ⊢
  induction entries with
  | nil => rfl
  | cons entry rest induction =>
    rcases entry with ⟨dependent, dependencies⟩
    have skipped : node ∉ dependencies := absent _ mem_cons_self
    simp only [foldl_cons, if_neg skipped]
    exact induction fun other member => absent other (mem_cons_of_mem _ member)

theorem run_of_free {rounds : Nat} {layering : Layering}
    (free : ∀ node ∈ layering.queue, ∀ source, ¬ graph.Edge source node)
    (room : layering.queue.length ≤ rounds) :
    (run graph rounds layering).queue = [] ∧
      (run graph rounds layering).taken = layering.taken ++ layering.queue := by
  induction rounds generalizing layering with
  | zero =>
    have empty := length_eq_zero_iff.mp (Nat.le_zero.mp room)
    rw [run, empty, append_nil]
    exact ⟨rfl, rfl⟩
  | succ rounds induction =>
    rw [run]
    cases queued : layering.queue with
    | nil => exact ⟨queued, (append_nil _).symm⟩
    | cons node rest =>
      rw [queued] at free room
      simp only [release_of_free (free node mem_cons_self)]
      rcases @induction ⟨layering.counts, rest, layering.taken ++ [node]⟩
        (fun other member => free other (mem_cons_of_mem node member))
        (Nat.le_of_succ_le_succ room) with ⟨emptied, taken⟩
      refine ⟨emptied, taken.trans ?_⟩
      rw [append_assoc, singleton_append]

theorem run_start (graph : Graph) :
    (run graph graph.size (start graph)).queue = [] ∧
      (run graph graph.size (start graph)).taken = (start graph).queue := by
  apply run_of_free
  · intro node queued
    exact incoming_eq_zero_iff.mp (of_decide_eq_true (mem_filter.mp queued).2)
  · rw [← OrderedMap.length_keys]
    exact length_filter_le _ graph.keys

end Layering

/-! ## Edges between nodes of the graph -/

/-- Some node of the graph depends on a node of the graph. -/
def HasInnerEdge (graph : Graph) : Prop :=
  ∃ source ∈ graph.keys, ∃ target ∈ graph.keys, graph.Edge source target

instance (graph : Graph) : Decidable graph.HasInnerEdge :=
  inferInstanceAs
    (Decidable (∃ source ∈ graph.keys, ∃ target ∈ graph.keys, graph.Edge source target))

/-- The edge that a component loses leads to a node that has an edge of its own back into the
component, and this one stays. -/
theorem exists_inner_edge_of_cut {component : List String} (listed : component ∈ graph.cycles)
    {source target : String} (first : graph.FirstEdge component source target)
    (different : source ≠ target) : graph.breakCycles.HasInnerEdge := by
  have linked := (mem_component_iff listed first.source_mem target).mp first.target_mem
  rcases Relation.ReflTransGen.cases_head linked.2 with equal | ⟨next, edge, onward⟩
  · exact absurd equal.symm different
  · have known : next ∈ graph.keys := by
      by_cases back : next = source
      · exact back ▸ mem_keys_of_edge first.edge
      · exact Reaches.mem_keys onward back
    have kept : graph.breakCycles.Edge target next :=
      (edge_breakCycles_iff_of_mem listed first.target_mem).mpr
        ⟨edge, fun again => absurd (first.unique again).1.symm different⟩
    exact ⟨target, mem_keys_of_edge kept, next, (keys_breakCycles graph).symm ▸ known, kept⟩

theorem hasInnerEdge_breakCycles : graph.breakCycles.HasInnerEdge ↔ graph.HasInnerEdge := by
  constructor
  · rintro ⟨source, _, target, known, edge⟩
    rw [keys_breakCycles] at known
    exact ⟨source, mem_keys_of_edge edge.of_breakCycles, target, known, edge.of_breakCycles⟩
  · rintro ⟨source, _, target, known, edge⟩
    by_cases kept : graph.breakCycles.Edge source target
    · exact ⟨source, mem_keys_of_edge kept, target, (keys_breakCycles graph).symm ▸ known, kept⟩
    · rw [edge_breakCycles_iff] at kept
      push Not at kept
      rcases kept edge with ⟨component, listed, first, _⟩
      exact exists_inner_edge_of_cut listed first (first.ne (nodup_of_mem_cycles listed))

/-! ## The order -/

theorem length_queue_start_eq_size_iff :
    (Layering.start graph).queue.length = graph.size ↔ ¬ graph.HasInnerEdge := by
  rw [← OrderedMap.length_keys, Layering.start, length_filter_eq_length_iff]
  simp only [decide_eq_true_eq, incoming_eq_zero_iff]
  constructor
  · rintro free ⟨source, _, target, known, edge⟩
    exact free target known source edge
  · intro none target known source edge
    exact none ⟨source, mem_keys_of_edge edge, target, known, edge⟩

theorem layered_eq_run (graph : Graph) :
    graph.layered =
      let cut := graph.breakCycles
      let taken := (Layering.run cut cut.size (Layering.start cut)).taken
      if taken.length ≠ cut.size then cut.keys else taken.reverse := rfl

theorem layered_eq (graph : Graph) :
    graph.layered = if graph.HasInnerEdge then graph.keys else graph.keys.reverse := by
  simp only [layered_eq_run, (Layering.run_start _).2]
  by_cases inner : graph.HasInnerEdge
  · have fewer := mt length_queue_start_eq_size_iff.mp
      (not_not.mpr (hasInnerEdge_breakCycles.mpr inner))
    rw [if_pos fewer, if_pos inner, keys_breakCycles]
  · have all := length_queue_start_eq_size_iff.mpr (mt hasInnerEdge_breakCycles.mp inner)
    have whole : (Layering.start graph.breakCycles).queue = graph.breakCycles.keys := by
      apply filter_sublist.eq_of_length
      rw [OrderedMap.length_keys]
      exact all
    rw [if_neg (not_not.mpr all), if_neg inner, whole, keys_breakCycles]

theorem layered_perm (graph : Graph) : graph.layered.Perm graph.keys := by
  rw [layered_eq]
  split
  · exact .refl _
  · exact graph.keys.reverse_perm

/-- The queue is empty after as many rounds as there are nodes. The order lists each node once: in
the order of insertion when a node of the graph depends on a node of the graph, and in the reverse
of it when none does. -/
theorem layered_by_inner_edge (graph : Graph) :
    (Layering.run graph.breakCycles graph.breakCycles.size
        (Layering.start graph.breakCycles)).queue = [] ∧
      graph.layered.Perm graph.keys ∧
      graph.layered = if graph.HasInnerEdge then graph.keys else graph.keys.reverse :=
  ⟨(Layering.run_start _).1, layered_perm graph, layered_eq graph⟩

/-! ## Dependencies first -/

/-- Each node comes after all that it depends on. -/
def DependenciesFirst (graph : Graph) (order : List String) : Prop :=
  ∀ source target, graph.Edge source target → Precedes order target source

/-- No edge lies on a closed walk; in particular no node depends on itself. -/
def IsDag (graph : Graph) : Prop :=
  ∀ source target, graph.Edge source target → ¬ graph.Reaches target source

theorem IsDag.of_rank (rank : String → Nat)
    (falls : ∀ entry ∈ graph.entries, ∀ target ∈ entry.2, rank target < rank entry.1) :
    graph.IsDag := by
  have step : ∀ source target, graph.Edge source target → rank target < rank source := by
    intro source target edge
    rcases edge_iff_entry.mp edge with ⟨dependencies, member, named⟩
    exact falls (source, dependencies) member target named
  intro source target edge back
  have descends : rank source ≤ rank target :=
    back.stays (fun node => rank node ≤ rank target)
      (fun current next lower edge => (step current next edge).le.trans lower) le_rfl
  exact absurd (step source target edge) (Nat.not_lt.mpr descends)

theorem dependenciesFirst_depthFirst (acyclic : graph.IsDag) (closed : graph.Closed) :
    graph.DependenciesFirst graph.depthFirst := by
  rcases exists_walk closed with ⟨state, finished, ordered, all⟩
  intro source target edge
  have noReturn := acyclic source target edge
  rw [← finished]
  exact ordered.ordered source (all source (mem_keys_of_edge edge)) target
    (edge_breakCycles_of_not_reaches edge noReturn) fun walk => noReturn walk.of_breakCycles

/-- The layered order of an acyclic closed graph has dependencies first exactly when the order of
insertion has, whereas the depth-first order always does. -/
theorem layered_dependencies_first_iff (graph : Graph) (acyclic : graph.IsDag)
    (closed : graph.Closed) :
    graph.layered.Perm graph.keys ∧
      (graph.DependenciesFirst graph.layered ↔ graph.DependenciesFirst graph.keys) ∧
      graph.DependenciesFirst graph.depthFirst := by
  refine ⟨layered_perm graph, ?_, dependenciesFirst_depthFirst acyclic closed⟩
  rw [layered_eq]
  by_cases inner : graph.HasInnerEdge
  · rw [if_pos inner]
  · -- Without an edge to a node of the graph there is no edge, and every order will do.
    have trivial : ∀ order, graph.DependenciesFirst order := fun _ source target edge =>
      absurd ⟨source, mem_keys_of_edge edge, target, closed source target edge, edge⟩ inner
    exact iff_of_true (trivial _) (trivial _)

/-- Two nodes that both need a third one, inserted after it, and one that needs both. -/
def diamond : Graph :=
  .ofList [("core", []), ("disk", ["core"]), ("net", ["core"]), ("app", ["net", "disk"])]

theorem diamond_dependencies_first :
    diamond.IsDag ∧ diamond.Closed ∧ diamond.DependenciesFirst diamond.layered := by
  have acyclic : diamond.IsDag :=
    .of_rank (["core", "disk", "net", "app"].idxOf ·) (by decide)
  have closed : diamond.Closed := by decide
  have inserted : diamond.DependenciesFirst diamond.keys := by
    intro source target edge
    rcases edge_iff_entry.mp edge with ⟨dependencies, member, named⟩
    have each : ∀ entry ∈ diamond.entries, ∀ target ∈ entry.2,
        Precedes diamond.keys target entry.1 := by decide
    exact each (source, dependencies) member target named
  exact ⟨acyclic, closed,
    (layered_dependencies_first_iff diamond acyclic closed).2.1.mpr inserted⟩

/-- A node inserted before the one that it depends on. -/
def early : Graph :=
  .ofList [("app", ["lib"]), ("lib", [])]

theorem early_not_dependencies_first :
    early.IsDag ∧ early.Closed ∧ ¬ early.DependenciesFirst early.layered := by
  refine ⟨.of_rank (["lib", "app"].idxOf ·) (by decide), by decide, fun first => ?_⟩
  exact absurd (first "app" "lib" (by decide)) (by decide)

end CodeAtlas.Graph
