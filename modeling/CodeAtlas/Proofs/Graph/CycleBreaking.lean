import CodeAtlas.Proofs.Graph.StrongComponents

/-!
What breaking cycles does to a graph. Each component loses the first edge that its list follows
from one node to the next, if there is one; nothing else changes. So edges between different
components always survive, and a component becomes acyclic exactly when all its closed walks pass
that one edge.
-/

namespace CodeAtlas.Graph

open List

variable {node source target first last : String}

/-- The first edge that a list of nodes follows from a node to the next one. -/
inductive FirstEdge (graph : Graph) : List String → String → String → Prop
  | here {source target : String} {rest : List String} (edge : graph.Edge source target) :
      FirstEdge graph (source :: target :: rest) source target
  | later {current next source target : String} {rest : List String}
      (absent : ¬ graph.Edge current next)
      (found : FirstEdge graph (next :: rest) source target) :
      FirstEdge graph (current :: next :: rest) source target

namespace FirstEdge

variable {graph other : Graph} {nodes : List String} {source target : String}

theorem edge (first : FirstEdge graph nodes source target) : graph.Edge source target := by
  induction first with
  | here edge => exact edge
  | later _ _ induction => exact induction

theorem source_mem (first : FirstEdge graph nodes source target) : source ∈ nodes := by
  induction first with
  | here _ => exact mem_cons_self
  | later _ _ induction => exact mem_cons_of_mem _ induction

theorem target_mem (first : FirstEdge graph nodes source target) : target ∈ nodes := by
  induction first with
  | here _ => exact mem_cons_of_mem _ mem_cons_self
  | later _ _ induction => exact mem_cons_of_mem _ induction

theorem unique (first : FirstEdge graph nodes source target) {source' target' : String}
    (again : FirstEdge graph nodes source' target') : source' = source ∧ target' = target := by
  induction first with
  | here edge =>
    cases again with
    | here _ => exact ⟨rfl, rfl⟩
    | later absent _ => exact absurd edge absent
  | later absent _ induction =>
    cases again with
    | here edge => exact absurd edge absent
    | later _ found => exact induction found

theorem ne (first : FirstEdge graph nodes source target) (distinct : nodes.Nodup) :
    source ≠ target := by
  induction first with
  | here _ => exact fun equal => (nodup_cons.mp distinct).1 (equal ▸ mem_cons_self)
  | later _ _ induction => exact induction (nodup_cons.mp distinct).2

theorem congr (first : FirstEdge graph nodes source target)
    (same : ∀ node ∈ nodes, graph.dependencies node = other.dependencies node) :
    FirstEdge other nodes source target := by
  induction first with
  | here edge =>
    apply here
    rw [Edge, ← same _ mem_cons_self]
    exact edge
  | later absent _ induction =>
    apply later
    · rw [Edge, ← same _ mem_cons_self]
      exact absent
    · exact induction fun node member => same node (mem_cons_of_mem _ member)

end FirstEdge

/-! ## Cutting along one list -/

section Cut

variable {graph other : Graph} {nodes : List String} {source target : String}

theorem mem_erase_iff (values : List String) (value removed : String) :
    value ∈ values.erase removed ↔
      value ∈ values ∧ (value = removed → 1 < values.count value) := by
  by_cases equal : value = removed
  · subst equal
    rw [← count_pos_iff, count_erase_self]
    constructor
    · intro positive
      exact ⟨count_pos_iff.mp (by omega), fun _ => by omega⟩
    · rintro ⟨_, several⟩
      have := several rfl
      omega
  · rw [mem_erase_of_ne equal]
    exact ⟨fun member => ⟨member, fun same => absurd same equal⟩, fun both => both.1⟩

theorem dependencies_modify (graph : Graph) (changed node : String)
    (change : List String → List String) (keeps : change [] = []) :
    Graph.dependencies (graph.modify changed change) node =
      if node = changed then change (graph.dependencies node) else graph.dependencies node := by
  unfold dependencies OrderedMap.getD
  rw [OrderedMap.get?_modify]
  split
  · cases graph.get? node with
    | none => exact keeps.symm
    | some _ => rfl
  · rfl

theorem cutAlong_of_firstEdge (first : graph.FirstEdge nodes source target) :
    graph.cutAlong nodes = graph.modify source fun dependencies => dependencies.erase target := by
  induction first with
  | here edge => exact if_pos edge
  | later absent _ induction => exact (if_neg absent).trans induction

theorem cutAlong_of_no_firstEdge
    (none : ∀ source target, ¬ graph.FirstEdge nodes source target) :
    graph.cutAlong nodes = graph := by
  induction nodes with
  | nil => rfl
  | cons current rest induction =>
    cases rest with
    | nil => rfl
    | cons next rest =>
      have absent : ¬ graph.Edge current next := fun edge => none _ _ (.here edge)
      refine (if_neg absent).trans (induction ?_)
      intro source target found
      exact none source target (.later absent found)

theorem cutAlong_cases (graph : Graph) (nodes : List String) :
    (∃ source target, graph.FirstEdge nodes source target) ∨
      (∀ source target, ¬ graph.FirstEdge nodes source target) ∧ graph.cutAlong nodes = graph := by
  by_cases cut : ∃ source target, graph.FirstEdge nodes source target
  · exact .inl cut
  · push Not at cut
    exact .inr ⟨cut, cutAlong_of_no_firstEdge cut⟩

theorem dependencies_cutAlong_of_firstEdge (first : graph.FirstEdge nodes source target)
    (node : String) :
    (graph.cutAlong nodes).dependencies node =
      if node = source then (graph.dependencies node).erase target
      else graph.dependencies node := by
  rw [cutAlong_of_firstEdge first]
  exact dependencies_modify graph source node _ rfl

theorem keys_cutAlong (graph : Graph) (nodes : List String) :
    (graph.cutAlong nodes).keys = graph.keys := by
  rcases cutAlong_cases graph nodes with ⟨source, target, first⟩ | ⟨_, uncut⟩
  · rw [cutAlong_of_firstEdge first, OrderedMap.keys_modify]
  · rw [uncut]

theorem dependencies_cutAlong_of_not_mem (outside : node ∉ nodes) :
    (graph.cutAlong nodes).dependencies node = graph.dependencies node := by
  rcases cutAlong_cases graph nodes with ⟨source, target, first⟩ | ⟨_, uncut⟩
  · rw [dependencies_cutAlong_of_firstEdge first, if_neg]
    exact fun equal => outside (equal ▸ first.source_mem)
  · rw [uncut]

theorem dependencies_cutAlong_congr (inside : node ∈ nodes)
    (same : ∀ node ∈ nodes, graph.dependencies node = other.dependencies node) :
    (graph.cutAlong nodes).dependencies node = (other.cutAlong nodes).dependencies node := by
  rcases cutAlong_cases graph nodes with ⟨source, target, first⟩ | ⟨none, uncut⟩
  · rw [dependencies_cutAlong_of_firstEdge first,
      dependencies_cutAlong_of_firstEdge (first.congr same), same node inside]
  · have noneOther : ∀ source target, ¬ other.FirstEdge nodes source target :=
      fun source target first =>
        none source target (first.congr fun node member => (same node member).symm)
    rw [uncut, cutAlong_of_no_firstEdge noneOther]
    exact same node inside

/-- A cut removes the first edge along the list where it is named once, and no other edge. -/
theorem edge_cutAlong_iff (graph : Graph) (nodes : List String) (source target : String) :
    (graph.cutAlong nodes).Edge source target ↔
      graph.Edge source target ∧
        (graph.FirstEdge nodes source target →
          1 < (graph.dependencies source).count target) := by
  rcases cutAlong_cases graph nodes with ⟨cutSource, cutTarget, first⟩ | ⟨none, uncut⟩
  · rw [Edge, dependencies_cutAlong_of_firstEdge first]
    by_cases equal : source = cutSource
    · subst equal
      rw [if_pos rfl, mem_erase_iff]
      constructor
      · rintro ⟨edge, several⟩
        exact ⟨edge, fun again => several (first.unique again).2⟩
      · rintro ⟨edge, several⟩
        exact ⟨edge, fun same => several (same ▸ first)⟩
    · rw [if_neg equal]
      exact ⟨fun edge => ⟨edge, fun again => absurd (first.unique again).1 equal⟩,
        fun both => both.1⟩
  · rw [uncut]
    exact ⟨fun edge => ⟨edge, fun first => absurd first (none source target)⟩, fun both => both.1⟩

end Cut

/-! ## Cutting along every component -/

theorem dependencies_foldl_cutAlong (lists : List (List String)) (graph : Graph)
    (distinct : lists.flatten.Nodup) (node : String) :
    (node ∉ lists.flatten →
      (lists.foldl cutAlong graph).dependencies node = graph.dependencies node) ∧
    ∀ nodes ∈ lists, node ∈ nodes →
      (lists.foldl cutAlong graph).dependencies node =
        (graph.cutAlong nodes).dependencies node := by
  induction lists generalizing graph with
  | nil => exact ⟨fun _ => rfl, forall_mem_nil _⟩
  | cons head rest induction =>
    rw [flatten_cons] at distinct
    rcases nodup_append.mp distinct with ⟨_, restDistinct, apart⟩
    rcases induction (graph.cutAlong head) restDistinct with ⟨outsideRest, insideRest⟩
    rw [flatten_cons, foldl_cons]
    constructor
    · intro outside
      rw [outsideRest fun member => outside (mem_append_right _ member)]
      exact dependencies_cutAlong_of_not_mem fun member =>
        outside (mem_append_left _ member)
    · intro nodes listed inside
      rcases mem_cons.mp listed with rfl | later
      · exact outsideRest fun member => apart node inside node member rfl
      · rw [insideRest nodes later inside]
        apply dependencies_cutAlong_congr inside
        intro other member
        apply dependencies_cutAlong_of_not_mem
        intro inHead
        exact apart other inHead other (mem_flatten.mpr ⟨nodes, later, member⟩) rfl

theorem keys_breakCycles (graph : Graph) : graph.breakCycles.keys = graph.keys := by
  unfold breakCycles
  induction graph.cycles generalizing graph with
  | nil => rfl
  | cons head rest induction =>
    rw [foldl_cons, induction, keys_cutAlong]

variable {graph : Graph} {component : List String}

theorem edge_breakCycles_iff_of_mem (listed : component ∈ graph.cycles)
    (inside : source ∈ component) :
    graph.breakCycles.Edge source target ↔
      graph.Edge source target ∧
        (graph.FirstEdge component source target →
          1 < (graph.dependencies source).count target) := by
  rw [← edge_cutAlong_iff, Edge, Edge, breakCycles]
  rw [(dependencies_foldl_cutAlong graph.cycles graph (nodup_flatten_cycles graph) source).2
    component listed inside]

theorem edge_breakCycles_iff (graph : Graph) (source target : String) :
    graph.breakCycles.Edge source target ↔
      graph.Edge source target ∧
        ∀ component ∈ graph.cycles, graph.FirstEdge component source target →
          1 < (graph.dependencies source).count target := by
  by_cases covered : source ∈ graph.cycles.flatten
  · rcases mem_flatten.mp covered with ⟨component, listed, inside⟩
    rw [edge_breakCycles_iff_of_mem listed inside]
    refine and_congr_right fun _ => ?_
    constructor
    · intro several other otherListed first
      have same := component_unique listed otherListed inside first.source_mem
      exact several (same ▸ first)
    · intro several first
      exact several component listed first
  · have kept := (dependencies_foldl_cutAlong graph.cycles graph (nodup_flatten_cycles graph)
      source).1 covered
    rw [Edge, Edge, breakCycles, kept]
    refine ⟨fun edge => ⟨edge, fun component listed first => ?_⟩, fun both => both.1⟩
    exact absurd (mem_flatten.mpr ⟨component, listed, first.source_mem⟩) covered

theorem Edge.of_breakCycles (edge : graph.breakCycles.Edge source target) :
    graph.Edge source target :=
  ((edge_breakCycles_iff graph source target).mp edge).1

theorem Reaches.of_breakCycles (walk : graph.breakCycles.Reaches first last) :
    graph.Reaches first last :=
  walk.mono fun _ _ edge => edge.of_breakCycles

theorem edge_breakCycles_of_not_reaches (edge : graph.Edge source target)
    (noReturn : ¬ graph.Reaches target source) : graph.breakCycles.Edge source target := by
  refine (edge_breakCycles_iff graph source target).mpr ⟨edge, fun component listed first => ?_⟩
  exact absurd ((mem_component_iff listed first.source_mem target).mp first.target_mem).2 noReturn

/-! ## When the result is acyclic -/

/-- A node reaches another without using one edge. -/
def ReachesWithout (graph : Graph) (source target : String) : String → String → Prop :=
  Relation.ReflTransGen fun current next =>
    graph.Edge current next ∧ ¬ (current = source ∧ next = target)

/-- A walk between two nodes of a component stays inside, so it survives if each of its steps from
a node of the component does. -/
theorem reaches_breakCycles_of_walk (listed : component ∈ graph.cycles)
    {step : String → String → Prop} (edges : ∀ source target, step source target →
      graph.Edge source target) (kept : ∀ source ∈ component, ∀ target, step source target →
      graph.breakCycles.Edge source target) (walk : Relation.ReflTransGen step first last)
    (firstInside : first ∈ component) (lastInside : last ∈ component) :
    graph.breakCycles.Reaches first last := by
  induction walk using Relation.ReflTransGen.head_induction_on with
  | refl => exact .refl last
  | head edge rest induction =>
    rename_i current next
    have onward : graph.Reaches next last :=
      Relation.ReflTransGen.mono edges next last rest
    have wayBack := ((mem_component_iff listed lastInside current).mp firstInside).1
    have nextInside : next ∈ component := by
      rw [mem_component_iff listed firstInside]
      exact ⟨(edges current next edge).reaches, onward.trans wayBack⟩
    exact (kept current firstInside next edge).reaches.trans (induction nextInside)

theorem ReachesWithout.reaches_breakCycles (listed : component ∈ graph.cycles)
    (firstEdge : graph.FirstEdge component source target)
    (walk : graph.ReachesWithout source target first last) (firstInside : first ∈ component)
    (lastInside : last ∈ component) :
    graph.breakCycles.Reaches first last := by
  refine reaches_breakCycles_of_walk listed (fun _ _ step => step.1) ?_ walk firstInside lastInside
  rintro current inside next ⟨edge, avoids⟩
  rw [edge_breakCycles_iff_of_mem listed inside]
  exact ⟨edge, fun again => absurd (firstEdge.unique again) avoids⟩

theorem Reaches.breakCycles_of_uncut (listed : component ∈ graph.cycles)
    (uncut : ∀ source target, graph.FirstEdge component source target →
      (graph.dependencies source).count target ≠ 1) (walk : graph.Reaches first last)
    (firstInside : first ∈ component) (lastInside : last ∈ component) :
    graph.breakCycles.Reaches first last := by
  refine reaches_breakCycles_of_walk listed (fun _ _ edge => edge) ?_ walk firstInside lastInside
  intro current inside next edge
  rw [edge_breakCycles_iff_of_mem listed inside]
  refine ⟨edge, fun again => ?_⟩
  have named : 0 < (graph.dependencies current).count next := count_pos_iff.mpr edge
  have notOnce := uncut current next again
  omega

theorem Reaches.without_firstEdge (listed : component ∈ graph.cycles)
    (firstEdge : graph.FirstEdge component source target)
    (once : (graph.dependencies source).count target = 1)
    (walk : graph.breakCycles.Reaches first last) :
    graph.ReachesWithout source target first last := by
  refine .mono ?_ first last walk
  intro current next edge
  refine ⟨edge.of_breakCycles, ?_⟩
  rintro ⟨rfl, rfl⟩
  have several := ((edge_breakCycles_iff_of_mem listed firstEdge.source_mem).mp edge).2 firstEdge
  omega

theorem exists_cut_of_acyclic (acyclic : graph.breakCycles.Acyclic)
    (listed : component ∈ graph.cycles) :
    ∃ source target, graph.FirstEdge component source target ∧
      (graph.dependencies source).count target = 1 := by
  by_contra none
  have uncut : ∀ source target, graph.FirstEdge component source target →
      (graph.dependencies source).count target ≠ 1 := fun source target firstEdge once =>
    none ⟨source, target, firstEdge, once⟩
  rcases exists_two_members listed with ⟨first, firstInside, second, secondInside, different⟩
  have linked := (mem_component_iff listed firstInside second).mp secondInside
  exact different (acyclic first second
    ⟨linked.1.breakCycles_of_uncut listed uncut firstInside secondInside,
      linked.2.breakCycles_of_uncut listed uncut secondInside firstInside⟩)

/-- The graph left over is acyclic exactly when, for each component, the list of the component
follows some edge, the first such edge is named once, and every closed walk through two nodes of
the component uses it. -/
theorem acyclic_breakCycles_iff (graph : Graph) :
    graph.breakCycles.Acyclic ↔
      ∀ component ∈ graph.cycles, ∃ source target,
        graph.FirstEdge component source target ∧
          (graph.dependencies source).count target = 1 ∧
          ∀ first ∈ component, ∀ second ∈ component,
            graph.ReachesWithout source target first second →
              graph.ReachesWithout source target second first → first = second := by
  constructor
  · intro acyclic component listed
    rcases exists_cut_of_acyclic acyclic listed with ⟨source, target, firstEdge, once⟩
    refine ⟨source, target, firstEdge, once, ?_⟩
    intro first firstInside second secondInside forth back
    exact acyclic first second
      ⟨forth.reaches_breakCycles listed firstEdge firstInside secondInside,
        back.reaches_breakCycles listed firstEdge secondInside firstInside⟩
  · intro condition first second linked
    by_contra different
    rcases exists_component ⟨linked.1.of_breakCycles, linked.2.of_breakCycles⟩ different with
      ⟨component, listed, firstInside, secondInside⟩
    rcases condition component listed with ⟨source, target, firstEdge, once, separate⟩
    exact different (separate first firstInside second secondInside
      (linked.1.without_firstEdge listed firstEdge once)
      (linked.2.without_firstEdge listed firstEdge once))

/-- Three nodes, each of which depends on the next. -/
def triangle : Graph :=
  .ofList [("a", ["b"]), ("b", ["c"]), ("c", ["a"])]

/-- The component of the triangle leaves the stack against the direction of its edges, so its list
follows none of them and nothing is cut. -/
theorem triangle_not_acyclic : ¬ triangle.breakCycles.Acyclic := by
  intro acyclic
  have forth : triangle.breakCycles.Edge "a" "b" := by decide
  have between : triangle.breakCycles.Edge "b" "c" := by decide
  have back : triangle.breakCycles.Edge "c" "a" := by decide
  have equal := acyclic "a" "b" ⟨forth.reaches, between.reaches.trans back.reaches⟩
  exact absurd equal (by decide)

/-! ## What each component loses -/

/-- The cut along a list where a look-up of a name that is no node fails. -/
def cutAlong? (graph : Graph) : List String → Option Graph
  | current :: next :: rest => do
    let dependencies ← graph.get? current
    if next ∈ dependencies then
      some (graph.modify current fun dependencies => dependencies.erase next)
    else cutAlong? graph (next :: rest)
  | _ => some graph

theorem mem_keys_of_mem_cycles (listed : component ∈ graph.cycles) (inside : node ∈ component) :
    node ∈ graph.keys := by
  rcases exists_two_members listed with ⟨first, firstInside, second, secondInside, different⟩
  have reaches := fun other otherInside =>
    ((mem_component_iff listed inside other).mp otherInside).1
  by_cases equal : node = first
  · exact (reaches second secondInside).mem_keys (equal ▸ different)
  · exact (reaches first firstInside).mem_keys equal

theorem cutAlong?_eq_some (nodes : List String) (known : ∀ node ∈ nodes, node ∈ graph.keys) :
    graph.cutAlong? nodes = some (graph.cutAlong nodes) := by
  fun_induction cutAlong graph nodes with
  | case1 current next rest edge =>
    rcases (graph.mem_keys_iff current).mp (known current mem_cons_self) with ⟨_, found⟩
    rw [dependencies, OrderedMap.getD_of_get? found] at edge
    simp [cutAlong?, found, edge]
  | case2 current next rest absent induction =>
    rcases (graph.mem_keys_iff current).mp (known current mem_cons_self) with ⟨_, found⟩
    rw [dependencies, OrderedMap.getD_of_get? found] at absent
    simp [cutAlong?, found, absent, induction fun node inside =>
      known node (mem_cons_of_mem current inside)]
  | case3 nodes short =>
    rw [cutAlong?]
    exact short

theorem foldlM_cutAlong? (lists : List (List String))
    (known : ∀ nodes ∈ lists, ∀ node ∈ nodes, node ∈ graph.keys) :
    lists.foldlM cutAlong? graph = some (lists.foldl cutAlong graph) := by
  induction lists generalizing graph with
  | nil => rfl
  | cons head rest induction =>
    rw [foldlM_cons, cutAlong?_eq_some head (known head mem_cons_self)]
    refine induction fun nodes listed node inside => ?_
    rw [keys_cutAlong]
    exact known nodes (mem_cons_of_mem head listed) node inside

/-- Among some nodes nothing is lost, or one occurrence of one edge between two of them. -/
def LosesAtMostOne (graph after : Graph) (nodes : Set String) : Prop :=
  (∀ node ∈ nodes, after.dependencies node = graph.dependencies node) ∨
    ∃ source ∈ nodes, ∃ target ∈ nodes, source ≠ target ∧ graph.Edge source target ∧
      ∀ node ∈ nodes, after.dependencies node =
        if node = source then (graph.dependencies node).erase target else graph.dependencies node

theorem IsStrongComponent.mem_iff_linked {nodes : Set String}
    (strong : graph.IsStrongComponent nodes) (inside : node ∈ nodes) (other : String) :
    other ∈ nodes ↔ graph.Linked node other := by
  rcases isStrongComponent_iff.mp strong with ⟨start, rfl⟩
  exact ⟨inside.symm.trans, inside.trans⟩

theorem losesAtMostOne_breakCycles {nodes : Set String} (strong : graph.IsStrongComponent nodes) :
    graph.LosesAtMostOne graph.breakCycles nodes := by
  have cut := dependencies_foldl_cutAlong graph.cycles graph (nodup_flatten_cycles graph)
  by_cases covered : ∃ node ∈ nodes, node ∈ graph.cycles.flatten
  · rcases covered with ⟨node, member, inFlatten⟩
    rcases mem_flatten.mp inFlatten with ⟨component, listed, inside⟩
    have whole : ∀ other, other ∈ nodes ↔ other ∈ component := fun other => by
      rw [mem_component_iff listed inside, strong.mem_iff_linked member]
    have same : ∀ other ∈ nodes, graph.breakCycles.dependencies other =
        (graph.cutAlong component).dependencies other := fun other otherInside =>
      (cut other).2 component listed ((whole other).mp otherInside)
    rcases cutAlong_cases graph component with ⟨source, target, first⟩ | ⟨_, uncut⟩
    · refine .inr ⟨source, (whole source).mpr first.source_mem, target,
        (whole target).mpr first.target_mem, first.ne (nodup_of_mem_cycles listed), first.edge,
        fun other otherInside => ?_⟩
      rw [same other otherInside, dependencies_cutAlong_of_firstEdge first]
    · exact .inl fun other otherInside => by rw [same other otherInside, uncut]
  · exact .inl fun node inside => (cut node).1 fun listed => covered ⟨node, inside, listed⟩

/-- Breaking cycles finds every name that it looks up, keeps the nodes and their order, takes from
each strongly connected component at most one occurrence of one edge between two of its nodes, and
keeps every occurrence of an edge between different components. -/
theorem breakCycles_loses_inner_edges (graph : Graph) :
    (∃ final, Search.Visits graph graph.keys Search.start final ∧
        final.components.foldlM cutAlong? graph = some graph.breakCycles) ∧
      graph.breakCycles.keys = graph.keys ∧
      (∀ nodes, graph.IsStrongComponent nodes →
        graph.LosesAtMostOne graph.breakCycles nodes) ∧
      ∀ source target, ¬ graph.Linked source target →
        (graph.breakCycles.dependencies source).count target =
          (graph.dependencies source).count target := by
  refine ⟨⟨_, (Search.visits_iff graph _).mpr rfl, foldlM_cutAlong? graph.cycles
    fun _ listed _ => mem_keys_of_mem_cycles listed⟩, keys_breakCycles graph,
    fun _ => losesAtMostOne_breakCycles, fun source target apart => ?_⟩
  have inside : graph.Linked source source := ⟨Reaches.refl source, Reaches.refl source⟩
  rcases losesAtMostOne_breakCycles (isStrongComponent_iff.mpr ⟨source, rfl⟩) with
    kept | ⟨_, _, removed, linked, _, _, cut⟩
  · rw [kept source inside]
  · rw [cut source inside]
    split
    · have different : target ≠ removed := fun equal => apart (equal ▸ linked)
      exact List.count_erase_of_ne different
    · rfl

end CodeAtlas.Graph
