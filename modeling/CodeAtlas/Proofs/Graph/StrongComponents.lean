import CodeAtlas.Proofs.Graph.Closing
import Mathlib.Data.List.Pairwise
import Mathlib.Data.Set.Subsingleton
import Mathlib.Order.Minimal

/-!
The exploration of whole graphs. A node is explored by induction over the depth, and a graph node
after node; in the end the reported components are exactly the classes of two or more linked nodes,
which are the strongly connected components. The same search without a bound on its depth is given
by rules, so that a run that ends is a finite derivation. Each nested run discovers one more of the
mentioned nodes, and therefore it ends for every graph, in the state that the bounded search
computes.
-/

namespace CodeAtlas.Graph

open List

namespace Search

variable {graph : Graph} {path : List String} {node : String} {before : Search}

/-! ## The exploration of a node -/

theorem explore_succ (graph : Graph) (depth : Nat) (node : String) (search : Search) :
    explore graph (depth + 1) node search =
      ((graph.dependencies node).foldl (follow (explore graph depth) node)
        (search.discover node)).closeIfRoot node := rfl

/-- An exploration that is deep enough for all nodes still to be discovered achieves what it
should, whatever the nodes under exploration are. -/
theorem explored_explore (depth : Nat) :
    ∀ {path : List String} {node : String} {before : Search},
      Consistent graph path before → Reported graph before → node ∉ before.discovered →
      node ∈ graph.mentioned → (∀ active ∈ path, graph.Reaches active node) →
      graph.remaining before.discovered ≤ depth →
        Explored graph path node before (explore graph depth node before) := by
  induction depth with
  | zero =>
    intro path node before _ _ fresh mentioned _ room
    exact absurd (mem_of_remaining_eq_zero (Nat.le_zero.mp room) mentioned) fresh
  | succ depth induction =>
    intro path node before start reported fresh mentioned called room
    have deeper : ∀ search seen successor, Exploring graph path node before seen search →
        graph.Edge node successor → successor ∉ search.discovered →
          Explored graph (node :: path) successor search
            (explore graph depth successor search) := by
      intro search seen successor exploring edge unseen
      have fewer := remaining_lt (fun other => exploring.later.discovered other) mentioned fresh
        exploring.node_discovered
      apply induction exploring.consistent exploring.reported unseen
        (mem_mentioned_of_edge edge)
      · intro active inPath
        rcases mem_cons.mp inPath with rfl | older
        · exact edge.reaches
        · exact (called active older).trans edge.reaches
      · omega
    have exploring := (exploring_discover start reported fresh called).all_followed fresh
      (graph.dependencies node) (fun _ member => member) deeper
    have allSeen : ∀ successor, graph.Edge node successor →
        successor ∈ [] ++ graph.dependencies node := fun _ edge => mem_append_right [] edge
    rw [explore_succ, closeIfRoot]
    split
    · rename_i root
      exact exploring.close start allSeen root
    · rename_i lower
      exact exploring.keep start allSeen lower

/-! ## The exploration of a graph -/

/-- Between two explorations that start from outside, no node is under exploration. -/
structure Resting (graph : Graph) (search : Search) : Prop where
  consistent : Consistent graph [] search
  reported : Reported graph search

theorem Resting.stack_eq_nil {search : Search} (resting : Resting graph search) :
    search.stack = [] := by
  rw [eq_nil_iff_forall_not_mem]
  intro other member
  rcases resting.consistent.returns other member with ⟨active, inPath, _⟩
  exact not_mem_nil inPath

theorem resting_start (graph : Graph) : Resting graph start where
  consistent := by
    constructor
    case stack_sorted => exact .nil
    all_goals
      intro other member
      exact absurd member not_mem_nil
  reported := by
    constructor
    case distinct => exact nodup_nil
    all_goals
      intro other member
      exact absurd member not_mem_nil

theorem Resting.explored {search : Search} (resting : Resting graph search)
    (fresh : node ∉ search.discovered) (member : node ∈ graph.keys) :
    Explored graph [] node search (explore graph (graph.mentioned.length + 1) node search) := by
  apply explored_explore (graph.mentioned.length + 1) resting.consistent resting.reported fresh
    (mem_mentioned_of_mem_keys member)
  · exact fun _ inPath => absurd inPath not_mem_nil
  · exact (graph.remaining_le_length search.discovered).trans (Nat.le_succ _)

theorem Resting.all_explored (nodes : List String) (members : ∀ node ∈ nodes, node ∈ graph.keys)
    {search : Search} (resting : Resting graph search) :
    let after := nodes.foldl (fun search node =>
      if search.isDiscovered node then search
      else explore graph (graph.mentioned.length + 1) node search) search
    Resting graph after ∧ (∀ node ∈ search.discovered, node ∈ after.discovered) ∧
      ∀ node ∈ nodes, node ∈ after.discovered := by
  induction nodes generalizing search with
  | nil => exact ⟨resting, fun _ known => known, forall_mem_nil _⟩
  | cons head rest induction =>
    rw [foldl_cons]
    have membersRest : ∀ node ∈ rest, node ∈ graph.keys := fun node member =>
      members node (mem_cons_of_mem head member)
    split
    · rename_i known
      rw [isDiscovered_iff] at known
      rcases induction membersRest resting with ⟨rests, kept, all⟩
      refine ⟨rests, kept, fun node member => ?_⟩
      rcases mem_cons.mp member with rfl | later
      · exact kept node known
      · exact all node later
    · rename_i unknown
      rw [isDiscovered_iff] at unknown
      have explored := resting.explored unknown (members head mem_cons_self)
      rcases induction membersRest ⟨explored.consistent, explored.reported⟩ with
        ⟨rests, kept, all⟩
      refine ⟨rests, fun node old => kept node (explored.later.discovered node old),
        fun node member => ?_⟩
      rcases mem_cons.mp member with rfl | later
      · exact kept node explored.node_discovered
      · exact all node later

/-! ## Runs -/

/-- A run at a node of which some successors are still to be followed, up to the state in which all
of them are. A nested run has to end with its node still on the stack: the component that the node
may close is popped down to it. -/
inductive Follows (graph : Graph) : String → List String → Search → Search → Prop
  | done {node : String} {search : Search} : Follows graph node [] search search
  | stacked {node successor : String} {rest : List String} {search after : Search}
      (known : successor ∈ search.discovered) (inStack : successor ∈ search.stack)
      (onward : Follows graph node rest (search.lower node (search.rank successor)) after) :
      Follows graph node (successor :: rest) search after
  | settled {node successor : String} {rest : List String} {search after : Search}
      (known : successor ∈ search.discovered) (outside : successor ∉ search.stack)
      (onward : Follows graph node rest search after) :
      Follows graph node (successor :: rest) search after
  | nested {node successor : String} {rest : List String} {search inner after : Search}
      (unknown : successor ∉ search.discovered)
      (deeper : Follows graph successor (graph.dependencies successor)
        (search.discover successor) inner)
      (inStack : successor ∈ inner.stack)
      (onward : Follows graph node rest
        ((inner.closeIfRoot successor).lower node
          ((inner.closeIfRoot successor).lowest successor)) after) :
      Follows graph node (successor :: rest) search after

/-- A run over some nodes one after the other, each of which is explored unless it has been
discovered before. -/
inductive Visits (graph : Graph) : List String → Search → Search → Prop
  | done {search : Search} : Visits graph [] search search
  | known {node : String} {rest : List String} {search after : Search}
      (known : node ∈ search.discovered) (onward : Visits graph rest search after) :
      Visits graph (node :: rest) search after
  | explored {node : String} {rest : List String} {search inner after : Search}
      (unknown : node ∉ search.discovered)
      (deeper : Follows graph node (graph.dependencies node) (search.discover node) inner)
      (inStack : node ∈ inner.stack)
      (onward : Visits graph rest (inner.closeIfRoot node) after) :
      Visits graph (node :: rest) search after

variable {nodes : List String} {search first second : Search}

theorem Follows.unique (left : Follows graph node nodes search first)
    (right : Follows graph node nodes search second) : second = first := by
  induction left generalizing second with
  | done =>
    cases right with
    | done => rfl
  | stacked known inStack _ induction =>
    cases right with
    | stacked _ _ onward => exact induction onward
    | settled _ outside _ => exact absurd inStack outside
    | nested unknown _ _ _ => exact absurd known unknown
  | settled known outside _ induction =>
    cases right with
    | stacked _ inStack _ => exact absurd inStack outside
    | settled _ _ onward => exact induction onward
    | nested unknown _ _ _ => exact absurd known unknown
  | nested unknown _ _ _ inductionDeeper induction =>
    cases right with
    | stacked known _ _ => exact absurd known unknown
    | settled known _ _ => exact absurd known unknown
    | nested _ deeper _ onward =>
      cases inductionDeeper deeper
      exact induction onward

theorem Visits.unique (left : Visits graph nodes search first)
    (right : Visits graph nodes search second) : second = first := by
  induction left generalizing second with
  | done =>
    cases right with
    | done => rfl
  | known known _ induction =>
    cases right with
    | known _ onward => exact induction onward
    | explored unknown _ _ _ => exact absurd known unknown
  | explored unknown left _ _ induction =>
    cases right with
    | known known _ => exact absurd known unknown
    | explored _ deeper _ onward =>
      cases left.unique deeper
      exact induction onward

/-! ## What a run keeps -/

@[simp] theorem discovered_closeIfRoot (search : Search) (node : String) :
    (search.closeIfRoot node).discovered = search.discovered := by
  unfold closeIfRoot
  split
  · rfl
  · rfl

theorem Follows.discovered_subset (run : Follows graph node nodes search first) :
    search.discovered ⊆ first.discovered := by
  induction run with
  | done => exact fun _ member => member
  | stacked _ _ _ induction => exact induction
  | settled _ _ _ induction => exact induction
  | @nested _ successor _ search inner _ _ _ _ _ inductionDeeper induction =>
    intro other member
    apply induction
    change other ∈ (inner.closeIfRoot successor).discovered
    rw [discovered_closeIfRoot]
    exact inductionDeeper ((search.mem_discovered_discover successor other).mpr (.inr member))

theorem suffix_popThrough {below stack : List String} (stacked : (node :: below) <:+ stack) :
    below <:+ (popThrough node stack).2 := by
  induction stack with
  | nil => exact absurd (suffix_nil.mp stacked) (cons_ne_nil node below)
  | cons top rest induction =>
    rw [popThrough]
    rcases suffix_cons_iff.mp stacked with whole | inRest
    · rw [List.cons.injEq] at whole
      rw [if_pos whole.1.symm, whole.2]
    · split
      · exact (suffix_cons node below).trans inRest
      · exact induction inRest

theorem suffix_closeIfRoot {below : List String} (stacked : (node :: below) <:+ search.stack) :
    below <:+ (search.closeIfRoot node).stack := by
  unfold closeIfRoot
  split
  · exact suffix_popThrough stacked
  · exact (suffix_cons node below).trans stacked

/-- What was on the stack stays there, so the node of a run is still found when the run ends. -/
theorem Follows.stack_suffix (run : Follows graph node nodes search first) :
    search.stack <:+ first.stack := by
  induction run with
  | done => exact suffix_rfl
  | stacked _ _ _ induction => exact induction
  | settled _ _ _ induction => exact induction
  | nested _ _ _ _ inductionDeeper induction =>
    exact (suffix_closeIfRoot inductionDeeper).trans induction

theorem Follows.mem_stack
    (run : Follows graph node nodes (search.discover node) first) : node ∈ first.stack :=
  run.stack_suffix.subset mem_cons_self

/-! ## Every run ends -/

/-- The bounded exploration of a node is a run, if it is deep enough for all nodes still to be
discovered. -/
def EndsWithin (graph : Graph) (depth : Nat) : Prop :=
  ∀ node search, node ∈ graph.mentioned → node ∉ search.discovered →
    graph.remaining search.discovered ≤ depth →
      ∃ inner, Follows graph node (graph.dependencies node) (search.discover node) inner ∧
        explore graph depth node search = inner.closeIfRoot node

theorem EndsWithin.follows {depth : Nat} (ends : EndsWithin graph depth) (successors : List String)
    (mentioned : ∀ successor ∈ successors, successor ∈ graph.mentioned)
    (room : graph.remaining search.discovered ≤ depth) :
    Follows graph node successors search
      (successors.foldl (follow (explore graph depth) node) search) := by
  induction successors generalizing search with
  | nil => exact .done
  | cons successor rest induction =>
    have mentionedRest : ∀ other ∈ rest, other ∈ graph.mentioned := fun other member =>
      mentioned other (mem_cons_of_mem successor member)
    rw [foldl_cons]
    by_cases known : successor ∈ search.discovered
    · have found : search.isDiscovered successor = true :=
        (search.isDiscovered_iff successor).mpr known
      by_cases inStack : successor ∈ search.stack
      · rw [follow, if_pos found, if_pos inStack]
        exact .stacked known inStack (induction mentionedRest room)
      · rw [follow, if_pos found, if_neg inStack]
        exact .settled known inStack (induction mentionedRest room)
    · have missing : ¬ search.isDiscovered successor = true := fun found =>
        known ((search.isDiscovered_iff successor).mp found)
      rcases ends successor search (mentioned successor mem_cons_self) known room with
        ⟨inner, run, same⟩
      rw [follow, if_neg missing, same]
      refine .nested known run run.mem_stack (induction mentionedRest ?_)
      refine (graph.remaining_le ?_).trans room
      intro other member
      change other ∈ (inner.closeIfRoot successor).discovered
      rw [discovered_closeIfRoot]
      exact run.discovered_subset
        ((search.mem_discovered_discover successor other).mpr (.inr member))

theorem endsWithin (graph : Graph) (depth : Nat) : EndsWithin graph depth := by
  induction depth with
  | zero =>
    intro node search mentioned fresh room
    exact absurd (mem_of_remaining_eq_zero (Nat.le_zero.mp room) mentioned) fresh
  | succ depth induction =>
    intro node search mentioned fresh room
    refine ⟨_, induction.follows (graph.dependencies node)
      (fun _ edge => mem_mentioned_of_edge edge) ?_, explore_succ graph depth node search⟩
    have fewer : graph.remaining (search.discover node).discovered <
        graph.remaining search.discovered :=
      remaining_lt
        (fun other member => (search.mem_discovered_discover node other).mpr (.inr member))
        mentioned fresh ((search.mem_discovered_discover node node).mpr (.inl rfl))
    omega

theorem visits_foldl (graph : Graph) (nodes : List String)
    (members : ∀ node ∈ nodes, node ∈ graph.keys) (search : Search) :
    Visits graph nodes search
      (nodes.foldl (fun search node =>
        if search.isDiscovered node then search
        else explore graph (graph.mentioned.length + 1) node search) search) := by
  induction nodes generalizing search with
  | nil => exact .done
  | cons node rest induction =>
    have membersRest : ∀ other ∈ rest, other ∈ graph.keys := fun other member =>
      members other (mem_cons_of_mem node member)
    rw [foldl_cons]
    split
    · rename_i found
      exact .known ((search.isDiscovered_iff node).mp found) (induction membersRest search)
    · rename_i missing
      have fresh : node ∉ search.discovered := fun known =>
        missing ((search.isDiscovered_iff node).mpr known)
      have room : graph.remaining search.discovered ≤ graph.mentioned.length + 1 :=
        (graph.remaining_le_length search.discovered).trans (Nat.le_succ _)
      rcases endsWithin graph _ node search
          (mem_mentioned_of_mem_keys (members node mem_cons_self)) fresh room with
        ⟨inner, run, same⟩
      rw [same]
      exact .explored fresh run run.mem_stack (induction membersRest _)

theorem visits_iff (graph : Graph) (final : Search) :
    Visits graph graph.keys start final ↔ final = exploreAll graph := by
  have ends : Visits graph graph.keys start (exploreAll graph) :=
    visits_foldl graph graph.keys (fun _ member => member) start
  constructor
  · exact ends.unique
  · rintro rfl
    exact ends

end Search

theorem resting_exploreAll (graph : Graph) :
    Search.Resting graph (exploreAll graph) ∧
      ∀ node ∈ graph.keys, node ∈ (exploreAll graph).discovered := by
  rcases (Search.resting_start graph).all_explored graph.keys fun _ member => member with
    ⟨resting, _, all⟩
  exact ⟨resting, all⟩

/-! ## What the components are -/

variable {graph : Graph} {component : List String}

theorem mem_component_iff (listed : component ∈ graph.cycles) {member : String}
    (inside : member ∈ component) (other : String) :
    other ∈ component ↔ graph.Linked member other :=
  (resting_exploreAll graph).1.reported.whole component listed member inside other

theorem exists_component {first second : String} (linked : graph.Linked first second)
    (different : first ≠ second) :
    ∃ component ∈ graph.cycles, first ∈ component ∧ second ∈ component := by
  rcases resting_exploreAll graph with ⟨resting, all⟩
  have known := all first (linked.1.mem_keys different)
  have outside : first ∉ (exploreAll graph).stack := by
    rw [resting.stack_eq_nil]
    exact not_mem_nil
  rcases resting.reported.complete first known outside second different.symm linked with
    ⟨component, listed, inside⟩
  exact ⟨component, listed, inside, (mem_component_iff listed inside second).mpr linked⟩

theorem nodup_flatten_cycles (graph : Graph) : graph.cycles.flatten.Nodup :=
  (resting_exploreAll graph).1.reported.distinct

theorem nodup_of_mem_cycles (listed : component ∈ graph.cycles) : component.Nodup :=
  (nodup_flatten.mp (nodup_flatten_cycles graph)).1 component listed

theorem disjoint_cycles (graph : Graph) : graph.cycles.Pairwise List.Disjoint :=
  (nodup_flatten.mp (nodup_flatten_cycles graph)).2

theorem exists_two_members (listed : component ∈ graph.cycles) :
    ∃ first ∈ component, ∃ second ∈ component, first ≠ second := by
  have several := (resting_exploreAll graph).1.reported.several component listed
  match component, several, nodup_of_mem_cycles listed with
  | first :: second :: _, _, distinct =>
    refine ⟨first, mem_cons_self, second, mem_cons_of_mem _ mem_cons_self, ?_⟩
    intro equal
    exact (nodup_cons.mp distinct).1 (equal ▸ mem_cons_self)

theorem component_unique (listed : component ∈ graph.cycles) {other : List String}
    (otherListed : other ∈ graph.cycles) {node : String} (inside : node ∈ component)
    (otherInside : node ∈ other) : other = component := by
  by_contra different
  have symmetric : Std.Symm (List.Disjoint : List String → List String → Prop) :=
    ⟨fun _ _ disjoint => disjoint.symm⟩
  exact (disjoint_cycles graph).forall otherListed listed different otherInside inside

/-! ## Strongly connected components -/

/-- Nodes each of which reaches all of them. -/
def StronglyConnected (graph : Graph) (nodes : Set String) : Prop :=
  ∀ first ∈ nodes, ∀ second ∈ nodes, graph.Reaches first second

/-- Strongly connected nodes that no further node can join. -/
def IsStrongComponent (graph : Graph) (nodes : Set String) : Prop :=
  Maximal graph.StronglyConnected nodes

variable {nodes : Set String}

theorem stronglyConnected_linked (graph : Graph) (node : String) :
    graph.StronglyConnected {other | graph.Linked node other} :=
  fun _ first _ second => (first.symm.trans second).1

theorem isStrongComponent_iff :
    graph.IsStrongComponent nodes ↔ ∃ node, nodes = {other | graph.Linked node other} := by
  constructor
  · intro maximal
    have inhabited : nodes.Nonempty := by
      by_contra empty
      rw [Set.not_nonempty_iff_eq_empty] at empty
      have single : graph.StronglyConnected {other | graph.Linked "" other} :=
        stronglyConnected_linked graph ""
      have inside := maximal.2 single (empty ▸ Set.empty_subset _)
        (show graph.Linked "" "" from ⟨.refl "", .refl ""⟩)
      rw [empty] at inside
      exact inside
    rcases inhabited with ⟨node, member⟩
    have covered : nodes ⊆ {other | graph.Linked node other} := fun other inside =>
      ⟨maximal.1 node member other inside, maximal.1 other inside node member⟩
    exact ⟨node, covered.antisymm (maximal.2 (stronglyConnected_linked graph node) covered)⟩
  · rintro ⟨node, rfl⟩
    refine ⟨stronglyConnected_linked graph node, fun larger connected covers other inside => ?_⟩
    have member : node ∈ larger := covers ⟨.refl node, .refl node⟩
    exact ⟨connected node member other inside, connected other inside node member⟩

theorem isStrongComponent_of_mem_cycles (listed : component ∈ graph.cycles) :
    graph.IsStrongComponent {node | node ∈ component} ∧ {node | node ∈ component}.Nontrivial := by
  rcases exists_two_members listed with ⟨first, firstInside, second, secondInside, different⟩
  have whole : {node | node ∈ component} = {other | graph.Linked first other} :=
    Set.ext fun other => mem_component_iff listed firstInside other
  exact ⟨isStrongComponent_iff.mpr ⟨first, whole⟩,
    first, firstInside, second, secondInside, different⟩

theorem exists_mem_cycles (strong : graph.IsStrongComponent nodes) (several : nodes.Nontrivial) :
    ∃ component ∈ graph.cycles, {node | node ∈ component} = nodes := by
  rcases several with ⟨first, firstInside, second, secondInside, different⟩
  have linked : graph.Linked first second :=
    ⟨strong.1 first firstInside second secondInside, strong.1 second secondInside first firstInside⟩
  rcases exists_component linked different with ⟨component, listed, inside, _⟩
  refine ⟨component, listed, Set.ext fun other => ?_⟩
  rcases isStrongComponent_iff.mp strong with ⟨node, rfl⟩
  rw [Set.mem_ofPred_eq, mem_component_iff listed inside]
  exact ⟨firstInside.trans, firstInside.symm.trans⟩

theorem nodup_cycles (graph : Graph) : graph.cycles.Nodup := by
  refine (disjoint_cycles graph).imp_of_mem ?_
  rintro component other listed _ disjoint rfl
  rcases exists_two_members listed with ⟨member, inside, _⟩
  exact disjoint inside inside

/-- The search ends for every graph, and its reports are, as sets, exactly the strongly connected
components with at least two nodes, each of them once and without repetition. -/
theorem cycles_exactly_strong_components (graph : Graph) :
    (∀ final, Search.Visits graph graph.keys Search.start final ↔ final = exploreAll graph) ∧
      (∀ component ∈ graph.cycles, component.Nodup) ∧
      (graph.cycles.map fun component => {node | node ∈ component}).Nodup ∧
      ∀ nodes : Set String,
        nodes ∈ (graph.cycles.map fun component => {node | node ∈ component}) ↔
          graph.IsStrongComponent nodes ∧ nodes.Nontrivial := by
  refine ⟨Search.visits_iff graph, fun _ => nodup_of_mem_cycles, ?_, ?_⟩
  · refine List.Nodup.map_on ?_ (nodup_cycles graph)
    intro component listed other otherListed same
    rcases exists_two_members listed with ⟨member, inside, _⟩
    have otherInside : member ∈ other := (Set.ext_iff.mp same member).mp inside
    exact (component_unique listed otherListed inside otherInside).symm
  · intro nodes
    rw [List.mem_map]
    constructor
    · rintro ⟨component, listed, rfl⟩
      exact isStrongComponent_of_mem_cycles listed
    · rintro ⟨strong, several⟩
      exact exists_mem_cycles strong several

end CodeAtlas.Graph
