import CodeAtlas.Graph.Basic
import CodeAtlas.Proofs.OrderedMap
import Mathlib.Data.Finset.Card
import Mathlib.Logic.Relation

/-!
Reachability in dependency graphs. Two nodes that reach each other are linked; a graph is acyclic
when no two different nodes are linked. A node that depends on itself is no cycle in this sense.
-/

namespace CodeAtlas.Graph

variable {source target node first second last : String} {known : List String}

/-- A node depends on another through any number of edges, none included. -/
def Reaches (graph : Graph) : String → String → Prop :=
  Relation.ReflTransGen graph.Edge

/-- Each of two nodes reaches the other: they are equal, or some closed walk passes both. -/
def Linked (graph : Graph) (first second : String) : Prop :=
  graph.Reaches first second ∧ graph.Reaches second first

/-- No closed walk passes two different nodes. -/
def Acyclic (graph : Graph) : Prop :=
  ∀ first second, graph.Linked first second → first = second

/-- Every dependency is a node of the graph. -/
def Closed (graph : Graph) : Prop :=
  ∀ source target, graph.Edge source target → target ∈ graph.keys

variable {graph : Graph}

/-! ## Edges -/

theorem mem_keys_of_edge (edge : graph.Edge source target) :
    source ∈ graph.keys := by
  by_contra absent
  have none : graph.dependencies source = [] := OrderedMap.getD_of_not_mem absent []
  rw [Edge, none] at edge
  exact List.not_mem_nil edge

theorem edge_iff_entry :
    graph.Edge source target ↔
      ∃ dependencies, (source, dependencies) ∈ graph.entries ∧ target ∈ dependencies := by
  constructor
  · intro edge
    rcases (graph.mem_keys_iff source).mp (mem_keys_of_edge edge) with ⟨dependencies, found⟩
    rw [Edge, Graph.dependencies, OrderedMap.getD_of_get? found] at edge
    exact ⟨dependencies, (graph.get?_eq_some_iff source dependencies).mp found, edge⟩
  · rintro ⟨dependencies, member, named⟩
    have found := (graph.get?_eq_some_iff source dependencies).mpr member
    rw [Edge, Graph.dependencies, OrderedMap.getD_of_get? found]
    exact named

theorem mem_mentioned_of_mem_keys (member : node ∈ graph.keys) :
    node ∈ graph.mentioned := by
  rcases List.mem_map.mp member with ⟨entry, inEntries, rfl⟩
  exact List.mem_flatMap.mpr ⟨entry, inEntries, List.mem_cons_self⟩

theorem mem_mentioned_of_edge (edge : graph.Edge source target) :
    target ∈ graph.mentioned := by
  rcases edge_iff_entry.mp edge with ⟨dependencies, inEntries, named⟩
  exact List.mem_flatMap.mpr
    ⟨(source, dependencies), inEntries, List.mem_cons_of_mem source named⟩

instance (graph : Graph) : Decidable graph.Closed :=
  decidable_of_iff (∀ entry ∈ graph.entries, ∀ target ∈ entry.2, target ∈ graph.keys) (by
    constructor
    · intro every source target edge
      rcases edge_iff_entry.mp edge with ⟨dependencies, inEntries, named⟩
      exact every (source, dependencies) inEntries target named
    · rintro closed ⟨source, dependencies⟩ inEntries target named
      exact closed source target (edge_iff_entry.mpr ⟨dependencies, inEntries, named⟩))

/-! ## Nodes that a traversal has still to visit -/

/-- How many of the mentioned nodes are not among those known. -/
def remaining (graph : Graph) (known : List String) : Nat :=
  (graph.mentioned.toFinset \ known.toFinset).card

theorem remaining_le (graph : Graph) {more : List String} (subset : known ⊆ more) :
    graph.remaining more ≤ graph.remaining known := by
  apply Finset.card_le_card
  intro node member
  simp only [Finset.mem_sdiff, List.mem_toFinset] at member ⊢
  exact ⟨member.1, fun old => member.2 (subset old)⟩

theorem remaining_lt {more : List String} (subset : known ⊆ more)
    (mentioned : node ∈ graph.mentioned) (fresh : node ∉ known) (found : node ∈ more) :
    graph.remaining more < graph.remaining known := by
  apply Finset.card_lt_card
  refine (Finset.ssubset_iff_of_subset ?_).mpr ⟨node, ?_, ?_⟩
  · intro other member
    simp only [Finset.mem_sdiff, List.mem_toFinset] at member ⊢
    exact ⟨member.1, fun old => member.2 (subset old)⟩
  · simp [mentioned, fresh]
  · simp [found]

theorem mem_of_remaining_eq_zero (zero : graph.remaining known = 0)
    (mentioned : node ∈ graph.mentioned) : node ∈ known := by
  have subset := Finset.sdiff_eq_empty_iff_subset.mp (Finset.card_eq_zero.mp zero)
  exact List.mem_toFinset.mp (subset (List.mem_toFinset.mpr mentioned))

theorem remaining_le_length (graph : Graph) (known : List String) :
    graph.remaining known ≤ graph.mentioned.length :=
  calc graph.remaining known ≤ graph.mentioned.toFinset.card :=
        Finset.card_le_card Finset.sdiff_subset
    _ ≤ graph.mentioned.length := List.toFinset_card_le graph.mentioned

/-! ## Walks -/

theorem Reaches.refl (node : String) : graph.Reaches node node :=
  Relation.ReflTransGen.refl

theorem Edge.reaches (edge : graph.Edge source target) :
    graph.Reaches source target :=
  .single edge

theorem Reaches.trans {third : String} (left : graph.Reaches first second)
    (right : graph.Reaches second third) : graph.Reaches first third :=
  Relation.ReflTransGen.trans left right

theorem Reaches.stays (inside : String → Prop)
    (step : ∀ source target, inside source → graph.Edge source target → inside target)
    (walk : graph.Reaches first last) (start : inside first) :
    inside last := by
  induction walk with
  | refl => exact start
  | tail _ edge induction => exact step _ _ induction edge

theorem Reaches.mono {other : Graph}
    (edges : ∀ source target, graph.Edge source target → other.Edge source target)
    (walk : graph.Reaches first last) : other.Reaches first last :=
  Relation.ReflTransGen.mono edges first last walk

theorem Reaches.mem_keys (walk : graph.Reaches first last) (different : first ≠ last) :
    first ∈ graph.keys := by
  rcases Relation.ReflTransGen.cases_head walk with equal | ⟨_, edge, _⟩
  · exact absurd equal different
  · exact mem_keys_of_edge edge

theorem Linked.symm (linked : graph.Linked first second) :
    graph.Linked second first :=
  ⟨linked.2, linked.1⟩

theorem Linked.trans {third : String} (left : graph.Linked first second)
    (right : graph.Linked second third) : graph.Linked first third :=
  ⟨left.1.trans right.1, right.2.trans left.2⟩

end CodeAtlas.Graph
