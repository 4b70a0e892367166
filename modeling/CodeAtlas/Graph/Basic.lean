import CodeAtlas.OrderedMap

/-!
Dependency graphs. Each node carries the list of the nodes it depends on, in the order in which
they are followed; a list may repeat a node, name the node itself, or name a node that the graph
does not hold.
-/

namespace CodeAtlas

abbrev Graph := OrderedMap String (List String)

namespace Graph

def dependencies (graph : Graph) (node : String) : List String :=
  graph.getD node []

def Edge (graph : Graph) (source target : String) : Prop :=
  target ∈ graph.dependencies source

instance (graph : Graph) (source target : String) : Decidable (graph.Edge source target) :=
  inferInstanceAs (Decidable (target ∈ graph.dependencies source))

def mentioned (graph : Graph) : List String :=
  graph.entries.flatMap fun entry => entry.1 :: entry.2

def sorted (names : List String) : List String :=
  names.mergeSort fun left right => decide (left ≤ right)

end Graph

end CodeAtlas
