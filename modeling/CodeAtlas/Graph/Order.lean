import CodeAtlas.Graph.Cycle

/-!
Two linear orders of the nodes of a dependency graph.

The layered order repeatedly takes a node with a count of zero, where the count starts as the
number of edges into the node and falls by one whenever a node that it depends on is taken; if that
does not reach every node, the order of insertion stands. The depth-first order lists a node after
everything it depends on.
-/

namespace CodeAtlas.Graph

/-! ## The layered order -/

def incoming (graph : Graph) (node : String) : Nat :=
  graph.entries.foldl (fun total entry => total + entry.2.count node) 0

structure Layering where
  counts : OrderedMap String Int
  queue : List String
  taken : List String

/-- Lowers the count of each node that depends on the taken one, in the order of the graph; a count
that becomes zero puts its node into the queue. -/
def Layering.release (graph : Graph) (taken : String) (layering : Layering) : Layering :=
  graph.entries.foldl (fun layering (dependent, dependencies) =>
    if taken ∈ dependencies then
      let count := layering.counts.getD dependent 0 - 1
      { layering with
        counts := layering.counts.insert dependent count
        queue := if count = 0 then layering.queue ++ [dependent] else layering.queue }
    else layering) layering

/-- Counts only fall, so a node enters the queue at most once and as many rounds as there are nodes
empty it. -/
def Layering.run (graph : Graph) : Nat → Layering → Layering
  | 0, layering => layering
  | rounds + 1, layering =>
    match layering.queue with
    | [] => layering
    | node :: queue =>
      Layering.run graph rounds
        (Layering.release graph node
          { layering with queue := queue, taken := layering.taken ++ [node] })

def layered (graph : Graph) : List String :=
  let graph := graph.breakCycles
  let counts := graph.mapValues fun node _ => (graph.incoming node : Int)
  let queue := graph.keys.filter fun node => graph.incoming node = 0
  let taken := (Layering.run graph graph.size ⟨counts, queue, []⟩).taken
  if taken.length ≠ graph.size then graph.keys else taken.reverse

/-! ## The depth-first order -/

structure Walk where
  visited : List String
  finished : List String

def Walk.start : Walk := ⟨[], []⟩

/-- Visits what a node depends on, in alphabetical order, and then lists the node. Each nested call
visits one more node, so a depth of the number of mentioned nodes is never used up. -/
def walk (graph : Graph) : Nat → Walk → String → Walk
  | 0, state, _ => state
  | depth + 1, state, node =>
    if node ∈ state.visited then state
    else
      let state : Walk := { state with visited := node :: state.visited }
      let state := (sorted (graph.dependencies node)).foldl (walk graph depth) state
      { state with finished := state.finished ++ [node] }

/-- The nodes that no node depends on; if there is none, the first node alone. -/
def roots (graph : Graph) : List String :=
  let free := graph.keys.filter fun node => graph.entries.all fun entry => node ∉ entry.2
  if free.isEmpty then graph.keys.take 1 else free

def depthFirst (graph : Graph) : List String :=
  let graph := graph.breakCycles
  let depth := graph.mentioned.length + 1
  let state := (sorted graph.roots).foldl (walk graph depth) Walk.start
  let state :=
    if state.finished.length ≠ graph.size then (sorted graph.keys).foldl (walk graph depth) state
    else state
  state.finished

end CodeAtlas.Graph
