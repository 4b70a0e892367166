import CodeAtlas.Graph.Basic

/-!
The strongly connected components of a dependency graph that have at least two nodes, found by one
depth-first search. Nodes are numbered in the order of discovery; the link of a node is the least
number known to be reachable from it within the component under construction; a node whose link is
its own number closes a component, which is then on top of the stack.
-/

namespace CodeAtlas.Graph

structure Search where
  number : OrderedMap String Nat
  link : OrderedMap String Nat
  stack : List String
  components : List (List String)

namespace Search

def start : Search := ⟨.empty, .empty, [], []⟩

def isDiscovered (search : Search) (node : String) : Bool :=
  search.number.contains node

/-- A discovered node gets the next number and goes on the stack. -/
def discover (search : Search) (node : String) : Search :=
  let next := search.number.size
  { search with
    number := search.number.insert node next
    link := search.link.insert node next
    stack := node :: search.stack }

def lower (search : Search) (node : String) (reachable : Nat) : Search :=
  { search with link := search.link.insert node (min (search.link.getD node 0) reachable) }

def popThrough (node : String) : List String → List String × List String
  | [] => ([], [])
  | top :: rest =>
    if top = node then ([top], rest)
    else
      let (popped, below) := popThrough node rest
      (top :: popped, below)

/-- Takes the component that a node closes off the stack; one of a single node is not reported. -/
def close (search : Search) (node : String) : Search :=
  let (component, below) := popThrough node search.stack
  { search with
    stack := below
    components :=
      if component.length > 1 then search.components ++ [component] else search.components }

def closeIfRoot (search : Search) (node : String) : Search :=
  if search.link.getD node 0 = search.number.getD node 0 then search.close node else search

end Search

/-- Explores everything reachable from an undiscovered node. Each nested call discovers one more
node, so a depth of the number of mentioned nodes is never used up. -/
def explore (graph : Graph) : Nat → String → Search → Search
  | 0, _, search => search
  | depth + 1, node, search =>
    let follow := fun (search : Search) (successor : String) =>
      if search.isDiscovered successor then
        if successor ∈ search.stack then
          search.lower node (search.number.getD successor 0)
        else search
      else
        let search := explore graph depth successor search
        search.lower node (search.link.getD successor 0)
    ((graph.dependencies node).foldl follow (search.discover node)).closeIfRoot node

def exploreAll (graph : Graph) : Search :=
  graph.keys.foldl (fun search node =>
    if search.isDiscovered node then search
    else explore graph (graph.mentioned.length + 1) node search) Search.start

def cycles (graph : Graph) : List (List String) :=
  (exploreAll graph).components

/-! ## Breaking cycles -/

/-- Along a list of nodes, removes the first edge from a node to the next one in the list. -/
def cutAlong (graph : Graph) : List String → Graph
  | current :: next :: rest =>
    if next ∈ graph.dependencies current then
      graph.modify current fun dependencies => dependencies.erase next
    else cutAlong graph (next :: rest)
  | _ => graph

/-- The graph with at most one edge of each cycle component removed. -/
def breakCycles (graph : Graph) : Graph :=
  graph.cycles.foldl cutAlong graph

end CodeAtlas.Graph
