import CodeAtlas.Graph.Cycle
import CodeAtlas.Text.Basic
import CodeAtlas.Text.Case

/-!
The components from which documentation starts. A candidate has a kind that can be a leaf and a
plausible identifier; when there are too many, those that another component depends on are left
out.
-/

namespace CodeAtlas.Graph

/-- Classes, interfaces and structs; where a code base has none of them, functions too. -/
def leafKinds (kinds : OrderedMap String String) : List String :=
  let usual := ["class", "interface", "struct"]
  if kinds.values.any (usual.contains ·) then usual else usual ++ ["function"]

/-- A blank identifier or one that reads like the text of an error is no component. -/
def isPlausibleId (id : String) : Bool :=
  Text.strip id ≠ "" &&
    !Text.containsAny (Text.lower id) ["error", "exception", "failed", "invalid"]

def isLeaf (kinds : OrderedMap String String) (id : String) : Bool :=
  isPlausibleId id &&
    match kinds.get? id with
    | some kind => (leafKinds kinds).contains kind
    | none => false

/-- From this many leaves on, the components that others depend on are left out. -/
def manyLeaves : Nat := 400

def leaves (graph : Graph) (kinds : OrderedMap String String) : List String :=
  let graph := graph.breakCycles
  let candidates := graph.keys.filter (isLeaf kinds)
  if candidates.length < manyLeaves then candidates
  else
    let free := graph.keys.filter fun node => graph.entries.all fun entry => node ∉ entry.2
    free.filter (isLeaf kinds)

end CodeAtlas.Graph
