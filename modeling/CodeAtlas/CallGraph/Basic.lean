import CodeAtlas.Component
import CodeAtlas.Path
import CodeAtlas.Text.Case

/-!
The call graph of a code base: the components found in its files under their identifiers, and the
calls between them.
-/

namespace CodeAtlas

structure CallGraph where
  functions : Components
  relations : List Relation

namespace CallGraph

def toJson (graph : CallGraph) : Json :=
  .object [("functions", .ofStrings graph.functions.keys),
    ("relationships", .list (graph.relations.map Relation.toJson))]

def empty : CallGraph := ⟨.empty, []⟩

/-! ## Resolution -/

def lastSegment (name : String) : String :=
  ((Text.split name ".").getLast?).getD name

/-- Enters one component into the table of names. Its key, name and component identifier overwrite
what was there; the last segment of the identifier is entered only if it is new. -/
def enterNames (table : OrderedMap String String) (key : String) (component : Component) :
    OrderedMap String String :=
  let table := (table.insert key key).insert component.name key
  match component.componentId with
  | none => table
  | some "" => table
  | some id =>
    let table := table.insert id key
    let segment := lastSegment id
    if table.contains segment then table else table.insert segment key

def nameTable (functions : Components) : OrderedMap String String :=
  functions.entries.foldl (fun table entry => enterNames table entry.1 entry.2) .empty

/-- A callee is looked up as it stands and, if it has a dot, by its last segment. -/
def lookupCallee (table : OrderedMap String String) (callee : String) : Option String :=
  match table.get? callee with
  | some key => some key
  | none => if Text.contains callee "." then table.get? (lastSegment callee) else none

def resolveRelation (table : OrderedMap String String) (relation : Relation) : Relation :=
  match lookupCallee table relation.callee with
  | some key => { relation with callee := key, resolved := true }
  | none => relation

def resolve (graph : CallGraph) : CallGraph :=
  { graph with relations := graph.relations.map (resolveRelation (nameTable graph.functions)) }

/-! ## Repeated calls -/

def firstOfPairs (seen : List (String × String)) : List Relation → List Relation
  | [] => []
  | relation :: rest =>
    let pair := (relation.caller, relation.callee)
    if pair ∈ seen then firstOfPairs seen rest
    else relation :: firstOfPairs (pair :: seen) rest

def deduplicate (graph : CallGraph) : CallGraph :=
  { graph with relations := firstOfPairs [] graph.relations }

/-! ## The most connected components -/

/-- The distinct components that a relation joins to a component, the component itself included if
it calls itself. -/
def neighbours (graph : CallGraph) (id : String) : List String :=
  (graph.relations.flatMap fun relation =>
    if graph.functions.contains relation.caller && graph.functions.contains relation.callee then
      (if relation.caller = id then [relation.callee] else []) ++
        (if relation.callee = id then [relation.caller] else [])
    else []).eraseDups

/-- The first items of a list; a negative count leaves so many out at the end. -/
def takeSigned {α : Type} (count : Int) (items : List α) : List α :=
  match count with
  | .ofNat count => items.take count
  | .negSucc dropped => items.take (items.length - (dropped + 1))

def keepFunctions (graph : CallGraph) (kept : List String) : Components :=
  graph.functions.filter fun id _ => kept.contains id

/-- Keeps the given number of components, those with the most neighbours first and earlier ones
before later ones; without any relation the first components are kept. -/
def selectMostConnected (count : Int) (graph : CallGraph) : CallGraph :=
  if (graph.functions.size : Int) ≤ count then graph
  else if graph.relations.isEmpty then
    { graph with functions := graph.keepFunctions (takeSigned count graph.functions.keys) }
  else
    let degrees := graph.functions.keys.map fun id => (id, (graph.neighbours id).length)
    let ranked := degrees.mergeSort fun left right => decide (right.2 ≤ left.2)
    let kept := takeSigned count (ranked.map Prod.fst)
    { functions := graph.keepFunctions kept
      relations := graph.relations.filter fun relation =>
        kept.contains relation.caller && kept.contains relation.callee }

end CallGraph

end CodeAtlas
