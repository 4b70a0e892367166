import CodeAtlas.Component
import CodeAtlas.Path

/-!
Source files and their concrete syntax trees. A tree node covers a range of bytes of the text; its
text may fail to decode, since a range can end inside a character. The places of a tree are its
nodes in the order in which they are met from left to right, parents before children, each with
the nodes above it.
-/

namespace CodeAtlas

inductive SyntaxTree where
  | node (kind : String) (start stop : Nat) (children : List SyntaxTree)
deriving Inhabited

namespace SyntaxTree

mutual

/-- Reads a tree: a list of kind, first byte, end and children. -/
def ofJson : Json → SyntaxTree
  | .list (kind :: start :: stop :: .list children :: _) =>
    .node kind.asText start.asInt.toNat stop.asInt.toNat (ofJsons children)
  | .list (kind :: start :: stop :: _) =>
    .node kind.asText start.asInt.toNat stop.asInt.toNat []
  | _ => .node "" 0 0 []

def ofJsons : List Json → List SyntaxTree
  | [] => []
  | value :: rest => ofJson value :: ofJsons rest

end

def kind : SyntaxTree → String
  | .node kind _ _ _ => kind

def start : SyntaxTree → Nat
  | .node _ start _ _ => start

def stop : SyntaxTree → Nat
  | .node _ _ stop _ => stop

def children : SyntaxTree → List SyntaxTree
  | .node _ _ _ children => children

def child? (tree : SyntaxTree) (kind : String) : Option SyntaxTree :=
  tree.children.find? fun child => child.kind == kind

def childOf? (tree : SyntaxTree) (kinds : List String) : Option SyntaxTree :=
  tree.children.find? fun child => kinds.contains child.kind

def childrenOf (tree : SyntaxTree) (kinds : List String) : List SyntaxTree :=
  tree.children.filter fun child => kinds.contains child.kind

end SyntaxTree

/-- A node of a tree with the nodes above it, nearest first, and the child before it under the
same parent. -/
structure Place where
  tree : SyntaxTree
  ancestors : List SyntaxTree
  previous : Option SyntaxTree

namespace Place

def kind (place : Place) : String := place.tree.kind

def parent? (place : Place) : Option SyntaxTree := place.ancestors.head?

mutual

def allBelow (ancestors : List SyntaxTree) (previous : Option SyntaxTree) :
    SyntaxTree → List Place
  | .node kind start stop children =>
    let tree := SyntaxTree.node kind start stop children
    ⟨tree, ancestors, previous⟩ :: allOf (tree :: ancestors) none children

def allOf (ancestors : List SyntaxTree) (previous : Option SyntaxTree) :
    List SyntaxTree → List Place
  | [] => []
  | tree :: rest => allBelow ancestors previous tree ++ allOf ancestors (some tree) rest

end

end Place

def SyntaxTree.places (tree : SyntaxTree) : List Place :=
  Place.allBelow [] none tree

/-- The text of a node is not whole characters. -/
inductive SourceError where
  | undecodable
deriving DecidableEq, Repr

structure Source where
  path : String
  repository : String
  text : String

namespace Source

def bytes (source : Source) : ByteArray := source.text.toUTF8

def textOf (source : Source) (tree : SyntaxTree) : Except SourceError String :=
  match String.fromUTF8? (source.bytes.extract tree.start tree.stop) with
  | some text => .ok text
  | none => .error .undecodable

def textOf? (source : Source) : Option SyntaxTree → Except SourceError (Option String)
  | none => .ok none
  | some tree => some <$> source.textOf tree

def row (source : Source) (offset : Nat) : Nat :=
  (source.bytes.toList.take offset).count 10

def startRow (source : Source) (tree : SyntaxTree) : Nat := source.row tree.start

def endRow (source : Source) (tree : SyntaxTree) : Nat := source.row tree.stop

def startLine (source : Source) (tree : SyntaxTree) : Nat := source.startRow tree + 1

def endLine (source : Source) (tree : SyntaxTree) : Nat := source.endRow tree + 1

def excerpt (source : Source) (first last : Nat) : String :=
  Text.join "\n" (((Text.lines source.text).drop first).take (last + 1 - first))

def relativePath (source : Source) : String :=
  if source.repository == "" then source.path else Path.relative source.path source.repository

/-- The dotted path of the file, without the first of some endings that it has. -/
def modulePath (source : Source) (endings : List String) : String :=
  let path := source.relativePath
  let stem := (endings.findSome? fun ending => Text.dropEnding? path ending).getD path
  Text.replace (Text.replace stem "/" ".") "\\" "."

def component (source : Source) (tree : SyntaxTree) (id name kind : String)
    (className : Option String := none) : Component :=
  { id := id
    name := name
    kind := kind
    filePath := source.path
    relativePath := source.relativePath
    source := some (source.excerpt (source.startRow tree) (source.endRow tree))
    startLine := source.startLine tree
    endLine := source.endLine tree
    nodeKind := some kind
    className := className
    displayName := some (kind ++ " " ++ name)
    componentId := some id }

def relation (source : Source) (tree : SyntaxTree) (caller callee : String)
    (resolved : Bool := false) : Relation :=
  ⟨caller, callee, some (source.startLine tree), resolved⟩

end Source

structure Findings where
  components : List Component
  relations : List Relation

def Findings.toJson (findings : Findings) : Json :=
  .object [("nodes", .list (findings.components.map Component.toJson)),
    ("relationships", .list (findings.relations.map Relation.toJson))]

/-- The declarations met in a file: the components to report, in order, and a table of names. -/
structure Outline where
  components : List Component
  table : Components

def Outline.empty : Outline := ⟨[], .empty⟩

def Outline.collect (declare : Outline → Place → Except SourceError Outline) (tree : SyntaxTree) :
    Except SourceError Outline :=
  tree.places.foldlM declare .empty

def collectRelations (relate : Place → Except SourceError (List Relation)) (tree : SyntaxTree) :
    Except SourceError (List Relation) :=
  List.flatten <$> tree.places.mapM relate

/-!
Items gathered until a failure. What was found before a node that does not decode is kept; whether
the gathering reached its end is known.
-/

structure Gathered (α : Type) where
  items : List α
  complete : Bool

namespace Gathered

variable {α β : Type}

def nothing : Gathered α := ⟨[], true⟩

def ofList (items : List α) : Gathered α := ⟨items, true⟩

def ofExcept : Except SourceError (List α) → Gathered α
  | .ok items => ⟨items, true⟩
  | .error _ => ⟨[], false⟩

/-- Continues with a second gathering if the first one is complete. -/
def andThen (first second : Gathered α) : Gathered α :=
  if first.complete then ⟨first.items ++ second.items, second.complete⟩ else first

def all (gather : β → Gathered α) : List β → Gathered α
  | [] => nothing
  | item :: rest => (gather item).andThen (all gather rest)

def needing (value : Except SourceError β) (continue_ : β → Gathered α) : Gathered α :=
  match value with
  | .ok value => continue_ value
  | .error _ => ⟨[], false⟩

/-- Keeps what was gathered and forgets a failure. -/
def forgiving (gathered : Gathered α) : Gathered α :=
  { gathered with complete := true }

end Gathered

end CodeAtlas
