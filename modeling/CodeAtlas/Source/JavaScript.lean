import CodeAtlas.Source.Tree
import CodeAtlas.Source.TypeComment

/-!
Components and relations of a JavaScript file. Classes, functions and functions bound to constants
are reported, in the order of their lines; methods are only known by name. The relations are
inheritance, calls, created objects and the types named in documentation comments.
-/

namespace CodeAtlas.Source.JavaScript

def moduleName (source : Source) : String :=
  source.modulePath [".js", ".ts", ".jsx", ".tsx", ".mjs", ".cjs"]

def componentId (source : Source) (name : String) : String := moduleName source ++ "." ++ name

def methodId (source : Source) (className name : String) : String :=
  componentId source (className ++ "." ++ name)

def classKinds : List String :=
  ["class_declaration", "abstract_class_declaration", "interface_declaration"]

def classNameNode? (tree : SyntaxTree) : Option SyntaxTree :=
  (tree.child? "type_identifier").or (tree.child? "identifier")

def functionValue? (declarator : SyntaxTree) : Option SyntaxTree :=
  (declarator.child? "arrow_function").or (declarator.child? "function_expression")

def boundFunction? (declarator : SyntaxTree) : Option (SyntaxTree × SyntaxTree) :=
  if declarator.kind == "variable_declarator" then
    match declarator.child? "identifier", functionValue? declarator with
    | some nameNode, some function => some (nameNode, function)
    | _, _ => none
  else none

def enclosingClass (source : Source) : List SyntaxTree → Except SourceError (Option String)
  | [] => return none
  | ancestor :: rest =>
    match (if classKinds.contains ancestor.kind then classNameNode? ancestor else none) with
    | some nameNode => some <$> source.textOf nameNode
    | none => enclosingClass source rest

/-! ## Declarations -/

structure Declared where
  key : String
  component : Component
  reported : Bool

def heritage (tree : SyntaxTree) : List SyntaxTree :=
  match tree.child? "class_heritage" with
  | some clause => clause.childrenOf ["identifier", "type_identifier"]
  | none => []

def classComponent (source : Source) (tree : SyntaxTree) :
    Except SourceError (Option Component) := do
  match classNameNode? tree with
  | none => return none
  | some nameNode =>
    let name ← source.textOf nameNode
    let bases ← (heritage tree).mapM source.textOf
    let kind :=
      match tree.kind with
      | "abstract_class_declaration" => "abstract class"
      | "interface_declaration" => "interface"
      | _ => "class"
    return some { source.component tree (componentId source name) name kind with
      baseClasses := if bases.isEmpty then none else some bases }

def parameters (source : Source) (tree : SyntaxTree) : Except SourceError (List String) :=
  match tree.child? "formal_parameters" with
  | some list => (list.childrenOf ["identifier"]).mapM source.textOf
  | none => return []

def functionComponent (source : Source) (lines : SyntaxTree) (name text display : String)
    (parameters : List String) : Component :=
  { source.component lines (componentId source name) name "function" with
    source := some text
    parameters := some parameters
    displayName := some (display ++ " " ++ name) }

def functionDisplay (name text : String) : String :=
  let async := Text.contains text "async function"
  let generator := Text.contains text "function*" || Text.contains name "*"
  if async && generator then "async generator"
  else if async then "async function"
  else if generator then "generator function"
  else "function"

def declaredFunction (source : Source) (tree : SyntaxTree) :
    Except SourceError (Option Component) := do
  match tree.child? "identifier" with
  | none => return none
  | some nameNode =>
    let name ← source.textOf nameNode
    let parameters ← parameters source tree
    let text ← source.textOf tree
    return some (functionComponent source tree name text (functionDisplay name text) parameters)

/-- The function of an export. A default export of an unnamed function is called default. -/
def exportedFunction (source : Source) (tree : SyntaxTree) :
    Except SourceError (Option Component) := do
  match tree.child? "function_declaration" with
  | none => return none
  | some function =>
    match (declaredFunction source function).toOption.join with
    | none => return none
    | some component =>
      let text ← source.textOf tree
      if Text.contains text "export default" && Text.contains text "function (" then
        return some { component with name := "default" }
      return some component

def boundFunction (source : Source) (tree : SyntaxTree) :
    Except SourceError (Option Component) := do
  let bound := tree.children.findSome? fun child =>
    (boundFunction? child).map fun found => (child, found)
  match bound with
  | none => return none
  | some (declarator, nameNode, function) =>
    let name ← source.textOf nameNode
    let parameters ← parameters source function
    let text ← source.textOf declarator
    return some (functionComponent source function name text "function" parameters)

def memberName? (tree : SyntaxTree) : Option SyntaxTree :=
  if tree.kind == "method_definition" || tree.kind == "field_definition" then
    tree.child? "property_identifier"
  else none

def holdsFunction (tree : SyntaxTree) : Bool :=
  tree.kind == "method_definition" || (tree.child? "arrow_function").isSome

def methodsOf (source : Source) (className : String) (tree : SyntaxTree) : Gathered Declared :=
  let members := (tree.child? "class_body").map (·.children) |>.getD []
  Gathered.all (fun item =>
    match memberName? item with
    | none => .nothing
    | some nameNode =>
      .needing (source.textOf nameNode) fun name =>
        if name ≠ "" && holdsFunction item then
          let id := methodId source className name
          .ofList [⟨id, source.component item id name "method" (some className), false⟩]
        else .nothing) members

/-- A component whose name does not decode is passed over. -/
def reported : Except SourceError (Option Component) → Gathered Declared
  | .ok (some component) => .ofList [⟨component.name, component, true⟩]
  | _ => .nothing

def unlessInClass (source : Source) (place : Place) (declared : Gathered Declared) :
    Gathered Declared :=
  .needing (enclosingClass source place.ancestors) fun owner =>
    if owner.isSome then .nothing else declared

def declarationsAt (source : Source) (place : Place) : Gathered Declared :=
  match place.kind with
  | "class_declaration" | "abstract_class_declaration" | "interface_declaration" =>
    match classComponent source place.tree with
    | .ok (some component) =>
      (reported (.ok (some component))).andThen
        (methodsOf source component.name place.tree)
    | _ => .nothing
  | "function_declaration" | "generator_function_declaration" =>
    unlessInClass source place (reported (declaredFunction source place.tree))
  | "export_statement" => reported (exportedFunction source place.tree)
  | "lexical_declaration" => unlessInClass source place (reported (boundFunction source place.tree))
  | _ => .nothing

def table (declared : List Declared) : Components :=
  .ofList (declared.map fun item => (item.key, item.component))

def reportedComponents (declared : List Declared) : List Component :=
  (declared.filter Declared.reported).map Declared.component

/-! ## Relations -/

/-- The component that is open below a node, given the one open above it. -/
def ownerBelow (source : Source) (above : Option String) (tree : SyntaxTree) :
    Except SourceError (Option String) := do
  let named (nameNode : Option SyntaxTree) := do
    return (← source.textOf? nameNode).or above
  match tree.kind with
  | "class_declaration" | "abstract_class_declaration" | "interface_declaration" =>
    named (classNameNode? tree)
  | "function_declaration" | "generator_function_declaration" => named (tree.child? "identifier")
  | "lexical_declaration" =>
    let names ← (tree.children.filterMap boundFunction?).mapM fun (nameNode, _) =>
      source.textOf nameNode
    return names.getLast?.or above
  | _ => return above

/-- The component that is open below the nearest of some nodes. -/
def ownerWithin (source : Source) : List SyntaxTree → Except SourceError (Option String)
  | [] => return none
  | ancestor :: rest => do ownerBelow source (← ownerWithin source rest) ancestor

def calleeName (source : Source) (tree : SyntaxTree) : Except SourceError (Option String) :=
  match tree.children with
  | [] => return none
  | callee :: _ =>
    match callee.kind with
    | "identifier" => some <$> source.textOf callee
    | "member_expression" =>
      match callee.child? "property_identifier" with
      | some property => some <$> source.textOf property
      | none =>
        source.textOf? ((callee.child? "computed_property_name").bind
          (·.child? "identifier"))
    | "super" => return some "super"
    | "this" => return some "this"
    | _ => return none

def classAround? (table : Components) (caller : String) : Option String :=
  (table.entries.find? fun entry =>
    entry.2.kind == "class" && Text.contains entry.1 caller).map fun entry => entry.2.name

/-- A call on the object itself of a method that its class declares. -/
def isOwnMethod (source : Source) (table : Components) (caller callee text : String) : Bool :=
  Text.containsAny text ["this.", "super."] &&
    match classAround? table caller with
    | some "" | none => false
    | some className => table.contains (methodId source className callee)

def callRelation (source : Source) (table : Components) (caller : String) (tree : SyntaxTree) :
    Except SourceError (List Relation) := do
  match ← calleeName source tree with
  | none | some "" => return []
  | some callee =>
    let text ← source.textOf tree
    if isOwnMethod source table caller callee text then return []
    return [source.relation tree (componentId source caller) (componentId source callee)
      (table.contains callee)]

/-- The types named in the comments at a node: the one right before it and those among its
children. -/
def commentRelations (source : Source) (caller : String) (place : Place) : Gathered Relation :=
  let comments := (place.previous.toList ++ place.tree.children).filter fun tree =>
    tree.kind == "comment"
  (Gathered.all (fun comment =>
    .needing (source.textOf comment) fun text =>
      .ofList ((TypeComment.types text).map fun used =>
        source.relation place.tree (componentId source caller) (componentId source used)))
    comments).forgiving

def inheritanceRelations (source : Source) (place : Place) : Gathered Relation :=
  match (if classKinds.contains place.kind then classNameNode? place.tree else none) with
  | none => .nothing
  | some nameNode =>
    .needing (source.textOf nameNode) fun name =>
      Gathered.all (fun base =>
        .needing (source.textOf base) fun base =>
          .ofList [source.relation place.tree (componentId source name)
            (componentId source base)]) (heritage place.tree)

def useRelations (source : Source) (table : Components) (owner : String) (place : Place) :
    Gathered Relation :=
  match place.kind with
  | "call_expression" => (Gathered.ofExcept (callRelation source table owner place.tree)).forgiving
  | "await_expression" =>
    match place.tree.child? "call_expression" with
    | some call => (Gathered.ofExcept (callRelation source table owner call)).forgiving
    | none => .nothing
  | "new_expression" =>
    .needing (calleeName source place.tree) fun callee =>
      match callee with
      | none | some "" => .nothing
      | some callee =>
        .ofList [source.relation place.tree (componentId source owner)
          (componentId source callee)]
  | _ => .nothing

def withName (name : Option String) (gather : String → Gathered Relation) : Gathered Relation :=
  match name with
  | none | some "" => .nothing
  | some name => gather name

def relationsAt (source : Source) (table : Components) (place : Place) : Gathered Relation :=
  .needing (ownerWithin source place.ancestors) fun above =>
    (withName above fun owner => commentRelations source owner place).andThen
      ((inheritanceRelations source place).andThen
        (.needing (ownerBelow source above place.tree) fun owner =>
          withName owner fun owner => useRelations source table owner place))

/-- Keeps the first of relations that agree in caller, callee and line. -/
def firstOfEach (seen : List (String × String × Option Int)) : List Relation → List Relation
  | [] => []
  | relation :: rest =>
    let key := (relation.caller, relation.callee, relation.line)
    if key ∈ seen then firstOfEach seen rest
    else relation :: firstOfEach (key :: seen) rest

/-- Without a tree nothing is found. When a name does not decode in the first pass, the components
found so far stay in the order of the text and no relations are looked for. -/
def analyze (source : Source) : Option SyntaxTree → Findings
  | none => ⟨[], []⟩
  | some tree =>
    let declared := Gathered.all (declarationsAt source) tree.places
    let components := reportedComponents declared.items
    if declared.complete then
      let relations := Gathered.all (relationsAt source (table declared.items)) tree.places
      ⟨components.mergeSort fun left right => decide (left.startLine ≤ right.startLine),
        firstOfEach [] relations.items⟩
    else ⟨components, []⟩

end CodeAtlas.Source.JavaScript
