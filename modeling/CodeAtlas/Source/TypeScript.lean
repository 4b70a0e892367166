import CodeAtlas.Source.Tree
import CodeAtlas.Text.Case

/-!
Components and relations of a TypeScript file. First every named entity at every depth is entered
into one table, where a later entity replaces an earlier one of the same name; then those that stand
at the top of the file and are no variables are reported. The relations of a reported component are
its calls, created objects, member accesses, types and base types.
-/

namespace CodeAtlas.Source.TypeScript

def moduleName (source : Source) : String :=
  source.modulePath [".ts", ".tsx", ".js", ".jsx", ".mjs", ".cjs"]

def componentId (source : Source) (name : String) : String := moduleName source ++ "." ++ name

/-! ## Entities -/

structure Entity where
  name : String
  kind : String
  form : String
  text : String
  display : String
  first : Nat
  last : Nat
  parameters : List String := []
  baseClasses : Option (List String) := none
  place : Place

/-- A surrounding declaration is entered by name only and is never reported. -/
def ambientForm : String := "ambient_declaration"

abbrev Entities := OrderedMap String Entity

def typeNameNode? (tree : SyntaxTree) : Option SyntaxTree :=
  (tree.child? "type_identifier").or (tree.child? "identifier")

def holdsFunction (declarator : SyntaxTree) : Bool :=
  ((declarator.child? "arrow_function").or (declarator.child? "function_expression")).isSome

def parameterNode? (tree : SyntaxTree) : Option SyntaxTree :=
  match tree.kind with
  | "identifier" => some tree
  | "required_parameter" | "optional_parameter" => tree.child? "identifier"
  | _ => none

def parameters (source : Source) (tree : SyntaxTree) : Except SourceError (List String) :=
  match tree.child? "formal_parameters" with
  | some list => (list.children.filterMap parameterNode?).mapM source.textOf
  | none => return []

def baseNodes (tree : SyntaxTree) : List SyntaxTree :=
  ["extends_clause", "implements_clause"].flatMap fun clause =>
    match tree.child? clause with
    | some clause => clause.childrenOf ["identifier", "type_identifier"]
    | none => []

def baseNames (source : Source) (tree : SyntaxTree) : Except SourceError (List String) :=
  (baseNodes tree).mapM source.textOf

def entity (source : Source) (place : Place) (name kind form text display : String) : Entity :=
  { name, kind, form, text, display
    first := source.startLine place.tree
    last := source.endLine place.tree
    place }

/-- The text before the first occurrence of a mark holds a word; without the mark it counts as
absent. -/
def holdsBefore (word mark text : String) : Bool :=
  match Text.cut? text mark with
  | some (before, _) => Text.contains before word
  | none => false

def functionEntity (source : Source) (form : String) (place : Place) :
    Except SourceError (Option Entity) := do
  match place.tree.child? "identifier" with
  | none => return none
  | some nameNode =>
    let name ← source.textOf nameNode
    let parameters ← parameters source place.tree
    let text ← source.textOf place.tree
    let async := if holdsBefore "async" "function" text then "async " else ""
    return some { entity source place name "function" form text
      (async ++ form ++ " " ++ name) with parameters }

/-- A function bound by a declarator takes its name and text from the declarator. -/
def arrowEntity (source : Source) (place : Place) : Except SourceError (Option Entity) := do
  let declarator := place.parent?.filter fun parent => parent.kind == "variable_declarator"
  match declarator, declarator.bind (·.child? "identifier") with
  | some declarator, some nameNode =>
    let name ← source.textOf nameNode
    let parameters ← parameters source place.tree
    let text ← source.textOf declarator
    let async := if holdsBefore "async" "=" text then "async " else ""
    return some { entity source place name "function" "arrow_function" text
      (async ++ "arrow function " ++ name) with parameters }
  | _, _ => return none

def methodEntity (source : Source) (place : Place) : Except SourceError (Option Entity) := do
  match place.tree.child? "property_identifier" with
  | none => return none
  | some nameNode =>
    let name ← source.textOf nameNode
    let parameters ← parameters source place.tree
    let text ← source.textOf place.tree
    let static := if Text.contains text "static" then "static " else ""
    let async := if Text.contains text "async" then "async " else ""
    return some { entity source place name "function" "method" text
      (static ++ async ++ "method " ++ name) with parameters }

/-- A class or interface; its display names its bases. -/
def typeEntity (source : Source) (kind form : String) (nameNode : Option SyntaxTree)
    (place : Place) : Except SourceError (Option Entity) := do
  match nameNode with
  | none => return none
  | some nameNode =>
    let name ← source.textOf nameNode
    let bases ← baseNames source place.tree
    let text ← source.textOf place.tree
    let extending := if bases.isEmpty then "" else " extends " ++ Text.join ", " bases
    return some { entity source place name kind form text
      (form ++ " " ++ name ++ extending) with baseClasses := some bases }

def plainEntity (source : Source) (kind form word : String) (nameNode : Option SyntaxTree)
    (place : Place) : Except SourceError (Option Entity) := do
  match nameNode with
  | none => return none
  | some nameNode =>
    let name ← source.textOf nameNode
    let text ← source.textOf place.tree
    return some (entity source place name kind form text (word ++ " " ++ name))

def firstDeclarator? (tree : SyntaxTree) : Option SyntaxTree := tree.child? "variable_declarator"

def declaratorName? (tree : SyntaxTree) : Option SyntaxTree :=
  (firstDeclarator? tree).bind (·.child? "identifier")

def lexicalEntity (source : Source) (place : Place) : Except SourceError (Option Entity) := do
  match declaratorName? place.tree with
  | none => return none
  | some nameNode =>
    let name ← source.textOf nameNode
    let text ← source.textOf place.tree
    let word := if Text.contains text "const" then "const" else "let"
    return some (entity source place name "variable" (word ++ "_declaration") text
      (word ++ " " ++ name))

/-- The declaration inside an export, if it has one of the kinds looked for. -/
def exportedEntity (source : Source) (text : String) (place : Place) :
    Except SourceError (Option Entity) := do
  let tree := place.tree
  match tree.child? "function_declaration" with
  | some function =>
    match function.child? "identifier" with
    | none => return none
    | some nameNode =>
      let name ← source.textOf nameNode
      let parameters ← parameters source function
      return some { entity source place name "function" "export_function" text
        ("export function " ++ name) with parameters }
  | none =>
  match tree.child? "class_declaration" with
  | some declaration =>
    match declaration.child? "type_identifier" with
    | none => return none
    | some nameNode =>
      let name ← source.textOf nameNode
      let bases ← baseNames source declaration
      return some { entity source place name "class" "export_class" text
        ("export class " ++ name) with baseClasses := some bases }
  | none =>
  match tree.child? "interface_declaration" with
  | some declaration =>
    match declaration.child? "type_identifier" with
    | none => return none
    | some nameNode =>
      let name ← source.textOf nameNode
      let bases ← baseNames source declaration
      return some { entity source place name "interface" "export_interface" text
        ("export interface " ++ name) with baseClasses := some bases }
  | none =>
  match (tree.child? "lexical_declaration").bind firstDeclarator? with
  | none => return none
  | some declarator =>
    match declarator.child? "identifier",
        (declarator.child? "arrow_function").or (declarator.child? "function_expression") with
    | some nameNode, some function =>
      let name ← source.textOf nameNode
      let parameters ← parameters source function
      return some { entity source place name "function" "export_arrow_function" text
        ("export const " ++ name) with parameters }
    | _, _ => return none

/-- The default export of a call is named after what is called. -/
def defaultCallEntity (source : Source) (text : String) (place : Place) :
    Except SourceError (Option Entity) := do
  let call := (place.tree.childrenOf ["call_expression"]).getLast?
  match place.tree.child? "default", call.bind (·.children.head?) with
  | some _, some callee =>
    let name ← source.textOf callee
    return some (entity source place name "function" "export_default_call" text
      ("export default " ++ name ++ "(...)"))
  | _, _ => return none

def exportEntity (source : Source) (place : Place) : Except SourceError (Option Entity) := do
  let text ← source.textOf place.tree
  match ← exportedEntity source text place with
  | some found => return some found
  | none => defaultCallEntity source text place

def ambientName (source : Source) : List SyntaxTree → Except SourceError String
  | [] => return ""
  | child :: rest =>
    match child.kind with
    | "module" =>
      match child.child? "string" with
      | some string => return Text.stripChars (← source.textOf string) ['\'', '"']
      | none => return ""
    | "namespace" =>
      match child.children with
      | _ :: second :: _ => source.textOf second
      | _ => return "unknown_namespace"
    | _ => ambientName source rest

def ambientEntity (source : Source) (place : Place) : Except SourceError (Option Entity) := do
  let name ← ambientName source place.tree.children
  return some (entity source place name ambientForm ambientForm "" "")

def entityAt (source : Source) (place : Place) : Except SourceError (Option Entity) :=
  match place.kind with
  | "function_declaration" => functionEntity source "function" place
  | "generator_function_declaration" => functionEntity source "generator_function" place
  | "arrow_function" => arrowEntity source place
  | "method_definition" => methodEntity source place
  | "class_declaration" => typeEntity source "class" "class" (typeNameNode? place.tree) place
  | "abstract_class_declaration" =>
    typeEntity source "class" "abstract_class" (typeNameNode? place.tree) place
  | "interface_declaration" =>
    typeEntity source "interface" "interface" (place.tree.child? "type_identifier") place
  | "type_alias_declaration" =>
    plainEntity source "type" "type_alias" "type" (place.tree.child? "type_identifier") place
  | "enum_declaration" =>
    plainEntity source "enum" "enum" "enum" (place.tree.child? "identifier") place
  | "variable_declarator" =>
    plainEntity source "variable" "variable" "variable" (place.tree.child? "identifier") place
  | "export_statement" => exportEntity source place
  | "lexical_declaration" => lexicalEntity source place
  | "variable_declaration" =>
    plainEntity source "variable" "var_declaration" "var" (declaratorName? place.tree) place
  | "ambient_declaration" => ambientEntity source place
  | _ => return none

def enter (source : Source) (entities : Entities) (place : Place) :
    Except SourceError Entities := do
  match ← entityAt source place with
  | none => return entities
  | some found => return if found.name == "" then entities else entities.insert found.name found

/-! ## What stands at the top -/

def functionKinds : List String :=
  ["function_declaration", "generator_function_declaration", "arrow_function",
    "function_expression", "method_definition"]

/-- Whether a block among some nodes, nearest first, is the body of a function. -/
def insideFunction : List SyntaxTree → Bool
  | inner :: outer :: rest =>
    (inner.kind == "statement_block" && functionKinds.contains outer.kind) ||
      insideFunction (outer :: rest)
  | _ => false

def topKinds : List String := ["program", "export_statement", "ambient_declaration", "module"]

/-- A place stands at the top if it is the root, or below a top node and in no function body. -/
def isTop (place : Place) : Bool :=
  place.ancestors.isEmpty ||
    (!insideFunction place.ancestors &&
      place.ancestors.any fun ancestor => topKinds.contains ancestor.kind)

def isReported (found : Entity) : Bool :=
  isTop found.place && found.form ≠ ambientForm && found.kind ≠ "variable" &&
    !(["constructor", "__proto__", "prototype"].contains (Text.lower found.name))

def Entity.component (source : Source) (found : Entity) : Component :=
  let id := componentId source found.name
  { id := id
    name := found.name
    kind := found.kind
    filePath := source.path
    relativePath := source.relativePath
    source := some found.text
    startLine := found.first
    endLine := found.last
    parameters := some found.parameters
    nodeKind := some found.form
    baseClasses := found.baseClasses
    displayName := some found.display
    componentId := some id }

def reportedEntities (entities : Entities) : List Entity :=
  entities.values.filter isReported

/-! ## Relations -/

structure Context where
  source : Source
  entities : Entities
  reported : List String

def Context.knows (context : Context) (name : String) : Bool := context.reported.contains name

def opensTop : List String :=
  ["function_declaration", "generator_function_declaration", "class_declaration",
    "abstract_class_declaration", "interface_declaration", "type_alias_declaration",
    "enum_declaration", "export_statement"]

def exportName (source : Source) (tree : SyntaxTree) : Except SourceError (Option String) := do
  if (tree.child? "default").isSome then
    match (tree.child? "call_expression").bind (·.child? "identifier") with
    | some called => return some (← source.textOf called)
    | none => return some "default_export"
  match tree.child? "function_declaration" with
  | some function => source.textOf? (function.child? "identifier")
  | none =>
  match tree.child? "class_declaration" with
  | some declaration => source.textOf? (declaration.child? "type_identifier")
  | none =>
  match tree.child? "lexical_declaration" with
  | some declaration => source.textOf? (declaratorName? declaration)
  | none => return some "unnamed_export"

def declaredName (source : Source) (tree : SyntaxTree) : Except SourceError (Option String) :=
  match tree.kind with
  | "function_declaration" | "generator_function_declaration" | "enum_declaration" =>
    source.textOf? (tree.child? "identifier")
  | "class_declaration" | "abstract_class_declaration" | "interface_declaration"
  | "type_alias_declaration" => source.textOf? (typeNameNode? tree)
  | "export_statement" => exportName source tree
  | "lexical_declaration" | "variable_declaration" => source.textOf? (declaratorName? tree)
  | _ => return none

/-- The reported component that is open at a node, given the one open above it. -/
def ownerAt (context : Context) (above : Option String) (tree : SyntaxTree) :
    Except SourceError (Option String) := do
  if above.isNone || opensTop.contains tree.kind then
    match ← declaredName context.source tree with
    | none => return above
    | some name => return if context.knows name then some name else above
  return above

def ownerWithin (context : Context) : List SyntaxTree → Except SourceError (Option String)
  | [] => return none
  | ancestor :: rest => do ownerAt context (← ownerWithin context rest) ancestor

def relate (context : Context) (tree : SyntaxTree) (caller callee : String) : Relation :=
  context.source.relation tree (componentId context.source caller)
    (componentId context.source callee)

def calleeName (source : Source) (tree : SyntaxTree) : Except SourceError (Option String) :=
  match tree.children with
  | callee :: _ =>
    if callee.kind == "identifier" || callee.kind == "member_expression" then
      some <$> source.textOf callee
    else return none
  | [] => return none

/-- A call on the object itself of a method whose name is part of the class name. -/
def isOwnMethod (context : Context) (caller callee text : String) : Bool :=
  Text.containsAny text ["this.", "super."] &&
    match context.entities.entries.find? fun entry =>
      entry.2.kind == "class" && Text.contains entry.1 caller with
    | none => false
    | some (className, _) =>
      match context.entities.get? callee with
      | some found => found.form == "method" && Text.contains className callee
      | none => false

/-- A callee is worth a relation if it is reported, unknown, or stands at the top. -/
def isCallable (context : Context) (callee : String) : Bool :=
  context.knows callee ||
    match context.entities.get? callee with
    | some found => isTop found.place
    | none => true

def callRelations (context : Context) (owner : String) (tree : SyntaxTree) :
    Except SourceError (List Relation) := do
  match ← calleeName context.source tree with
  | none | some "" => return []
  | some callee =>
    let text ← context.source.textOf tree
    if isOwnMethod context owner callee text then return []
    return if isCallable context callee then [relate context tree owner callee] else []

def creationRelations (context : Context) (owner : String) (tree : SyntaxTree) :
    Except SourceError (List Relation) := do
  let created := tree.children.find? fun child =>
    !(["new", "type_arguments", "arguments"].contains child.kind)
  match ← context.source.textOf? created with
  | none | some "" => return []
  | some name => return [relate context tree owner name]

def memberRelations (context : Context) (owner : String) (tree : SyntaxTree) :
    Except SourceError (List Relation) := do
  match ← context.source.textOf? (tree.child? "property_identifier") with
  | none | some "" => return []
  | some name => return [relate context tree owner name]

def typeIdentifiers (tree : SyntaxTree) : List SyntaxTree :=
  (tree.places.map Place.tree).filter fun part => part.kind == "type_identifier"

def builtinTypes : List String :=
  ["string", "number", "boolean", "object", "undefined", "null", "void", "never", "any", "unknown"]

/-- The relations to named types; unknown names count only where the place allows them. -/
def typeRelations (context : Context) (owner : String) (tree : SyntaxTree) (unknown : Bool)
    (names : List SyntaxTree) : Gathered Relation :=
  Gathered.all (fun nameNode =>
    .needing (context.source.textOf nameNode) fun name =>
      if unknown && builtinTypes.contains name then .nothing
      else
        let related :=
          if context.entities.contains name then context.knows name else unknown
        .ofList (if related then [relate context tree owner name] else [])) names

def useRelations (context : Context) (owner : String) (tree : SyntaxTree) : Gathered Relation :=
  match tree.kind with
  | "call_expression" => .ofExcept (callRelations context owner tree)
  | "new_expression" => .ofExcept (creationRelations context owner tree)
  | "member_expression" => .ofExcept (memberRelations context owner tree)
  | "type_annotation" => typeRelations context owner tree true (typeIdentifiers tree)
  | "type_arguments" =>
    typeRelations context owner tree false (tree.childrenOf ["type_identifier"])
  | "extends_clause" | "implements_clause" =>
    typeRelations context owner tree false
      (tree.childrenOf ["identifier", "type_identifier"])
  | _ => .nothing

def relationsAt (context : Context) (place : Place) : Gathered Relation :=
  .needing (ownerWithin context (place.tree :: place.ancestors)) fun owner =>
    match owner with
    | none | some "" => .nothing
    | some owner => (useRelations context owner place.tree).forgiving

/-- Without a tree, or if the name of an entity does not decode, nothing is found. -/
def analyze (source : Source) : Option SyntaxTree → Findings
  | none => ⟨[], []⟩
  | some tree =>
    match tree.places.foldlM (enter source) .empty with
    | .error _ => ⟨[], []⟩
    | .ok entities =>
      let reported := reportedEntities entities
      let context : Context := ⟨source, entities, reported.map Entity.name⟩
      ⟨reported.map (Entity.component source),
        (Gathered.all (relationsAt context) tree.places).items⟩

end CodeAtlas.Source.TypeScript
