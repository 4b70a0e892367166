import CodeAtlas.Source.Tree

/-!
Components and relations of a Java file. A method is named after its class; relations are
inheritance, implemented interfaces, types of fields, calls on objects and created objects.
-/

namespace CodeAtlas.Source.Java

def componentId (source : Source) (name : String) : String :=
  source.modulePath [".java"] ++ "." ++ name

def identifier (source : Source) (tree : SyntaxTree) : Except SourceError (Option String) :=
  source.textOf? (tree.child? "identifier")

def namedTypeKinds : List String :=
  ["class_declaration", "interface_declaration", "enum_declaration", "record_declaration"]

def enclosingTypeName (source : Source) : List SyntaxTree → Except SourceError (Option String)
  | [] => return none
  | ancestor :: rest =>
    match (if namedTypeKinds.contains ancestor.kind then ancestor.child? "identifier" else none)
    with
    | some nameNode => some <$> source.textOf nameNode
    | none => enclosingTypeName source rest

/-- Whether some modifier reads as a given word; later modifiers are not looked at. -/
def hasModifier (source : Source) (word : String) : List SyntaxTree → Except SourceError Bool
  | [] => return false
  | child :: rest => do
    if child.kind == "modifier" then
      if (← source.textOf child) == word then return true
    hasModifier source word rest

def declaration (source : Source) (place : Place) :
    Except SourceError (Option (String × String)) := do
  let named (kind : String) := do
    return (← identifier source place.tree).map (kind, ·)
  match place.kind with
  | "class_declaration" =>
    let abstract ← hasModifier source "abstract" place.tree.children
    named (if abstract then "abstract class" else "class")
  | "interface_declaration" => named "interface"
  | "enum_declaration" => named "enum"
  | "record_declaration" => named "record"
  | "annotation_type_declaration" => named "annotation"
  | "method_declaration" =>
    match ← identifier source place.tree with
    | none => return none
    | some name =>
      match ← enclosingTypeName source place.ancestors with
      | none | some "" => return some ("method", name)
      | some owner => return some ("method", owner ++ "." ++ name)
  | _ => return none

def declare (source : Source) (outline : Outline) (place : Place) :
    Except SourceError Outline := do
  match ← declaration source place with
  | none | some (_, "") => return outline
  | some (kind, name) =>
    let component := source.component place.tree (componentId source name) name kind
    return ⟨outline.components ++ [component], outline.table.insert name component⟩

def primitiveTypes : List String :=
  ["boolean", "byte", "char", "double", "float", "int", "long", "short", "Boolean", "Byte",
    "Character", "Double", "Float", "Integer", "Long", "Short", "String", "Object", "List", "Set",
    "Map", "Collection", "Optional", "void", "Void"]

def isOwnType (name : String) : Bool :=
  name ≠ "" && !primitiveTypes.contains name

def typeKinds : List String := ["type_identifier", "generic_type"]

def typeName (source : Source) (tree : SyntaxTree) : Except SourceError (Option String) :=
  match tree.kind with
  | "type_identifier" => some <$> source.textOf tree
  | "generic_type" | "superclass" => source.textOf? (tree.child? "type_identifier")
  | _ => return none

def enclosingType (source : Source) (table : Components) :
    List SyntaxTree → Except SourceError (Option String)
  | [] => return none
  | ancestor :: rest => do
    if (namedTypeKinds ++ ["annotation_type_declaration"]).contains ancestor.kind then
      match ← identifier source ancestor with
      | none | some "" => pure ()
      | some name => if table.contains name then return some (componentId source name)
    enclosingType source table rest

def enclosingMethod (source : Source) : List SyntaxTree → Except SourceError (Option String)
  | [] => return none
  | ancestor :: rest => do
    if ancestor.kind == "method_declaration" then
      let name ← identifier source ancestor
      let owner ← enclosingTypeName source rest
      match name.filter (· ≠ ""), owner.filter (· ≠ "") with
      | some name, some owner => return some (componentId source (owner ++ "." ++ name))
      | _, _ => pure ()
    enclosingMethod source rest

/-- The type and the name of a variable or field declaration: the last type among the children and
the name in the last declarator. -/
def declaredVariable (tree : SyntaxTree) : Option SyntaxTree × Option SyntaxTree :=
  ((tree.childrenOf typeKinds).getLast?,
    ((tree.childrenOf ["variable_declarator"]).getLast?).bind (·.child? "identifier"))

def typeIfDeclares (source : Source) (sought : String) (tree : SyntaxTree) :
    Except SourceError (Option (Option String)) := do
  match declaredVariable tree with
  | (some typeNode, some nameNode) =>
    if (← source.textOf nameNode) == sought then return some (← typeName source typeNode)
    return none
  | _ => return none

mutual

/-- The type of a local variable declared in a block or in a block inside it. A declaration ends
the search in its block even if its type has no name. -/
def searchBlock (source : Source) (sought : String) :
    SyntaxTree → Except SourceError (Option String)
  | .node _ _ _ children => searchStatements source sought children

def searchStatements (source : Source) (sought : String) :
    List SyntaxTree → Except SourceError (Option String)
  | [] => return none
  | statement :: rest => do
    if statement.kind == "local_variable_declaration" then
      match ← typeIfDeclares source sought statement with
      | some found => return found
      | none => pure ()
    else if statement.kind == "block" then
      match ← searchBlock source sought statement with
      | none | some "" => pure ()
      | found => return found
    searchStatements source sought rest

end

def firstFilled (search : SyntaxTree → Except SourceError (Option String)) :
    List SyntaxTree → Except SourceError (Option String)
  | [] => return none
  | tree :: rest => do
    match ← search tree with
    | none | some "" => firstFilled search rest
    | found => return found

def firstAnswer (search : SyntaxTree → Except SourceError (Option (Option String))) :
    List SyntaxTree → Except SourceError (Option String)
  | [] => return none
  | tree :: rest => do
    match ← search tree with
    | none => firstAnswer search rest
    | some found => return found

/-- The type of a variable: declared in the enclosing method or as a field of the enclosing
class. -/
def variableType (source : Source) (ancestors : List SyntaxTree) (sought : String) :
    Except SourceError (Option String) := do
  let method := ancestors.find? fun ancestor => ancestor.kind == "method_declaration"
  let blocks := (method.map (·.childrenOf ["block"])).getD []
  match ← firstFilled (searchBlock source sought) blocks with
  | some found => return some found
  | none =>
    let owner := ancestors.find? fun ancestor => ancestor.kind == "class_declaration"
    let bodies := (owner.map (·.childrenOf ["class_body"])).getD []
    let fields := bodies.flatMap (·.childrenOf ["field_declaration"])
    firstAnswer (typeIfDeclares source sought) fields

def inheritanceAt (source : Source) (place : Place) : Except SourceError (List Relation) := do
  let name ← identifier source place.tree
  match place.tree.child? "superclass" with
  | none => return []
  | some superclass =>
    let base ← typeName source superclass
    match name.filter (· ≠ ""), base.filter isOwnType with
    | some name, some base =>
      return [source.relation place.tree (componentId source name) (componentId source base)]
    | _, _ => return []

def implementationAt (source : Source) (place : Place) : Except SourceError (List Relation) := do
  let name ← identifier source place.tree
  match place.tree.child? "super_interfaces", name.filter (· ≠ "") with
  | some interfaces, some name =>
    let types := (interfaces.childrenOf ["type_list"]).flatMap (·.childrenOf typeKinds)
    let bases ← types.mapM (typeName source)
    return (bases.filterMap (·.filter isOwnType)).map fun base =>
      source.relation place.tree (componentId source name) (componentId source base)
  | _, _ => return []

def typeUseAt (source : Source) (table : Components) (place : Place) :
    Except SourceError (List Relation) := do
  let owner ← enclosingType source table place.ancestors
  match owner, place.tree.childOf? typeKinds with
  | some owner, some typeNode =>
    let used ← typeName source typeNode
    return ((used.filter isOwnType).map fun used =>
      source.relation place.tree owner used).toList
  | _, _ => return []

/-- The object and the method of a call. The method is decoded only after a plain object name. -/
def callParts (source : Source) (tree : SyntaxTree) :
    Except SourceError (Option String × Option String) := do
  match tree.children with
  | first :: rest =>
    if first.kind == "identifier" then
      let object ← source.textOf first
      match rest with
      | _ :: third :: _ =>
        if third.kind == "identifier" then return (some object, some (← source.textOf third))
        return (some object, none)
      | _ => return (some object, none)
    return (none, none)
  | [] => return (none, none)

def callAt (source : Source) (table : Components) (place : Place) :
    Except SourceError (List Relation) := do
  let owner ← enclosingType source table place.ancestors
  let method ← enclosingMethod source place.ancestors
  match owner with
  | none => return []
  | some owner =>
    let (object, called) ← callParts source place.tree
    match object.filter (· ≠ ""), called.filter (· ≠ "") with
    | some object, some _ =>
      let target ←
        if table.contains object then pure (some object)
        else variableType source place.ancestors object
      return ((target.filter isOwnType).map fun target =>
        source.relation place.tree (method.getD owner) target).toList
    | _, _ => return []

def relationsAt (source : Source) (table : Components) (place : Place) :
    Except SourceError (List Relation) := do
  match place.kind with
  | "class_declaration" =>
    return (← inheritanceAt source place) ++ (← implementationAt source place)
  | "enum_declaration" | "record_declaration" => implementationAt source place
  | "field_declaration" | "object_creation_expression" => typeUseAt source table place
  | "method_invocation" => callAt source table place
  | _ => return []

def analyze (source : Source) (tree : SyntaxTree) : Except SourceError Findings := do
  let outline ← Outline.collect (declare source) tree
  let relations ← collectRelations (relationsAt source outline.table) tree
  return ⟨outline.components, relations⟩

end CodeAtlas.Source.Java
