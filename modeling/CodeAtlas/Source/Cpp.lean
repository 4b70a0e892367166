import CodeAtlas.Source.Tree

/-!
Components and relations of a C++ file: classes, structs and free functions are reported; methods,
global variables and namespaces are only known by name.
-/

namespace CodeAtlas.Source.Cpp

def moduleName (source : Source) : String :=
  source.modulePath [".cpp", ".cc", ".cxx", ".hpp", ".h"]

def componentId (source : Source) (name : String) : String :=
  let path := moduleName source
  if path == "" then name else path ++ "." ++ name

def memberId (source : Source) (className name : String) : String :=
  componentId source (className ++ "." ++ name)

def enclosingClass (source : Source) (kinds : List String) :
    List SyntaxTree → Except SourceError (Option String)
  | [] => return none
  | ancestor :: rest =>
    match (if kinds.contains ancestor.kind then ancestor.child? "type_identifier" else none) with
    | some nameNode => some <$> source.textOf nameNode
    | none => enclosingClass source kinds rest

def declaratorName? (item : SyntaxTree) : Option SyntaxTree :=
  match item.kind with
  | "identifier" | "field_identifier" => some item
  | "qualified_identifier" => (item.childrenOf ["identifier"]).getLast?
  | _ => none

def isGlobal (place : Place) : Bool :=
  place.ancestors.all fun ancestor =>
    !(["function_definition", "class_specifier", "struct_specifier"].contains ancestor.kind)

def declared? (item : SyntaxTree) : Option SyntaxTree :=
  match item.kind with
  | "init_declarator" => item.child? "identifier"
  | "identifier" => some item
  | _ => none

def afterKeyword? (keyword : String) (children : List SyntaxTree) : Option SyntaxTree :=
  (children.dropWhile fun child => child.kind != keyword).find? fun child =>
    child.kind == "identifier"

def declaration? (source : Source) (place : Place) :
    Except SourceError (Option (String × SyntaxTree × Option String)) := do
  match place.kind with
  | "class_specifier" =>
    return (place.tree.child? "type_identifier").map ("class", ·, none)
  | "struct_specifier" =>
    return (place.tree.child? "type_identifier").map ("struct", ·, none)
  | "function_definition" =>
    let owner ← enclosingClass source ["class_specifier", "struct_specifier"] place.ancestors
    let owner := owner.filter (· ≠ "")
    let nameNode := (place.tree.child? "function_declarator").bind fun declarator =>
      declarator.children.findSome? declaratorName?
    return nameNode.map (if owner.isSome then "method" else "function", ·, owner)
  | "declaration" =>
    if isGlobal place then
      return (place.tree.children.findSome? declared?).map ("variable", ·, none)
    return none
  | "namespace_definition" =>
    return (afterKeyword? "namespace" place.tree.children).map ("namespace", ·, none)
  | _ => return none

def declare (source : Source) (outline : Outline) (place : Place) :
    Except SourceError Outline := do
  match ← declaration? source place with
  | none => return outline
  | some (kind, nameNode, owner) =>
    let name ← source.textOf nameNode
    if name == "" then return outline
    let id :=
      match owner with
      | some className => memberId source className name
      | none => componentId source name
    let component := source.component place.tree id name kind owner
    return {
      components :=
        if ["class", "struct", "function"].contains kind then outline.components ++ [component]
        else outline.components
      table := outline.table.insert (if kind == "method" then id else name) component }

def enclosingFunction (source : Source) : List SyntaxTree → Except SourceError (Option String)
  | [] => return none
  | ancestor :: rest =>
    let nameNode :=
      if ancestor.kind == "function_definition" then
        (ancestor.child? "function_declarator").bind (·.child? "identifier")
      else none
    match nameNode with
    | some nameNode => some <$> source.textOf nameNode
    | none => enclosingFunction source rest

/-- The identifier of a function by its name; a known owner is part of it. -/
def functionId (source : Source) (table : Components) (name : String) : String :=
  match (table.get? name).bind (·.className) with
  | some "" | none => componentId source name
  | some owner => memberId source owner name

def systemFunctions : List String :=
  ["printf", "scanf", "malloc", "free", "strlen", "strcpy", "strcmp", "cout", "cin", "endl", "std",
    "new", "delete"]

/-- A class seems to declare a method if one of its lines holds the name before a parenthesis and
either a common result type or the name of the class. -/
def seemsToDeclare (component : Component) (method : String) : Bool :=
  (Text.split (component.source.getD "") "\n").any fun line =>
    Text.contains line (method ++ "(") &&
      Text.containsAny line ["void", "int", "bool", component.name]

def classWithMethod? (table : Components) (method : String) : Option String :=
  (table.entries.find? fun entry =>
    ["class", "struct"].contains entry.2.kind && seemsToDeclare entry.2 method).map Prod.fst

def calledName (source : Source) : List SyntaxTree → Except SourceError (Option String)
  | [] => return none
  | child :: rest => do
    if child.kind == "identifier" then return some (← source.textOf child)
    if child.kind == "field_expression" then
      match ← source.textOf? (child.child? "field_identifier") with
      | some "" | none => pure ()
      | some name => return some name
    calledName source rest

def callAt (source : Source) (table : Components) (place : Place) :
    Except SourceError (List Relation) := do
  match ← enclosingFunction source place.ancestors with
  | none | some "" => return []
  | some caller =>
    let callerId := functionId source table caller
    match ← calledName source place.tree.children with
    | none | some "" => return []
    | some callee =>
      if systemFunctions.contains callee then return []
      match classWithMethod? table callee with
      | some owner =>
        if owner ≠ "" then
          return [source.relation place.tree callerId (componentId source owner)]
      | none => pure ()
      if table.contains callee then
        return [source.relation place.tree callerId (componentId source callee)]
      return []

def inheritanceAt (source : Source) (place : Place) : Except SourceError (List Relation) := do
  match ← enclosingClass source ["class_specifier"] place.ancestors with
  | none | some "" => return []
  | some className =>
    (place.tree.childrenOf ["type_identifier"]).mapM fun base => do
      return source.relation place.tree (componentId source className) (← source.textOf base)

def creationAt (source : Source) (table : Components) (place : Place) :
    Except SourceError (List Relation) := do
  match ← enclosingFunction source place.ancestors with
  | none | some "" => return []
  | some caller =>
    match ← source.textOf? (place.tree.child? "type_identifier") with
    | none => return []
    | some className =>
      if table.contains className then
        return [source.relation place.tree (functionId source table caller)
          (componentId source className)]
      return []

def useAt (source : Source) (table : Components) (place : Place) :
    Except SourceError (List Relation) := do
  let declaring := ["function_definition", "class_specifier", "declaration", "function_declarator"]
  match place.parent? with
  | none => return []
  | some parent =>
    if declaring.contains parent.kind then return []
    let name ← source.textOf place.tree
    if !(table.get? name).any fun found => found.kind == "variable" then return []
    match ← enclosingFunction source place.ancestors with
    | none | some "" => return []
    | some caller =>
      if caller == name then return []
      return [source.relation place.tree (functionId source table caller) name]

def relationsAt (source : Source) (table : Components) (place : Place) :
    Except SourceError (List Relation) :=
  match place.kind with
  | "call_expression" => callAt source table place
  | "base_class_clause" => inheritanceAt source place
  | "new_expression" => creationAt source table place
  | "identifier" => useAt source table place
  | _ => return []

def analyze (source : Source) (tree : SyntaxTree) : Except SourceError Findings := do
  let outline ← Outline.collect (declare source) tree
  let relations ← collectRelations (relationsAt source outline.table) tree
  return ⟨outline.components, relations⟩

end CodeAtlas.Source.Cpp
