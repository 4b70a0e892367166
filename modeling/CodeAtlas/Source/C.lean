import CodeAtlas.Source.Tree

/-!
Components and calls of a C file: functions, structs and the use of global variables.
-/

namespace CodeAtlas.Source.C

def moduleName (source : Source) : String := source.modulePath [".c", ".h"]

def componentId (source : Source) (name : String) : String :=
  let path := moduleName source
  if path == "" then name else path ++ "." ++ name

def functionName? (tree : SyntaxTree) : Option SyntaxTree :=
  (tree.child? "function_declarator").bind (·.child? "identifier")

def declared? (item : SyntaxTree) : Option SyntaxTree :=
  if item.kind == "init_declarator" then
    (item.child? "identifier").or
      ((item.child? "pointer_declarator").bind (·.child? "identifier"))
  else if item.kind == "identifier" then some item
  else none

def isGlobal (place : Place) : Bool :=
  place.ancestors.all fun ancestor => ancestor.kind != "function_definition"

def declaration? (place : Place) : Option (String × SyntaxTree) :=
  match place.kind with
  | "function_definition" => (functionName? place.tree).map ("function", ·)
  | "struct_specifier" => (place.tree.child? "type_identifier").map ("struct", ·)
  | "type_definition" =>
    if (place.tree.child? "struct_specifier").isSome then
      (place.tree.child? "type_identifier").map ("struct", ·)
    else none
  | "declaration" =>
    if isGlobal place then (place.tree.children.findSome? declared?).map ("variable", ·)
    else none
  | _ => none

def declare (source : Source) (outline : Outline) (place : Place) :
    Except SourceError Outline := do
  match declaration? place with
  | none => return outline
  | some (kind, nameNode) =>
    let name ← source.textOf nameNode
    if name == "" then return outline
    let component := source.component place.tree (componentId source name) name kind
    return {
      components :=
        if kind == "variable" then outline.components else outline.components ++ [component]
      table := outline.table.insert name component }

def enclosingFunction (source : Source) (table : Components) :
    List SyntaxTree → Except SourceError (Option String)
  | [] => return none
  | ancestor :: rest => do
    if ancestor.kind == "function_definition" then
      match functionName? ancestor with
      | some nameNode =>
        let name ← source.textOf nameNode
        if table.contains name then return some name
      | none => pure ()
    enclosingFunction source table rest

def systemFunctions : List String :=
  ["printf", "scanf", "malloc", "free", "strlen", "strcpy", "strcmp", "memcpy", "memset", "exit",
    "abort", "fopen", "fclose", "fread", "fwrite", "SDL_Init", "SDL_CreateWindow", "SDL_Log",
    "SDL_GetError", "SDL_Quit"]

def callAt (source : Source) (table : Components) (place : Place) :
    Except SourceError (List Relation) := do
  match ← enclosingFunction source table place.ancestors with
  | none | some "" => return []
  | some caller =>
    match place.tree.child? "identifier" with
    | none => return []
    | some calleeNode =>
      let callee ← source.textOf calleeNode
      if systemFunctions.contains callee then return []
      return [source.relation place.tree (componentId source caller) callee]

def useAt (source : Source) (table : Components) (place : Place) :
    Except SourceError (List Relation) := do
  match ← enclosingFunction source table place.ancestors with
  | none | some "" => return []
  | some caller =>
    let name ← source.textOf place.tree
    if (table.get? name).any fun found => found.kind == "variable" then
      return [source.relation place.tree (componentId source caller) (componentId source name)
        true]
    return []

def relationsAt (source : Source) (table : Components) (place : Place) :
    Except SourceError (List Relation) :=
  match place.kind with
  | "call_expression" => callAt source table place
  | "identifier" => useAt source table place
  | _ => return []

def analyze (source : Source) (tree : SyntaxTree) : Except SourceError Findings := do
  let outline ← Outline.collect (declare source) tree
  let relations ← collectRelations (relationsAt source outline.table) tree
  return ⟨outline.components, relations⟩

end CodeAtlas.Source.C
