import CodeAtlas.Source.Tree

/-!
Components and relations of a C# file: types and delegates; relations are known base classes and
the types of properties, fields and parameters.
-/

namespace CodeAtlas.Source.CSharp

def componentId (source : Source) (name : String) : String :=
  let path := source.modulePath [".cs"]
  if path == "" then name else path ++ "." ++ name

def afterKeyword? (keyword : String) (tree : SyntaxTree) : Option SyntaxTree :=
  (tree.children.dropWhile fun child => child.kind != keyword).find? fun child =>
    child.kind == "identifier"

/-- Whether some modifier holds a word; later modifiers are not looked at. -/
def hasModifier (source : Source) (word : String) : List SyntaxTree → Except SourceError Bool
  | [] => return false
  | child :: rest => do
    if child.kind == "modifier" then
      if Text.contains (← source.textOf child) word then return true
    hasModifier source word rest

def declaration (source : Source) (tree : SyntaxTree) :
    Except SourceError (Option (String × SyntaxTree)) := do
  match tree.kind with
  | "class_declaration" =>
    let abstract ← hasModifier source "abstract" tree.children
    let static ← hasModifier source "static" tree.children
    let kind := if static then "static class" else if abstract then "abstract class" else "class"
    return (afterKeyword? "class" tree).map (kind, ·)
  | "interface_declaration" => return (afterKeyword? "interface" tree).map ("interface", ·)
  | "struct_declaration" => return (afterKeyword? "struct" tree).map ("struct", ·)
  | "enum_declaration" => return (afterKeyword? "enum" tree).map ("enum", ·)
  | "record_declaration" => return (afterKeyword? "record" tree).map ("record", ·)
  | "delegate_declaration" => return (tree.child? "identifier").map ("delegate", ·)
  | _ => return none

def declare (source : Source) (outline : Outline) (place : Place) :
    Except SourceError Outline := do
  match ← declaration source place.tree with
  | none => return outline
  | some (kind, nameNode) =>
    let name ← source.textOf nameNode
    if name == "" then return outline
    let component := source.component place.tree (componentId source name) name kind
    return ⟨outline.components ++ [component], outline.table.insert name component⟩

/-- The name node of a type: the identifier after its keyword, or else the first identifier. -/
def nameNode? (tree : SyntaxTree) : Option SyntaxTree :=
  let marked :=
    match tree.kind with
    | "class_declaration" => afterKeyword? "class" tree
    | "interface_declaration" => afterKeyword? "interface" tree
    | "struct_declaration" => afterKeyword? "struct" tree
    | _ => none
  marked.or (tree.child? "identifier")

def typeKinds : List String :=
  ["class_declaration", "interface_declaration", "struct_declaration", "enum_declaration",
    "record_declaration", "delegate_declaration"]

def enclosingType (source : Source) (table : Components) :
    List SyntaxTree → Except SourceError (Option String)
  | [] => return none
  | ancestor :: rest => do
    if typeKinds.contains ancestor.kind then
      match ← source.textOf? (nameNode? ancestor) with
      | none | some "" => pure ()
      | some name => if table.contains name then return some name
    enclosingType source table rest

def primitiveTypes : List String :=
  ["bool", "byte", "sbyte", "char", "decimal", "double", "float", "int", "uint", "long", "ulong",
    "short", "ushort", "string", "object", "void", "Boolean", "Byte", "SByte", "Char", "Decimal",
    "Double", "Single", "Int32", "UInt32", "Int64", "UInt64", "Int16", "UInt16", "String",
    "Object", "Void", "List", "Dictionary", "IList", "IDictionary", "IEnumerable", "ICollection",
    "Task", "CancellationToken", "DateTime", "TimeSpan", "Guid"]

def isOwnType (name : String) : Bool :=
  name ≠ "" && !primitiveTypes.contains name

def inheritanceAt (source : Source) (table : Components) (tree : SyntaxTree) :
    Except SourceError (List Relation) := do
  match ← source.textOf? (nameNode? tree), tree.child? "base_list" with
  | some name, some bases =>
    if name == "" then return []
    let bases ← (bases.childrenOf ["identifier"]).mapM source.textOf
    return (bases.filter fun base => table.values.any fun known => known.name == base).map
      fun base =>
        source.relation tree (componentId source name) (componentId source base) true
  | _, _ => return []

def mentionedTypes (tree : SyntaxTree) : List SyntaxTree :=
  match tree.kind with
  | "property_declaration" =>
    let identifiers := tree.childrenOf ["identifier"]
    if identifiers.length ≥ 2 then identifiers.take 1 else []
  | "field_declaration" => (tree.child? "identifier").toList
  | "method_declaration" =>
    match tree.child? "parameter_list" with
    | some parameters =>
      (parameters.childrenOf ["parameter"]).filterMap (·.child? "identifier")
    | none => []
  | _ => []

def relationsAt (source : Source) (table : Components) (place : Place) :
    Except SourceError (List Relation) := do
  let owner ← enclosingType source table place.ancestors
  if place.kind == "class_declaration" then inheritanceAt source table place.tree
  else
    match owner with
    | none => return []
    | some owner =>
      let types ← (mentionedTypes place.tree).mapM source.textOf
      return (types.filter isOwnType).map fun used =>
        source.relation place.tree (componentId source owner) used

def analyze (source : Source) (tree : SyntaxTree) : Except SourceError Findings := do
  let outline ← Outline.collect (declare source) tree
  let relations ← collectRelations (relationsAt source outline.table) tree
  return ⟨outline.components, relations⟩

end CodeAtlas.Source.CSharp
