import CodeAtlas.Source.Tree

/-!
Components and calls of a Python file. Every class is reported, and every function met while no
class is open. One open class and one open function are remembered: a definition opens its name,
and at its end nothing is open any more, whatever was open before. A call belongs to the open class
or else to the open function.
-/

namespace CodeAtlas

/-- The abstract syntax tree of a Python module: the kind of a node, its first and last line, its
plain texts by field, and its children in the order of the fields. -/
inductive PythonTree where
  | node (kind : String) (line stop : Nat) (texts : List (String × String))
      (children : List (String × PythonTree))
deriving Inhabited

namespace PythonTree

def kind : PythonTree → String
  | .node kind _ _ _ _ => kind

def line : PythonTree → Nat
  | .node _ line _ _ _ => line

def stop : PythonTree → Nat
  | .node _ _ stop _ _ => stop

def texts : PythonTree → List (String × String)
  | .node _ _ _ texts _ => texts

def children : PythonTree → List (String × PythonTree)
  | .node _ _ _ _ children => children

def text (tree : PythonTree) (field : String) : String :=
  (tree.texts.lookup field).getD ""

def child? (tree : PythonTree) (field : String) : Option PythonTree :=
  tree.children.lookup field

def childrenIn (tree : PythonTree) (field : String) : List PythonTree :=
  tree.children.filterMap fun (name, child) => if name == field then some child else none

end PythonTree

namespace Source.Python

def moduleName (source : Source) : String := source.modulePath [".py", ".pyx"]

def componentId (source : Source) (name : String) : String := moduleName source ++ "." ++ name

/-! ## Documentation strings -/

def expandTabs (column : Nat) : List Char → List Char
  | [] => []
  | char :: rest =>
    if char == '\t' then
      let width := 8 - column % 8
      List.replicate width ' ' ++ expandTabs (column + width) rest
    else if char == '\n' || char == '\r' then char :: expandTabs 0 rest
    else char :: expandTabs (column + 1) rest

def indentation (line : List Char) : Nat :=
  (line.takeWhile Text.isBlank).length

def margin? (lines : List (List Char)) : Option Nat :=
  ((lines.filter fun line => line.any fun char => !Text.isBlank char).map indentation).min?

def dropEmptyEnds (lines : List (List Char)) : List (List Char) :=
  ((lines.dropWhile List.isEmpty).reverse.dropWhile List.isEmpty).reverse

/-- A documentation string without the common indentation of its later lines and without empty
lines at its ends. -/
def cleanDocstring (text : String) : String :=
  match Text.Chars.split ['\n'] (expandTabs 0 text.toList) with
  | [] => ""
  | first :: rest =>
    let rest :=
      match margin? rest with
      | some margin => rest.map (List.drop margin)
      | none => rest
    String.ofList (['\n'].intercalate (dropEmptyEnds (first.dropWhile Text.isBlank :: rest)))

/-- The text of a constant that is a string and stands first in a body. -/
def docstring (tree : PythonTree) : String :=
  match tree.child? "body" with
  | some statement =>
    if statement.kind == "Expr" then
      match statement.child? "value" with
      | some value =>
        if value.kind == "Constant" then
          match value.texts.lookup "value" with
          | some text => cleanDocstring text
          | none => ""
        else ""
      | none => ""
    else ""
  | none => ""

/-! ## Names -/

def attributeChain : PythonTree → List String
  | .node kind line stop texts children =>
    let tree := PythonTree.node kind line stop texts children
    if kind == "Attribute" then tree.text "attr" :: chainBelow children
    else if kind == "Name" then [tree.text "id"]
    else []
where
  chainBelow : List (String × PythonTree) → List String
    | [] => []
    | (field, child) :: rest => if field == "value" then attributeChain child else chainBelow rest

def baseName? (tree : PythonTree) : Option String :=
  if tree.kind == "Name" then some (tree.text "id")
  else if tree.kind == "Attribute" then some (Text.join "." (attributeChain tree).reverse)
  else none

def builtins : List String :=
  ["print", "len", "str", "int", "float", "bool", "list", "dict", "tuple", "set", "range",
    "enumerate", "zip", "isinstance", "hasattr", "getattr", "setattr", "open", "super",
    "__import__", "type", "object", "Exception", "ValueError", "TypeError", "KeyError",
    "IndexError", "AttributeError", "ImportError", "max", "min", "sum", "abs", "round", "sorted",
    "reversed", "filter", "map", "any", "all", "next", "iter", "callable", "repr", "format", "exec",
    "eval"]

mutual

/-- The name of what a call calls: a name or a chain of attributes of a name, unless it starts from
a built-in one. Where the start is something else, the last attribute alone is the name. -/
def callName? : PythonTree → Option String
  | .node kind line stop texts children =>
    let tree := PythonTree.node kind line stop texts children
    if kind == "Name" then
      if builtins.contains (tree.text "id") then none else some (tree.text "id")
    else if kind == "Attribute" then attributeName? (tree.text "attr") children
    else none

def attributeName? (member : String) : List (String × PythonTree) → Option String
  | [] => some member
  | (field, value) :: rest =>
    if field == "value" then
      if value.kind == "Name" then
        if builtins.contains (value.text "id") then none
        else some (value.text "id" ++ "." ++ member)
      else if value.kind == "Attribute" then
        match callName? value with
        | some "" | none => some member
        | some base => some (base ++ "." ++ member)
      else some member
    else attributeName? member rest

end

/-! ## The walk -/

structure Walk where
  components : List Component
  relations : List Relation
  known : List String
  openClass : Option String
  openFunction : Option String

def Walk.start : Walk := ⟨[], [], [], none, none⟩

def definition (source : Source) (tree : PythonTree) (kind : String) : Component :=
  let name := tree.text "name"
  let id := componentId source name
  let last := if tree.stop == 0 then tree.line else tree.stop
  { id := id
    name := name
    kind := kind
    filePath := source.path
    relativePath := source.relativePath
    source := some (source.excerpt (tree.line - 1) (last - 1))
    startLine := tree.line
    endLine := tree.stop
    hasDocstring := docstring tree ≠ ""
    docstring := docstring tree
    nodeKind := some kind
    displayName := some (kind ++ " " ++ name)
    componentId := some id }

def Walk.enterClass (source : Source) (tree : PythonTree) (walk : Walk) : Walk :=
  let bases := (tree.childrenIn "bases").filterMap baseName?
  let component :=
    { definition source tree "class" with baseClasses := if bases.isEmpty then none else some bases }
  let known := component.name :: walk.known
  { walk with
    components := walk.components ++ [component]
    relations := walk.relations ++
      (bases.filter (known.contains ·)).map fun base =>
        ⟨component.id, componentId source base, some tree.line, true⟩
    known := known
    openClass := some component.name }

def parameters (tree : PythonTree) : List String :=
  ((tree.child? "args").toList.flatMap (·.childrenIn "args")).map (·.text "arg")

/-- Reports a function unless a class is open or its name marks it as a test, and opens it. -/
def Walk.enterFunction (source : Source) (tree : PythonTree) (walk : Walk) : Walk :=
  let name := tree.text "name"
  if walk.openClass.isNone && !Text.startsWith name "_test_" then
    let component := { definition source tree "function" with parameters := some (parameters tree) }
    { walk with
      components := walk.components ++ [component]
      known := name :: walk.known
      openFunction := some name }
  else { walk with openFunction := some name }

def Walk.meetCall (source : Source) (tree : PythonTree) (walk : Walk) : Walk :=
  match walk.openClass.or walk.openFunction, (tree.child? "func").bind callName? with
  | some caller, some name =>
    if name == "" then walk
    else
      let resolved := walk.known.contains name
      let callee := if resolved then componentId source name else name
      { walk with
        relations := walk.relations ++
          [⟨componentId source caller, callee, some tree.line, resolved⟩] }
  | _, _ => walk

mutual

def walkTree (source : Source) (walk : Walk) : PythonTree → Walk
  | .node kind line stop texts children =>
    let tree := PythonTree.node kind line stop texts children
    match kind with
    | "ClassDef" =>
      { walkChildren source (walk.enterClass source tree) children with openClass := none }
    | "FunctionDef" | "AsyncFunctionDef" =>
      { walkChildren source (walk.enterFunction source tree) children with
        openFunction := none }
    | "Call" => walkChildren source (walk.meetCall source tree) children
    | _ => walkChildren source walk children

def walkChildren (source : Source) (walk : Walk) : List (String × PythonTree) → Walk
  | [] => walk
  | (_, child) :: rest => walkChildren source (walkTree source walk child) rest

end

/-- A file that does not parse has no tree and yields nothing. -/
def analyze (source : Source) : Option PythonTree → Findings
  | none => ⟨[], []⟩
  | some tree =>
    let walk := walkTree source .start tree
    ⟨walk.components, walk.relations⟩

end Source.Python

end CodeAtlas
