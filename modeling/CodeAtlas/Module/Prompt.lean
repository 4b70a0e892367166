import CodeAtlas.Component

/-!
Requests to group components into modules. The request lists the components that may form the core
of a module and, where there is one, the tree of the modules found so far.
-/

namespace CodeAtlas.ModulePrompt

def moduleFormat (number note : String) : String :=
  "    \"module_name_" ++ number ++ "\": \x7b\n" ++
    "        \"path\": <path_to_the_module_" ++ number ++ ">," ++ note ++ "\n" ++
    "        \"components\": [\n" ++
    "            <component_name_1>,\n" ++
    "            <component_name_2>,\n" ++
    "            ...\n" ++
    "        ]\n" ++
    "    \x7d,\n"

def answerFormat : String :=
  "<GROUPED_COMPONENTS>\n" ++
    "\x7b\n" ++ moduleFormat "1" " # the path to the module can be file or directory" ++
    moduleFormat "2" "" ++
    "    ...\n" ++
    "\x7d\n" ++
    "</GROUPED_COMPONENTS>"

/-- Asks to group the components of a whole into parts. -/
def question (whole part components : String) : String :=
  " (It's normal that some components are not essential to the " ++ whole ++ "):\n" ++
    "<POTENTIAL_CORE_COMPONENTS>\n" ++
    components ++
    "\n" ++
    "</POTENTIAL_CORE_COMPONENTS>\n" ++
    "\n" ++
    "Please group the components into groups such that each group is a set of components " ++
    "that are closely related to each other and together they form a " ++ part ++ ". DO NOT " ++
    "include components that are not essential to the " ++ whole ++ ".\n"

def forRepository (components : String) : String :=
  "Here is list of all potential core components of the repository" ++
    question "repository" "module" components ++
    "Firstly reason about the components and then group them and return the result in the " ++
    "following format:\n" ++
    answerFormat

def forModule (components tree name : String) : String :=
  "Here is the module tree of a repository:\n" ++
    "\n" ++
    "<MODULE_TREE>\n" ++
    tree ++
    "\n" ++
    "</MODULE_TREE>\n" ++
    "\n" ++
    "Here is list of all potential core components of the module " ++
    name ++ question "module" "smaller module" components ++
    "\n" ++
    "Firstly reason based on given context and then group them and return the result in " ++
    "the following format:\n" ++
    answerFormat

/-! ## The tree of modules -/

mutual

/-- The lines of the modules of a tree, one indented below another; the current module is marked. A
module needs its list of components, and its children count only if they are a tree themselves. -/
def treeLines (current : Option String) (indent : Nat) :
    List (String × Json) → Except Fault (List String)
  | [] => return []
  | (name, .object members) :: rest => do
    let own ← moduleLines current indent name members
    let children ← childLines current indent members
    return own ++ children ++ (← treeLines current indent rest)
  | _ :: _ => throw .wrongKind

def moduleLines (current : Option String) (indent : Nat) (name : String)
    (members : List (String × Json)) : Except Fault (List String) := do
  let components ← (← Json.need (.object members) "components").joined ", "
  let mark := if current = some name then " (current module)" else ""
  return [Text.repeated indent "  " ++ name ++ mark,
    Text.repeated (indent + 1) "  " ++ " Core components: " ++ components]

def childLines (current : Option String) (indent : Nat) :
    List (String × Json) → Except Fault (List String)
  | [] => return []
  | ("children", .object (child :: more)) :: _ => do
    let below ← treeLines current (indent + 2) (child :: more)
    return (Text.repeated (indent + 1) "  " ++ " Children:") :: below
  | ("children", _) :: _ => return []
  | _ :: rest => childLines current indent rest

end

def request (components : String) (tree : Json.Members) (current : Option String) :
    Except Fault String := do
  let lines ← treeLines current 0 tree
  if tree.isEmpty then return forRepository components
  return forModule components (Text.join "\n" lines) (current.getD "None")

/-! ## The list of components -/

def byFile (leaves : List String) (components : Components) :
    List (String × List (String × Component)) :=
  let found := leaves.filterMap fun leaf => (components.get? leaf).map fun component =>
    (leaf, component)
  let files := (found.map fun entry => entry.2.relativePath).eraseDups
  (Graph.sorted files).map fun file =>
    (file, found.filter fun entry => entry.2.relativePath == file)

def componentLists (leaves : List String) (components : Components) : String × String :=
  let files := byFile leaves components
  let render (source : Component → String) := String.join (files.map fun (file, members) =>
    "# " ++ file ++ "\n" ++ String.join (members.map fun (leaf, component) =>
      "\t" ++ leaf ++ "\n" ++ source component))
  (render fun _ => "", render fun component => component.source.getD "None" ++ "\n")

end CodeAtlas.ModulePrompt
