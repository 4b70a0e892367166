import CodeAtlas.Json.Access
import CodeAtlas.Json.Shown
import CodeAtlas.Server.Page.Assets
import CodeAtlas.Text.Case

/-!
The page that shows a document, with the tree of modules beside it. The tree and the description of
the generation come from files of unknown shape: what is missing is left out or shown as nothing,
and what cannot be gone through or cut is a fault.
-/

namespace CodeAtlas.Server.Page

structure Document where
  title : String
  content : String
  modules : Json
  current : String
  job : String := ""
  repository : String := ""
  description : Json := .null

def heading (name : String) : String := Text.title (Text.replace name "_" " ")

def shownMember (value : Json) (name : String) : String :=
  ((value.member? name).map (·.shown)).getD ""

def start (count : Nat) : Option Json → Except Fault String
  | some (.text written) => .ok (Text.take written count)
  | some (.list items) => .ok (Json.inspected (.list (items.take count)))
  | some _ => .error .wrongKind
  | none => .error .undefined

def generationLines (description : Json) : Except Fault (List String) := do
  let info := description.get "generation_info"
  if !info.isTruthy then return []
  let entry (label value : String) : String :=
    "                    <div style=\"margin-bottom: 4px;\"><strong>" ++ label ++ ":</strong> "
      ++ value ++ "</div>"
  let time ← start 16 (info.member? "timestamp")
  let commit ← if (info.get "commit_id").isTruthy then
    pure [entry "Commit" (← start 8 (info.member? "commit_id"))] else pure []
  let statistics := description.get "statistics"
  let components := if statistics.isTruthy then
    ["                    <div><strong>Components:</strong> "
      ++ shownMember statistics "total_components" ++ "</div>"] else []
  return [
    "            <div style=\"margin: 20px 0; padding: 15px; background: #f8fafc; border-radius: 8px; border: 1px solid #e2e8f0;\">",
    "                <h4 style=\"margin: 0 0 10px 0; font-size: 12px; color: #64748b; text-transform: uppercase; letter-spacing: 0.05em;\">Generation Info</h4>",
    "                <div style=\"font-size: 11px; color: #475569; line-height: 1.4;\">",
    entry "Model" (shownMember info "main_model"),
    entry "Generated" time] ++ commit ++ components ++ [
    "                </div>",
    "            </div>"]

def moduleLink (document : Document) (name : String) : List String := [
  "                        <a href=\"/static-docs/" ++ document.job ++ "/" ++ name
    ++ ".md\" class=\"nav-item " ++ (if document.current == name ++ ".md" then "active" else "")
    ++ "\">",
  "                            " ++ heading name,
  "                        </a>"]

def moduleHeader (depth : Nat) (name : String) : List String := [
  "                        <div class=\"nav-section-header\" " ++ (if depth > 0 then
    "style=\"font-size: " ++ Decimal.intText (14 - depth) ++ "px; text-transform: none;\"" else "")
    ++ ">",
  "                            " ++ heading name,
  "                        </div>"]

def moduleStart (depth : Nat) : String :=
  if depth > 0 then
    "                <div class=\"nav-subsection\" style=\"margin-left: "
      ++ Decimal.natText (depth * 15) ++ "px;\">"
  else "                <div class=\"\" >"

mutual

def moduleItem (document : Document) (depth : Nat) (name : String) : Json → Except Fault String
  | .object members => do
    let data := Json.object members
    let below ← childItems document depth members
    let own := if (data.get "components").isTruthy then moduleLink document name
      else moduleHeader depth name
    return Text.join "\n" ([moduleStart depth] ++ own ++ ["                    "]) ++ "\n"
      ++ below ++ "                </div>\n"
  | _ => return Text.join "\n" ([moduleStart depth] ++ moduleHeader depth name
      ++ ["                    "]) ++ "\n" ++ "                </div>\n"

/-- The modules below one whose members are given: those of the first member for children. -/
def childItems (document : Document) (depth : Nat) : List (String × Json) → Except Fault String
  | [] => .ok ""
  | (name, value) :: rest =>
    if name == "children" then
      match value with
      | .object children => childList document (depth + 1) children
      | other => if other.isTruthy then .error .undefined else .ok ""
    else childItems document depth rest

def childList (document : Document) (depth : Nat) : List (String × Json) → Except Fault String
  | [] => .ok ""
  | (name, value) :: rest => do
    let item ← moduleItem document depth name value
    let others ← childList document depth rest
    return "                            " ++ item ++ "\n" ++ others

end

def sectionLines (document : Document) : List (String × Json) → Except Fault (List String)
  | [] => .ok []
  | (name, value) :: rest => do
    let item ← moduleItem document 0 name value
    return [
      "            <div class=\"nav-section\">",
      "                " ++ item,
      "            </div>"] ++ (← sectionLines document rest)

def navigationLines (document : Document) : Except Fault (List String) := do
  if !document.modules.isTruthy then return []
  match document.modules with
  | .object members =>
    return [
      "            <div class=\"nav-section\">",
      "                <a href=\"/static-docs/" ++ document.job
        ++ "/overview.md\" class=\"nav-item "
        ++ (if document.current == "overview.md" then "active" else "") ++ "\">",
      "                    Overview",
      "                </a>",
      "            </div>",
      "            ",
      "            "] ++ (← sectionLines document members)
  | _ => throw .undefined

def documentLines (document : Document) : Except Fault (List String) := do
  let generation ← generationLines document.description
  let navigation ← navigationLines document
  return "" :: Markup.opening ++ [
    "    <title>" ++ document.title ++ "</title>",
    Markup.diagramSource,
    "    <style>"] ++ documentStyle ++ [
    "    </style>",
    "</head>",
    "<body>",
    "    <div class=\"container\">",
    "        <nav class=\"sidebar\">",
    "            <a href=\"/static-docs/" ++ document.job ++ "/overview.md\" class=\"logo\">📚 "
      ++ document.repository ++ "</a>",
    "            "] ++ generation ++ [
    "            "] ++ navigation ++ [
    "        </nav>",
    "        ",
    "        <main class=\"content\">",
    "            <div class=\"markdown-content\">",
    "                " ++ document.content,
    "            </div>",
    "        </main>",
    "    </div>",
    "    ",
    "    <script>"] ++ documentScript ++ [
    "    </script>",
    "</body>",
    "</html>"]

def Document.render (document : Document) : Except Fault String := do
  return Text.join "\n" (← documentLines document)

end CodeAtlas.Server.Page
