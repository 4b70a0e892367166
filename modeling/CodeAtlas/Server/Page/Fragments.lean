import CodeAtlas.Server.Page.Document

/-!
Pieces of pages made from values of unknown shape: a navigation and a list of jobs.
-/

namespace CodeAtlas.Server.Page

def linkClass (current name : String) : String :=
  "nav-item " ++ if current == name ++ ".md" then "active" else ""

def subsection (current : String) (member : String × Json) : String :=
  "        <div class=\"nav-subsection\">\n            <a href=\"/" ++ member.1 ++ ".md\" class=\""
    ++ linkClass current member.1 ++ "\">" ++ heading member.1 ++ "</a>\n        </div>"

def navigationSection (current : String) (member : String × Json) : Except Fault String := do
  let (name, value) := member
  match value with
  | .object _ =>
    let overview := if (value.get "components").isTruthy then
      "        <a href=\"/" ++ name ++ ".md\" class=\"" ++ linkClass current name
        ++ "\">Overview</a>" else ""
    let children ← match value.get "children" with
      | .object children => pure (Text.join "" (children.map (subsection current)))
      | other => if other.isTruthy then throw .undefined else pure ""
    return "    <div class=\"nav-section\">\n        <h3>" ++ heading name ++ "</h3>" ++ overview
      ++ children ++ "    </div>"
  | _ => throw .undefined

def navigation (modules : Json) (current : String) : Except Fault String := do
  if !modules.isTruthy then return ""
  match modules with
  | .object members =>
    return Text.join "" (← members.mapM (navigationSection current)) ++ "    "
  | _ => throw .undefined

def stateTitle (job : Json) : Except Fault String :=
  match job.member? "status" with
  | some (.text state) => .ok (Text.title state)
  | some (.object members) => if (members.lookup "title").isSome then .error .wrongKind
      else .error .undefined
  | _ => .error .undefined

def jobItem (job : Json) : Except Fault String := do
  let title ← stateTitle job
  let progress := if (job.get "progress").isTruthy then
    "        <div class=\"job-progress\">" ++ shownMember job "progress" ++ "</div>" else ""
  let actions := if job.get "status" matches .text "completed" && (job.get "docs_path").isTruthy then
    "        <div class=\"job-actions\">\n            <a href=\"/docs/" ++ shownMember job "job_id"
      ++ "\" class=\"btn btn-small\">View Documentation</a>\n        </div>" else ""
  return "    <div class=\"job-item\">\n        <div class=\"job-header\">\n            <div class=\"job-url\">"
    ++ shownMember job "repo_url" ++ "</div>\n            <div class=\"job-status status-"
    ++ shownMember job "status" ++ "\">" ++ title ++ "</div>\n        </div>" ++ progress ++ actions
    ++ "    </div>"

def jobList (jobs : List Json) : Except Fault String := do
  if jobs.isEmpty then return ""
  return Text.join "" (← jobs.mapM jobItem) ++ "    "

end CodeAtlas.Server.Page
