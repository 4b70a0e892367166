import CodeAtlas.Json.Shown
import CodeAtlas.Markup.Escape
import CodeAtlas.Server.Job
import CodeAtlas.Server.Page.Assets

/-!
The page where repositories are submitted: a message, the form and the jobs. Whether a text is
escaped when it is put into the page is up to the template engine, which knows the template by its
name; this template has none.
-/

namespace CodeAtlas.Server.Page

structure Message where
  good : Bool
  text : String

def Message.lines (message : Message) : List String := [
  "            <div class=\"alert alert-" ++ (if message.good then "success" else "error") ++ "\">",
  "                " ++ message.text,
  "            </div>"]

def form (address commit : String) : List String := [
  "            <form method=\"POST\" action=\"/\">",
  "                <div class=\"form-group\">",
  "                    <label for=\"repo_url\">GitHub Repository URL:</label>",
  "                    <input ",
  "                        type=\"url\" ",
  "                        id=\"repo_url\" ",
  "                        name=\"repo_url\" ",
  "                        placeholder=\"https://github.com/owner/repository\"",
  "                        required",
  "                        value=\"" ++ address ++ "\"",
  "                    >",
  "                </div>",
  "                ",
  "                <div class=\"form-group\">",
  "                    <label for=\"commit_id\">Commit ID (optional):</label>",
  "                    <input ",
  "                        type=\"text\" ",
  "                        id=\"commit_id\" ",
  "                        name=\"commit_id\" ",
  "                        placeholder=\"Enter specific commit hash (defaults to latest)\"",
  "                        value=\"" ++ commit ++ "\"",
  "                        pattern=\"[a-f0-9]\x7b4,40\x7d\"",
  "                        title=\"Enter a valid commit hash (4-40 characters, hexadecimal)\"",
  "                    >",
  "                </div>",
  "                ",
  "                <button type=\"submit\" class=\"btn\">Generate Documentation</button>",
  "            </form>"]

def modelLines (write : String → String) : Option String → List String
  | some model => if model.isEmpty then [] else [
      "                    <div class=\"job-model\" style=\"font-size: 0.75rem; color: #64748b; margin-top: 0.25rem;\">",
      "                        Generated with: " ++ write model,
      "                    </div>"]
  | none => []

def jobLines (write : String → String) (job : Job) : List String := [
  "                <div class=\"job-item\">",
  "                    <div class=\"job-header\">",
  "                        <div class=\"job-url\">" ++ write job.address.shown ++ "</div>",
  "                        <div class=\"job-status status-" ++ write job.state.name ++ "\">"
    ++ write job.state.name ++ "</div>",
  "                    </div>",
  "                    <div class=\"job-progress\">" ++ write job.progress.shown ++ "</div>"] ++
  modelLines write job.model ++ [
  "                    <div class=\"job-actions\">",
  "                        <a href=\"/docs/" ++ write job.id.shown
    ++ "\" class=\"btn btn-small\">View Documentation</a>",
  "                    </div>",
  "                </div>"]

def jobSection (write : String → String) (jobs : List Job) : List String :=
  if jobs.isEmpty then [] else [
    "            <div class=\"recent-jobs\">",
    "                <h3>Recent Jobs</h3>"] ++ jobs.flatMap (jobLines write) ++ [
    "            </div>"]

def homeLines (write : String → String) (message : Option Message) (address commit : String)
    (jobs : List Job) : List String :=
  "" :: Markup.opening ++ [
  "    <title>GatoWiki - GitHub Repository Documentation Generator</title>",
  "    <style>"] ++ homeStyle ++ [
  "    </style>",
  "</head>",
  "<body>",
  "    <div class=\"container\">",
  "        <div class=\"header\">",
  "            <h1>📚 GatoWiki</h1>",
  "            <p>Generate comprehensive documentation for any GitHub repository</p>",
  "        </div>",
  "        ",
  "        <div class=\"content\">"] ++
  (message.map fun message => Message.lines ⟨message.good, write message.text⟩).getD [] ++ [
  "            "] ++ form (write address) (write commit) ++ [
  "            "] ++ jobSection write jobs ++ [
  "        </div>",
  "    </div>",
  "    ",
  "    <script>"] ++ homeScript ++ [
  "    </script>",
  "</body>",
  "</html>"]

def templateName : String := ""

def escapedEndings : List String := ["html", "xml"]

def home (engine : Markup.Engine) (message : Option Message) (address commit : String)
    (jobs : List Job) : String :=
  Text.join "\n" (homeLines (engine escapedEndings templateName) message address commit jobs)

end CodeAtlas.Server.Page
