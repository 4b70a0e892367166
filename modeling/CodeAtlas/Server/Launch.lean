import CodeAtlas.Command.Options
import CodeAtlas.Server.Service

/-!
Starting the service from a command line.
-/

namespace CodeAtlas.Server

structure Launch where
  application : String
  host : String
  port : Int
  reload : Bool
  debug : Bool

def Launch.toJson (launch : Launch) : Json :=
  .list [.text launch.application, .object [("host", .text launch.host), ("port", .int launch.port),
    ("reload", .bool launch.reload),
    ("log_level", .text (if launch.debug then "debug" else "info"))]]

def Launch.address (launch : Launch) : String :=
  "http://" ++ launch.host ++ ":" ++ Decimal.intText launch.port

def Launch.ofArguments (application : String) (arguments : Command.Arguments)
    (reloading : String) : Launch :=
  { application
    host := arguments.texts.getD "host" "127.0.0.1"
    port := arguments.numbers.getD "port" 8000
    reload := arguments.switches.contains reloading
    debug := arguments.switches.contains "debug" }

def awaitEnd (interrupted : Bool) : Work Unit := do
  Work.printLine "\nPress Ctrl+C to stop the server"
  if interrupted then Work.printLine "\n👋 Server stopped"

abbrev Route := String × String × String

namespace Service

def folder : String := "output/cache"

def temporaryFolder : String := "output/temp"

def line : Command.CommandLine :=
  ⟨"web_app.py", [{ name := "host", kind := .text }, { name := "port", kind := .number },
    { name := "debug", kind := .none }, { name := "reload", kind := .none }]⟩

def routes : List Route := [
  ("GET", "/", "index_get"),
  ("POST", "/", "index_post"),
  ("GET", "/api/job/\x7bjob_id\x7d", "get_job_status"),
  ("GET", "/docs/\x7bjob_id\x7d", "view_docs"),
  ("GET", "/static-docs/\x7bjob_id\x7d/\x7bfilename:path\x7d", "serve_generated_docs"),
  ("GET", "/static-docs/\x7bjob_id\x7d/", "serve_generated_docs")]

def launch (service : Service) (interrupted : Bool) (words : List String) :
    Work (Service × Launch) := do
  let arguments ← line.read words
  for folder in [folder, temporaryFolder, "output"] do Work.makeDirectories folder
  let service ← service.startWorker
  let launch := Launch.ofArguments "fe.web_app:app" arguments "reload"
  Work.printLine "🚀 GatoWiki Web Application starting..."
  Work.printLine ("🌐 Server running at: " ++ launch.address)
  Work.printLine ("📁 Cache directory: " ++ (← Work.absolutePath folder))
  Work.printLine ("🗂️  Temp directory: " ++ (← Work.absolutePath temporaryFolder))
  awaitEnd interrupted
  return ({ service with running := service.running && !interrupted }, launch)

end Service

end CodeAtlas.Server
