import CodeAtlas.Console.Guidance
import CodeAtlas.Console.Log
import CodeAtlas.Console.Progress
import CodeAtlas.Console.ServiceFailure
import CodeAtlas.Diagram.Check
import CodeAtlas.GenerationJob
import CodeAtlas.Graph.Order
import CodeAtlas.Hosting.Clone
import CodeAtlas.Module.Prompt
import CodeAtlas.Program.Menu
import CodeAtlas.Repository.EntryPoint
import CodeAtlas.Server.Page.Fragments
import CodeAtlas.Server.Reader
import CodeAtlas.Server.Requests
import CodeAtlas.Settings.Check
import CodeAtlas.Source.PythonRecord
import CodeAtlas.Wiki.Commands

/-!
Everything that a program built on this library calls.
-/
