import CodeAtlas.Console.Message
import CodeAtlas.Text.Case

/-!
Failures of the language-model service. The kind of a failure is read off its text, and each kind
has its advice.
-/

namespace CodeAtlas.Console

inductive ServiceFailure where
  | tooManyRequests
  | badCredentials
  | timedOut
  | noConnection
  | other (text : String)
deriving DecidableEq, Repr

namespace ServiceFailure

def ofText (text : String) : ServiceFailure :=
  let lower := Text.lower text
  if Text.contains text "429" || Text.contains lower "rate limit" then .tooManyRequests
  else if Text.contains text "401" || Text.contains lower "authentication" then .badCredentials
  else if Text.contains lower "timeout" then .timedOut
  else if Text.contains lower "network" || Text.contains lower "connection" then .noConnection
  else .other text

def parts : ServiceFailure → String × String × List String
  | .tooManyRequests => ("LLM API rate limit exceeded.",
      "The API returned a 429 error, indicating too many requests.", [
      "Wait a few minutes before retrying",
      "Check your API quota at your provider's dashboard",
      "Consider upgrading your API plan",
      "For large repositories, generate during off-peak hours"])
  | .badCredentials => ("LLM API authentication failed.",
      "Your API key appears to be invalid or expired.", [
      "Verify your API key: gatowiki config show",
      "Update your API key: gatowiki config set --api-key <new-key>",
      "Check that your API key is active in your provider's dashboard"])
  | .timedOut => ("LLM API request timed out.",
      "The API did not respond within the expected time.", [
      "Check your internet connection",
      "Verify the API service is operational",
      "Try again in a few moments",
      "If the issue persists, contact your API provider"])
  | .noConnection => ("Network error while connecting to LLM API.",
      "Could not establish connection to the API.", [
      "Check your internet connection",
      "Verify the base URL: gatowiki config show",
      "Check if you're behind a proxy or firewall",
      "Try: curl -I <base-url> to test connectivity"])
  | .other text => ("LLM API error: " ++ text,
      "An unexpected error occurred while communicating with the LLM API.", [
      "Check your configuration: gatowiki config validate",
      "Verify API service status",
      "Review the error message above for specific details"])

def message (failure : ServiceFailure) (context : String) : String :=
  let (title, explanation, advice) := failure.parts
  (if context.isEmpty then "" else "Context: " ++ context ++ "\n\n") ++
    title ++ "\n\n" ++ explanation ++ "\n\nTroubleshooting:\n" ++
    Text.join "\n" (advice.zipIdx.map fun (line, index) =>
      "  " ++ Decimal.natText (index + 1) ++ ". " ++ line)

end ServiceFailure

def showServiceFailure (message name : String) : Work Unit := do
  Work.printLine "\n✗ LLM API Error\n"
  if !name.isEmpty then Work.printLine ("Module: " ++ name ++ "\n")
  Work.printLine (message ++ "\n")
  Work.printLine "Documentation generation stopped. No partial results saved.\n"

def serviceFailed (text context : String) (stop : Bool) : Work Unit := do
  let message := (ServiceFailure.ofText text).message context
  if stop then throw (.reported .service message)
  showServiceFailure message ""

end CodeAtlas.Console
