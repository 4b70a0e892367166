import CodeAtlas.Text.Basic

/-!
Texts inside of markup: the characters with a meaning there are written by their names.
-/

namespace CodeAtlas.Markup

/-- The characters with a meaning and what is written for them. The ampersand comes first, so that
no ampersand of a name is written by its name again. -/
def entities : List (Char × String) :=
  [('&', "&amp;"), ('<', "&lt;"), ('>', "&gt;"), ('"', "&quot;"), ('\'', "&#39;")]

def escape (text : String) : String :=
  entities.foldl (fun text (char, name) => Text.replace text (String.ofList [char]) name) text

/-- How a template engine writes a text into a template. It is given the endings of the names of
templates that are to be escaped, and the name of the template. -/
abbrev Engine := List String → String → String → String

/-- Escapes the texts in templates whose names have one of the endings. -/
def byEnding : Engine := fun endings name text =>
  if endings.any fun ending => Text.endsWith name ("." ++ ending) then escape text else text

end CodeAtlas.Markup
