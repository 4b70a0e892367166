import CodeAtlas.Text.Basic

/-!
Style sheets: rules with one declaration on each line, and an empty line between two of them. Some
rules and lines stand on several pages.
-/

namespace CodeAtlas.Markup

def block (heading : String) (lines : List String) : List String :=
  (heading ++ " \x7b") :: Text.indented 4 lines ++ ["\x7d"]

def rule (selector : String) (declarations : List String) : List String :=
  block selector ((declarations.flatMap (Text.split · "; ")).map (· ++ ";"))

def sheet (blocks : List (List String)) : List String :=
  [""].intercalate blocks

def palette : List String := [
  "--primary-color: #2563eb; --secondary-color: #f1f5f9",
  "--text-color: #334155; --border-color: #e2e8f0"]

def plainText : List String := [
  "font-family: -apple-system, BlinkMacSystemFont, 'Segoe UI', Roboto, sans-serif",
  "line-height: 1.6; color: var(--text-color)"]

def noSpacing : List String := rule "*" ["margin: 0; padding: 0; box-sizing: border-box"]

/-- A page with a bar of some width at its side. -/
def besideBar (width : String) : List (List String) := [
  noSpacing,
  rule "body" (plainText ++ ["background-color: #ffffff"]),
  rule ".container" ["display: flex; min-height: 100vh"],
  rule ".sidebar" ["width: " ++ width ++ "; background-color: var(--secondary-color)",
    "border-right: 1px solid var(--border-color); padding: 20px; overflow-y: auto",
    "position: fixed; height: 100vh"],
  rule ".content" ["flex: 1; margin-left: " ++ width ++ "; padding: 40px 60px",
    "max-width: calc(100% - " ++ width ++ ")"]]

/-- On a narrow screen the bar stands above the page. -/
def belowBar (screen : String) (bar : List String) : List String :=
  block ("@media (max-width: " ++ screen ++ ")") (sheet [
    rule ".sidebar" ("width: 100%; position: relative; height: auto" :: bar),
    rule ".content" ["margin-left: 0; padding: 20px; max-width: 100%"]])

def activeItem : List String :=
  rule ".nav-item.active" ["background-color: var(--primary-color); color: white"]

/-- A rule for elements of a document. -/
def content (elements : String) (declarations : List String) : List String :=
  rule (Text.join ", " ((Text.split elements ", ").map (".markdown-content " ++ ·))) declarations

def contentTitle : List String :=
  content "h1" ["font-size: 2.5rem; font-weight: 700; color: #1e293b; margin-bottom: 1rem",
    "border-bottom: 2px solid var(--border-color); padding-bottom: 0.5rem"]

def contentText (indentation : String) : List (List String) := [
  content "p" ["margin-bottom: 1rem; color: #475569"],
  content "ul, ol" ["margin-bottom: 1rem; padding-left: " ++ indentation],
  content "li" ["margin-bottom: 0.5rem; color: #475569"]]

def contentCells : List String :=
  content "th, td" ["border: 1px solid var(--border-color); padding: 0.75rem; text-align: left"]

def opening : List String := [
  "<!DOCTYPE html>",
  "<html lang=\"en\">",
  "<head>",
  "    <meta charset=\"UTF-8\">",
  "    <meta name=\"viewport\" content=\"width=device-width, initial-scale=1.0\">"]

def diagramSource : String :=
  "    <script src=\"https://cdn.jsdelivr.net/npm/mermaid@11.9.0/dist/mermaid.min.js\"></script>"

def diagramColors : List String := [
  "    theme: 'default',",
  "    themeVariables: \x7b",
  "        primaryColor: '#2563eb',",
  "        primaryTextColor: '#334155',",
  "        primaryBorderColor: '#e2e8f0',",
  "        lineColor: '#64748b',"]

end CodeAtlas.Markup
