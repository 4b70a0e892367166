import CodeAtlas.Markup.Unescape
import CodeAtlas.Server.Page.Document
import CodeAtlas.Workspace.Basic

/-!
What a request is answered with, and the documents that both servers show. Documents are written in
Markdown; how that becomes markup is a parameter.
-/

namespace CodeAtlas.Server

inductive Reply where
  | page (text : String)
  | record (value : Json)
  | redirect (address : String)
  | refused (status : Nat) (detail : String)

/-- How Markdown becomes markup. -/
abbrev Renderer := String → String

def diagramStart : List Char := "<pre><code class=\"language-mermaid\">".toList

def diagramEnd : List Char := "</code></pre>".toList

/-- Turns blocks of code that are diagrams into what is drawn in the browser: from a start to the
first end after it. The first argument bounds the number of diagrams. -/
def showDiagrams : Nat → List Char → List Char
  | 0, text => text
  | bound + 1, text =>
    match Text.Chars.cut? diagramStart text with
    | none => text
    | some (before, rest) =>
      match Text.Chars.cut? diagramEnd rest with
      | none => text
      | some (code, rest) =>
        before ++ "<div class=\"mermaid\">".toList
          ++ (Markup.unescape (String.ofList code)).toList ++ "</div>".toList
          ++ showDiagrams bound rest

def markup (render : Renderer) (content : String) : String :=
  let rendered := render content
  String.ofList (showDiagrams rendered.length rendered.toList)

/-- The title in the first line of a document, if it is a heading of the first level. -/
def titleIn? (content : String) : Option String :=
  let first := Text.strip ((Text.split content "\n").headD "")
  (Text.dropStart? first "# ").map Text.strip

/-- The title of the document at a path; one that cannot be read is called by its file. -/
def titleOf (disk : Disk) (path : String) : String :=
  ((disk.read path).toOption.bind (titleIn? ∘ Text.unifyBreaks)).getD
    (Page.heading (Path.stem path))

/-- The page of a document with some text. -/
def pageFrom (render : Renderer) (path : String)
    (document : String → String → Except Fault Page.Document) (text : String) :
    Except Fault String := do
  let content := Text.unifyBreaks text
  let title := (titleIn? content).getD (Page.heading (Path.stem path))
  (← document title (markup render content)).render

/-- Shows the document at a path. Why that fails is not put into words. -/
def shown (render : Renderer) (disk : Disk) (path name : String)
    (document : String → String → Except Fault Page.Document) : Reply :=
  match disk.read path >>= pageFrom render path document with
  | .ok page => .page page
  | .error _ => .refused 500 ("Error reading " ++ name ++ ": ")

end CodeAtlas.Server
