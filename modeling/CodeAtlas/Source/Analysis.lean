import CodeAtlas.Source.C
import CodeAtlas.Source.CSharp
import CodeAtlas.Source.Cpp
import CodeAtlas.Source.Java
import CodeAtlas.Source.JavaScript
import CodeAtlas.Source.Python
import CodeAtlas.Source.TypeScript

/-!
The analysis of one file by its language, of its tree or with the parsers at hand.
-/

namespace CodeAtlas

namespace Source

def atPath (path repository text : String) : Source :=
  ⟨Path.clean path, repository, text⟩

/-- The findings of the analysis for a language; a language without one has none. -/
def analyzeTree (language : String) (source : Source) (tree : SyntaxTree) :
    Except SourceError Findings :=
  match language with
  | "c" => C.analyze source tree
  | "cpp" => Cpp.analyze source tree
  | "java" => Java.analyze source tree
  | "csharp" => CSharp.analyze source tree
  | "javascript" => return JavaScript.analyze source (some tree)
  | "typescript" => return TypeScript.analyze source (some tree)
  | _ => return ⟨[], []⟩

end Source

/-- The parsers: a concrete syntax tree for a language and a text, and the abstract tree of a
Python module, which is missing if the text does not parse. -/
structure Parsers where
  tree : String → String → SyntaxTree
  python : String → Option PythonTree

def Source.analyze (parsers : Parsers) (language : String) (source : Source) :
    Except SourceError Findings :=
  if language == "python" then return Python.analyze source (parsers.python source.text)
  else source.analyzeTree language (parsers.tree language source.text)

end CodeAtlas
