/-!
Programming languages by file extension.
-/

namespace CodeAtlas

def languageExtensions : List (String × String) :=
  [(".py", "python"), (".js", "javascript"), (".ts", "typescript"), (".jsx", "javascript"),
    (".tsx", "typescript"), (".java", "java"), (".cpp", "cpp"), (".cc", "cpp"), (".cxx", "cpp"),
    (".c++", "cpp"), (".c", "c"), (".h", "c"), (".hpp", "cpp"), (".hxx", "cpp"), (".h++", "cpp"),
    (".rs", "rust"), (".go", "go"), (".php", "php"), (".rb", "ruby"), (".swift", "swift"),
    (".kt", "kotlin"), (".scala", "scala"), (".cs", "csharp")]

def languageOfExtension? (extension : String) : Option String :=
  languageExtensions.lookup extension

end CodeAtlas
