import CodeAtlas.CallGraph.Files
import CodeAtlas.Proofs.Source.C
import CodeAtlas.Proofs.Source.CSharp
import CodeAtlas.Proofs.Source.Cpp
import CodeAtlas.Proofs.Source.Java
import CodeAtlas.Proofs.Source.JavaScript
import CodeAtlas.Proofs.Source.Python
import CodeAtlas.Proofs.Source.TypeScript

/-!
What is gathered from a list of files. Whatever the language, the components of a file carry its
path and are identified by its stem: the relative path without the ending of the language and with
dots in place of slashes. The gathered table holds for each identifier the component that was
reported last, so a file can displace the components of an earlier one.
-/

namespace CodeAtlas.CallGraph

open List

/-! ## The findings of one file -/

def findings (parsers : Parsers) (file : SourceFile) : Findings :=
  match file.source.analyze parsers file.language with
  | .ok findings => findings
  | .error _ => ⟨[], []⟩

/-- The endings that the identifiers of a language leave out. -/
def endings : String → List String
  | "python" => [".py", ".pyx"]
  | "c" => [".c", ".h"]
  | "cpp" => [".cpp", ".cc", ".cxx", ".hpp", ".h"]
  | "java" => [".java"]
  | "csharp" => [".cs"]
  | "javascript" => [".js", ".ts", ".jsx", ".tsx", ".mjs", ".cjs"]
  | "typescript" => [".ts", ".tsx", ".js", ".jsx", ".mjs", ".cjs"]
  | _ => []

/-- The part that the identifiers of all components of a file share. -/
def stem (file : SourceFile) : String :=
  file.source.modulePath (endings file.language)

variable {parsers : Parsers} {file : SourceFile}

theorem findings_of_ensures {property : Findings → Prop} (nothing : property ⟨[], []⟩)
    (each : Ensures (file.source.analyze parsers file.language) property) :
    property (findings parsers file) := by
  unfold findings
  split
  · rename_i found returned
    exact each found returned
  · exact nothing

theorem ensures_analyze {parsers : Parsers} {language : String} {source : Source}
    {property : Findings → Prop}
    (python : language = "python" →
      property (Source.Python.analyze source (parsers.python source.text)))
    (tree : language ≠ "python" →
      Ensures (source.analyzeTree language (parsers.tree language source.text)) property) :
    Ensures (source.analyze parsers language) property := by
  unfold Source.analyze
  split
  · rename_i isPython
    exact .pure (python (beq_iff_eq.mp isPython))
  · rename_i notPython
    exact tree fun equal => notPython (beq_iff_eq.mpr equal)

theorem within_findings (parsers : Parsers) (file : SourceFile) :
    (findings parsers file).Within file.source (stem file) := by
  refine findings_of_ensures (forall_mem_nil _) ?_
  unfold stem
  generalize file.language = language
  refine ensures_analyze ?_ fun _ => ?_
  · rintro rfl
    exact Source.Python.within_analyze file.source _
  · unfold Source.analyzeTree
    split
    · exact (Source.C.declared_analyze file.source _).imp fun _ => Findings.Declared.within
    · exact (Source.Cpp.declared_analyze file.source _).imp fun _ => Findings.Declared.within
    · exact (Source.Java.declared_analyze file.source _).imp fun _ => Findings.Declared.within
    · exact (Source.CSharp.declared_analyze file.source _).imp fun _ => Findings.Declared.within
    · exact .pure (Source.JavaScript.within_analyze file.source _)
    · exact .pure (Source.TypeScript.within_analyze file.source _)
    · exact .pure fun _ member => absurd member not_mem_nil

/-- The languages whose analyses may mark a relation to something that they do not report. -/
def markingLanguages : List String := ["c", "javascript"]

/-- The languages whose analyses may find a relation from something that they do not report. -/
def strayingLanguages : List String := ["cpp", "csharp", "javascript", "python"]

theorem markedReported_findings (own : file.language ∉ markingLanguages) :
    (findings parsers file).MarkedReported := by
  refine findings_of_ensures (forall_mem_nil _) ?_
  revert own
  generalize file.language = language
  intro own
  refine ensures_analyze (fun _ => Source.Python.markedReported_analyze file.source _) fun _ => ?_
  unfold Source.analyzeTree
  split
  · exact absurd (by decide) own
  · exact .imp (Source.Cpp.unmarked_analyze file.source _) fun _ =>
      Findings.markedReported_of_unmarked
  · exact .imp (Source.Java.plain_analyze file.source _) fun _ plain =>
      Findings.markedReported_of_unmarked plain.2
  · exact Source.CSharp.markedReported_analyze file.source _
  · exact absurd (by decide) own
  · exact .pure
      (Findings.markedReported_of_unmarked (Source.TypeScript.plain_analyze file.source _).2)
  · exact .pure fun _ member => absurd member not_mem_nil

/-- A relation that is marked as resolved in a Python or a C# file leads to a component that is
reported for the same file. -/
theorem marked_callees_in_file (source : Source) :
    (∀ tree, ∀ relation ∈ (Source.Python.analyze source tree).relations,
        relation.resolved = true → relation.callee ∈ (Source.Python.analyze source tree).ids) ∧
      ∀ tree found, Source.CSharp.analyze source tree = .ok found →
        ∀ relation ∈ found.relations, relation.resolved = true → relation.callee ∈ found.ids :=
  ⟨Source.Python.markedReported_analyze source, Source.CSharp.markedReported_analyze source⟩

def derivedSource : Source := ⟨"/r/shop.cs", "/r", "class A { }\nclass B : A { }\n"⟩

/-- A class and a class derived from it. -/
def derivedTree : SyntaxTree :=
  .node "compilation_unit" 0 28 [
    .node "class_declaration" 0 11 [.node "class" 0 5 [], .node "identifier" 6 7 []],
    .node "class_declaration" 12 27 [.node "class" 12 17 [], .node "identifier" 18 19 [],
      .node "base_list" 20 23 [.node "identifier" 22 23 []]]]

def creatingSource : Source := ⟨"/r/shop.py", "/r", "class A: pass\ndef b(): A()\n"⟩

/-- A class, and a function that calls it. -/
def creatingTree : PythonTree :=
  .node "Module" 0 0 [] [
    ("body", .node "ClassDef" 1 1 [("name", "A")] []),
    ("body", .node "FunctionDef" 2 2 [("name", "b")] [
      ("body", .node "Call" 2 2 [] [("func", .node "Name" 2 2 [("id", "A")] [])])])]

theorem marked_base_and_call_in_file :
    ((⟨"shop.b", "shop.A", some 2, true⟩ : Relation) ∈
        (Source.Python.analyze creatingSource (some creatingTree)).relations ∧
      "shop.A" ∈ (Source.Python.analyze creatingSource (some creatingTree)).ids) ∧
      ∃ found, Source.CSharp.analyze derivedSource derivedTree = .ok found ∧
        (⟨"shop.B", "shop.A", some 2, true⟩ : Relation) ∈ found.relations ∧
          "shop.A" ∈ found.ids := by
  have called : (⟨"shop.b", "shop.A", some 2, true⟩ : Relation) ∈
      (Source.Python.analyze creatingSource (some creatingTree)).relations := by decide +kernel
  have derives : (Source.CSharp.analyze derivedSource derivedTree).toOption.any (fun found =>
      (⟨"shop.B", "shop.A", some 2, true⟩ : Relation) ∈ found.relations) = true := by
    decide +kernel
  refine ⟨⟨called, (marked_callees_in_file creatingSource).1 _ _ called rfl⟩, ?_⟩
  cases returned : Source.CSharp.analyze derivedSource derivedTree with
  | error failure =>
    rw [returned] at derives
    cases derives
  | ok found =>
    rw [returned] at derives
    have base := of_decide_eq_true derives
    exact ⟨found, rfl, base, (marked_callees_in_file derivedSource).2 _ _ returned _ base rfl⟩

theorem callersReported_findings (own : file.language ∉ strayingLanguages) :
    (findings parsers file).CallersReported := by
  refine findings_of_ensures (forall_mem_nil _) ?_
  revert own
  generalize file.language = language
  intro own
  refine ensures_analyze (fun python => absurd (by rw [python]; decide) own) fun _ => ?_
  unfold Source.analyzeTree
  split
  · exact Source.C.callersReported_analyze file.source _
  · exact absurd (by decide) own
  · exact .imp (Source.Java.plain_analyze file.source _) fun _ plain => plain.1
  · exact absurd (by decide) own
  · exact absurd (by decide) own
  · exact .pure (Source.TypeScript.plain_analyze file.source _).1
  · exact .pure fun _ member => absurd member not_mem_nil

/-! ## The gathered relations and components -/

/-- The components of the files in the order in which they are reported. -/
def reported (parsers : Parsers) (files : List SourceFile) : List Component :=
  files.flatMap fun file => (findings parsers file).components

theorem mem_reported_iff {files : List SourceFile} {component : Component} :
    component ∈ reported parsers files ↔
      ∃ file ∈ files, component ∈ (findings parsers file).components :=
  mem_flatMap

theorem addFile_eq (graph : CallGraph) :
    addFile parsers graph file = graph.addFindings file.source.path (findings parsers file) := by
  cases returned : file.source.analyze parsers file.language with
  | ok found => simp only [addFile, findings, returned]
  | error failure => simp [addFile, findings, returned, addFindings]

theorem relations_gather (parsers : Parsers) (files : List SourceFile) :
    (gather parsers files).relations =
      files.flatMap fun file => (findings parsers file).relations := by
  suffices ∀ graph : CallGraph, (files.foldl (addFile parsers) graph).relations =
      graph.relations ++ files.flatMap fun file => (findings parsers file).relations from
    this .empty
  induction files with
  | nil => simp
  | cons file rest induction =>
    intro graph
    rw [foldl_cons, induction, addFile_eq, flatMap_cons, ← append_assoc]
    rfl

theorem functions_addFile (graph : CallGraph) :
    (addFile parsers graph file).functions =
      (findings parsers file).components.foldl (fun functions component =>
        functions.insert component.id component) graph.functions := by
  rw [addFile_eq]
  unfold addFindings
  dsimp only
  refine foldl_ext _ _ _ fun functions component member => ?_
  rcases (within_findings parsers file component member).qualified with ⟨_, qualified⟩
  have identified : (component.id == "") = false := by simpa using qualified.ne_empty
  simp [componentKey, identified]

theorem functions_gather (parsers : Parsers) (files : List SourceFile) :
    (gather parsers files).functions =
      (reported parsers files).foldl (fun functions component =>
        functions.insert component.id component) .empty := by
  suffices ∀ graph : CallGraph, (files.foldl (addFile parsers) graph).functions =
      (reported parsers files).foldl (fun functions component =>
        functions.insert component.id component) graph.functions from this .empty
  induction files with
  | nil => exact fun _ => rfl
  | cons file rest induction =>
    intro graph
    rw [foldl_cons, induction, functions_addFile]
    unfold reported
    rw [flatMap_cons, foldl_append]

/-- The table holds under an identifier the last component that was reported with it. -/
theorem get?_gather (parsers : Parsers) (files : List SourceFile) (id : String) :
    (gather parsers files).functions.get? id =
      (reported parsers files).reverse.find? fun component => component.id = id := by
  rw [functions_gather, OrderedMap.get?_foldl_insert, OrderedMap.get?_empty, Option.or_none]

theorem mem_keys_gather_iff {files : List SourceFile} {id : String} :
    id ∈ (gather parsers files).functions.keys ↔
      ∃ component ∈ reported parsers files, component.id = id := by
  rw [OrderedMap.mem_keys_iff, get?_gather]
  constructor
  · rintro ⟨component, found⟩
    refine ⟨component, mem_reverse.mp (mem_of_find?_eq_some found), ?_⟩
    simpa using find?_some found
  · rintro ⟨component, member, same⟩
    refine Option.isSome_iff_exists.mp (find?_isSome.mpr ?_)
    exact ⟨component, mem_reverse.mpr member, by simpa using same⟩

theorem id_mem_keys_gather {files : List SourceFile} (member : file ∈ files) {id : String}
    (found : id ∈ (findings parsers file).ids) : id ∈ (gather parsers files).functions.keys := by
  rcases mem_map.mp found with ⟨component, present, same⟩
  exact mem_keys_gather_iff.mpr ⟨component, mem_reported_iff.mpr ⟨file, member, present⟩, same⟩

end CodeAtlas.CallGraph
