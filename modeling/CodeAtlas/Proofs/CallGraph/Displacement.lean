import CodeAtlas.Proofs.CallGraph.Gathering
import Mathlib.Data.List.Pairwise

/-!
When the components of one file displace those of another. The components of all files share one
table, and the identifier of a component tells the stem of its file but not the ending: files that
differ in the ending alone, or in a slash where the other has a dot, can report the same identifier.
Then the later file wins. Nothing is lost exactly if no two files report a common identifier.
-/

namespace CodeAtlas.CallGraph

open List

variable {parsers : Parsers} {files : List SourceFile}

/-- Every component that a file reports has its identifier in the table, there for a component of
that file. -/
def KeepsAll (parsers : Parsers) (files : List SourceFile) : Prop :=
  ∀ file ∈ files, ∀ component ∈ (findings parsers file).components,
    ((ofFiles parsers files).functions.get? component.id).map Component.filePath =
      some file.source.path

/-- Two files report no common identifier. -/
def Apart (parsers : Parsers) (first second : SourceFile) : Prop :=
  ∀ component ∈ (findings parsers first).components,
    ∀ other ∈ (findings parsers second).components, component.id ≠ other.id

instance : Std.Symm (Apart parsers) :=
  ⟨fun _ _ apart component member other present equal =>
    apart other present component member equal.symm⟩

/-- The stem of the second file goes on, after a dot, from the stem of the first or equals it. -/
def Continues (first second : SourceFile) : Prop :=
  ∃ rest, stem second ++ "." = stem first ++ "." ++ rest

/-! ## Identifiers of two files -/

/-- A common identifier starts with both dotted stems, so one of them starts with the other. -/
theorem continues_of_common {first second : SourceFile} {name other id : String}
    (filled : stem first ≠ "") (otherFilled : stem second ≠ "")
    (qualified : Qualified (stem first) name id)
    (otherQualified : Qualified (stem second) other id) :
    Continues first second ∨ Continues second first := by
  have dotted : id = stem first ++ "." ++ name :=
    qualified.resolve_right fun empty => filled empty.1
  have otherDotted : id = stem second ++ "." ++ other :=
    otherQualified.resolve_right fun empty => otherFilled empty.1
  have equal : (stem first ++ ".").toList ++ name.toList =
      (stem second ++ ".").toList ++ other.toList := by
    rw [← String.toList_append, ← String.toList_append, ← dotted, ← otherDotted]
  rcases append_eq_append_iff.mp equal with ⟨rest, split, _⟩ | ⟨rest, split, _⟩
  · exact .inl ⟨String.ofList rest, String.toList_inj.mp (by simpa using split)⟩
  · exact .inr ⟨String.ofList rest, String.toList_inj.mp (by simpa using split)⟩

theorem apart_of_stems {first second : SourceFile} (filled : stem first ≠ "")
    (otherFilled : stem second ≠ "") (ahead : ¬ Continues first second)
    (behind : ¬ Continues second first) : Apart parsers first second := by
  intro component member other present equal
  rcases (within_findings parsers first component member).qualified with ⟨_, qualified⟩
  rcases (within_findings parsers second other present).qualified with ⟨_, otherQualified⟩
  rw [equal] at qualified
  exact (continues_of_common filled otherFilled qualified otherQualified).elim ahead behind

/-! ## What the table keeps -/

theorem exists_file_of_get? {id : String} {component : Component}
    (found : (gather parsers files).functions.get? id = some component) :
    ∃ file ∈ files, component ∈ (findings parsers file).components ∧ component.id = id ∧
      component.filePath = file.source.path := by
  rw [get?_gather] at found
  have present := mem_reverse.mp (mem_of_find?_eq_some found)
  rcases mem_reported_iff.mp present with ⟨file, member, inside⟩
  exact ⟨file, member, inside, by simpa using find?_some found,
    (within_findings parsers file component inside).path⟩

theorem exists_get?_of_mem {file : SourceFile} (member : file ∈ files) {component : Component}
    (present : component ∈ (findings parsers file).components) :
    ∃ kept, (gather parsers files).functions.get? component.id = some kept :=
  (OrderedMap.mem_keys_iff _ _).mp (id_mem_keys_gather member (mem_map_of_mem present))

theorem get?_gather_append (parsers : Parsers) (earlier later : List SourceFile) (id : String) :
    (gather parsers (earlier ++ later)).functions.get? id =
      ((gather parsers later).functions.get? id).or
        ((gather parsers earlier).functions.get? id) := by
  simp only [get?_gather, reported, flatMap_append, reverse_append, find?_append]

theorem keepsAll_of_pairwise (apart : files.Pairwise (Apart parsers)) : KeepsAll parsers files := by
  intro file member component present
  rcases exists_get?_of_mem member present with ⟨kept, found⟩
  rcases exists_file_of_get? found with ⟨other, otherMember, inside, same, path⟩
  have sameFile : other = file := by
    by_contra different
    exact apart.forall otherMember member different kept inside component present same
  have unchanged : (ofFiles parsers files).functions.get? component.id = some kept := found
  rw [unchanged, Option.map_some, path, sameFile]

theorem pairwise_of_keepsAll (distinct : (files.map fun file => file.source.path).Nodup)
    (keeps : KeepsAll parsers files) : files.Pairwise (Apart parsers) := by
  rw [pairwise_iff_forall_sublist]
  intro first second sublist component member other present equal
  have inOrder : ([first] ++ [second]).Sublist files := sublist
  rcases append_sublist_iff.mp inOrder with ⟨earlier, later, rfl, firstIn, secondIn⟩
  have firstMember := singleton_sublist.mp firstIn
  have secondMember := singleton_sublist.mp secondIn
  rcases exists_get?_of_mem secondMember present with ⟨kept, found⟩
  rcases exists_file_of_get? found with ⟨winner, winnerMember, _, _, path⟩
  have unchanged : (ofFiles parsers (earlier ++ later)).functions.get? component.id = some kept := by
    rw [equal]
    exact (get?_gather_append parsers earlier later other.id).trans (by rw [found]; rfl)
  have owned := keeps first (mem_append_left later firstMember) component member
  rw [unchanged, Option.map_some, path] at owned
  -- The component that is kept carries the path of a file after the first one.
  rw [map_append] at distinct
  exact (nodup_append.mp distinct).2.2 _ (mem_map_of_mem firstMember) _
    (mem_map_of_mem winnerMember) (Option.some.inj owned).symm

/-- For files with different paths: each component carries the path of its file and is identified by
the stem of the file and a name; all components are kept exactly if no two files report a common
identifier; and this is so, whatever the files hold, if no stem is empty or continues another. -/
theorem keepsAll_iff_apart (parsers : Parsers) (files : List SourceFile)
    (distinct : (files.map fun file => file.source.path).Nodup) :
    (∀ file ∈ files, (findings parsers file).Within file.source (stem file)) ∧
      (KeepsAll parsers files ↔ files.Pairwise (Apart parsers)) ∧
      ((∀ file ∈ files, stem file ≠ "") →
        files.Pairwise (fun first second => ¬ Continues first second ∧ ¬ Continues second first) →
        KeepsAll parsers files) := by
  refine ⟨fun file _ => within_findings parsers file, ?_, ?_⟩
  · exact ⟨pairwise_of_keepsAll distinct, keepsAll_of_pairwise⟩
  · intro filled separate
    refine keepsAll_of_pairwise (separate.imp_of_mem ?_)
    intro first second member otherMember unrelated
    exact apart_of_stems (filled first member) (filled second otherMember) unrelated.1 unrelated.2

/-- A script that declares one function `f`, and parsers that read it so. -/
def script (language path : String) : SourceFile :=
  ⟨language, ⟨path, "", "function f() {}\n"⟩⟩

def scriptParsers : Parsers :=
  let tree := .node "program" 0 16 [
    .node "function_declaration" 0 15 [
      .node "function" 0 8 [],
      .node "identifier" 9 10 [],
      .node "formal_parameters" 10 12 [],
      .node "statement_block" 13 15 []]]
  ⟨fun _ _ => tree, fun _ => none⟩

/-- Both functions of two scripts with different stems are kept. -/
theorem scripts_kept :
    let files := [script "javascript" "util.js", script "typescript" "lib/util.ts"]
    (files.map fun file => file.source.path).Nodup ∧ (reported scriptParsers files).length = 2 ∧
      KeepsAll scriptParsers files := by
  intro files
  have distinct : (files.map fun file => file.source.path).Nodup := by decide
  have first : stem (script "javascript" "util.js") = "util" := by decide +kernel
  have second : stem (script "typescript" "lib/util.ts") = "lib.util" := by decide +kernel
  refine ⟨distinct, by decide +kernel, ?_⟩
  refine (keepsAll_iff_apart scriptParsers files distinct).2.2 ?_ ?_
  · simp [files, first, second]
  · -- The stems already differ in their first character.
    have differ : ∀ {left right : String}, left.toList.head? ≠ right.toList.head? → left ≠ right :=
      fun different equal => different (congrArg (fun text => text.toList.head?) equal)
    have unrelated : (∀ rest, "lib.util." ≠ "util." ++ rest) ∧
        ∀ rest, "util." ≠ "lib.util." ++ rest :=
      ⟨fun rest => differ (by simp), fun rest => differ (by simp)⟩
    simpa [files, Continues, first, second] using unrelated

/-- Of two scripts that differ in the ending alone the first one loses its function. -/
theorem twin_scripts_displaced :
    let files := [script "javascript" "util.js", script "typescript" "util.ts"]
    (files.map fun file => file.source.path).Nodup ∧ ¬ KeepsAll scriptParsers files := by
  intro files
  have distinct : (files.map fun file => file.source.path).Nodup := by decide
  have first : "util.f" ∈ (findings scriptParsers (script "javascript" "util.js")).ids := by
    decide +kernel
  have second : "util.f" ∈ (findings scriptParsers (script "typescript" "util.ts")).ids := by
    decide +kernel
  refine ⟨distinct, fun keeps => ?_⟩
  have apart := List.rel_of_pairwise_cons (pairwise_of_keepsAll distinct keeps) List.mem_cons_self
  rcases List.mem_map.mp first with ⟨component, member, same⟩
  rcases List.mem_map.mp second with ⟨other, present, otherSame⟩
  exact apart component member other present (same.trans otherSame.symm)

end CodeAtlas.CallGraph
