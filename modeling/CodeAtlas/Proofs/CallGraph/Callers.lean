import CodeAtlas.Proofs.CallGraph.DirectReference
import CodeAtlas.Proofs.CallGraph.Gathering

/-!
The callers of a file in C, Java or TypeScript. Whatever the text and its tree are, the analysis of
such a file reports the component that a relation starts from. The component stays known under its
identifier when files are gathered, even if a later file displaces it, so the inventory finds a
component for every such caller and enters each dependency whose callee it can find.
-/

namespace CodeAtlas.CallGraph

variable {parsers : Parsers} {files : List SourceFile}

/-- The languages whose relations start from components of the same file. -/
def rootedLanguages : List String := ["c", "java", "typescript"]

theorem callersReported_rooted {file : SourceFile} (rooted : file.language ∈ rootedLanguages) :
    (findings parsers file).CallersReported := by
  apply callersReported_findings
  intro straying
  simp only [rootedLanguages, strayingLanguages, List.mem_cons, List.not_mem_nil, or_false]
    at rooted straying
  rcases rooted with same | same | same <;> rw [same] at straying <;> revert straying <;> decide

def inventory (graph : CallGraph) : Inventory :=
  .build (graph.functions.values.map ComponentRecord.ofComponent) graph.relations

theorem identified_gather (parsers : Parsers) (files : List SourceFile) :
    Inventory.Identified (gather parsers files).functions := by
  intro entry member
  have found := ((gather parsers files).functions.get?_eq_some_iff entry.1 entry.2).mpr member
  rw [get?_gather] at found
  have same : entry.2.id = entry.1 := by simpa using List.find?_some found
  have present := List.mem_reverse.mp (List.mem_of_find?_eq_some found)
  rcases mem_reported_iff.mp present with ⟨file, _, inside⟩
  rcases (within_findings parsers file entry.2 inside).qualified with ⟨_, qualified⟩
  exact ⟨same, same ▸ qualified.ne_empty⟩

/-- A relation whose caller is the key of a component gives that component, or the one that the
caller refers to, the dependency that its callee stands for. -/
theorem exists_dependent {graph : CallGraph} (identified : Inventory.Identified graph.functions)
    {relation : Relation} (member : relation ∈ graph.relations)
    (known : relation.caller ∈ graph.functions.keys) :
    ∃ id component, graph.inventory.references.get? relation.caller = some id ∧
      graph.inventory.components.get? id = some component ∧
      ∀ dependency, graph.inventory.calleeId? relation.callee = some dependency →
        dependency ∈ component.dependsOn := by
  have related := Inventory.related_build
    (graph.functions.values.map ComponentRecord.ofComponent) graph.relations
  have settled := Inventory.settled_records
    (graph.functions.values.map ComponentRecord.ofComponent)
  rcases ((Inventory.ofFunctions graph.functions).references.mem_keys_iff _).mp
    (Inventory.mem_references_ofFunctions identified known) with ⟨id, referenced⟩
  have held : id ∈ graph.inventory.components.keys := by
    have heldBefore := settled.references relation.caller id referenced
    exact related.keys ▸ heldBefore
  rcases (graph.inventory.components.mem_keys_iff id).mp held with ⟨component, found⟩
  refine ⟨id, component, ?_, found, ?_⟩
  · exact (congrArg (OrderedMap.get? · relation.caller) related.references).trans referenced
  · intro dependency resolved
    apply (related.dependencies id component found dependency).mpr
    exact ⟨relation, member, referenced, (related.callees relation.callee) ▸ resolved⟩

/-- Whatever the source and its tree are, every relation that the analysis of C, Java or TypeScript
returns starts from a component that it returns. So, for every list of files, a relation that
starts where one of a file in these languages starts has a component for its caller in the
inventory of the files, and that component depends on whatever the callee stands for. -/
theorem callers_reported_and_known :
    (∀ (source : Source) (tree : SyntaxTree),
      Ensures (Source.C.analyze source tree) Findings.CallersReported ∧
      Ensures (Source.Java.analyze source tree) Findings.CallersReported ∧
      (Source.TypeScript.analyze source (some tree)).CallersReported) ∧
    ∀ (parsers : Parsers) (files : List SourceFile), ∀ file ∈ files,
      file.language ∈ rootedLanguages → ∀ found ∈ (findings parsers file).relations,
        ∀ relation ∈ (ofFiles parsers files).relations, relation.caller = found.caller →
          let inventory := (ofFiles parsers files).inventory
          ∃ id component, inventory.references.get? relation.caller = some id ∧
            inventory.components.get? id = some component ∧
            ∀ dependency, inventory.calleeId? relation.callee = some dependency →
              dependency ∈ component.dependsOn := by
  constructor
  · intro source tree
    refine ⟨Source.C.callersReported_analyze source tree, ?_,
      (Source.TypeScript.plain_analyze source (some tree)).1⟩
    exact Ensures.imp (Source.Java.plain_analyze source tree) fun _ plain => plain.1
  · intro parsers files file present rooted found started relation member same
    -- Neither the look-up of callees nor the removal of repetitions touches the components.
    have identified : Inventory.Identified (ofFiles parsers files).functions :=
      identified_gather parsers files
    have reported : found.caller ∈ (findings parsers file).ids :=
      callersReported_rooted rooted found started
    apply exists_dependent identified member
    exact same ▸ id_mem_keys_gather present reported

/-- A class with a field of a second class. -/
def fieldHolder : SourceFile :=
  ⟨"java", ⟨"A.java", "", "class A { B b; }\nclass B { }\n"⟩⟩

def fieldHolderParsers : Parsers :=
  let tree := .node "program" 0 29 [
    .node "class_declaration" 0 16 [
      .node "identifier" 6 7 [],
      .node "class_body" 8 16 [
        .node "field_declaration" 10 14 [.node "type_identifier" 10 11 []]]],
    .node "class_declaration" 17 28 [.node "identifier" 23 24 []]]
  ⟨fun _ _ => tree, fun _ => none⟩

/-- The field makes the first class depend on the second. -/
theorem fieldHolder_dependency_entered :
    fieldHolder.language ∈ rootedLanguages ∧
      (⟨"A.A", "B", some 1, false⟩ : Relation) ∈
        (findings fieldHolderParsers fieldHolder).relations ∧
      (⟨"A.A", "A.B", some 1, true⟩ : Relation) ∈
        (ofFiles fieldHolderParsers [fieldHolder]).relations ∧
      let inventory := (ofFiles fieldHolderParsers [fieldHolder]).inventory
      ∃ id component, inventory.references.get? "A.A" = some id ∧
        inventory.components.get? id = some component ∧
        ∀ dependency, inventory.calleeId? "A.B" = some dependency →
          dependency ∈ component.dependsOn := by
  have started : (⟨"A.A", "B", some 1, false⟩ : Relation) ∈
      (findings fieldHolderParsers fieldHolder).relations := by decide +kernel
  have kept : (⟨"A.A", "A.B", some 1, true⟩ : Relation) ∈
      (ofFiles fieldHolderParsers [fieldHolder]).relations := by decide +kernel
  refine ⟨by decide, started, kept, ?_⟩
  exact callers_reported_and_known.2 fieldHolderParsers [fieldHolder] fieldHolder
    List.mem_cons_self (by decide) _ started _ kept rfl

end CodeAtlas.CallGraph
