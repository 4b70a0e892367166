import CodeAtlas.Proofs.CallGraph.Gathering
import CodeAtlas.Proofs.CallGraph.Resolution

/-!
The ends of the edges that are drawn. An edge is drawn for every relation that is marked as
resolved, a node for every component. A callee that was looked up is a component, but nothing looks
up callers, and a mark that an analysis has set itself stays where the look-up finds nothing. So an
edge can lead from or to something that is not drawn; here it is said when, and in which languages.
-/

namespace CodeAtlas.CallGraph

variable {graph : CallGraph} {parsers : Parsers} {files : List SourceFile} {relation : Relation}

def nodes (graph : CallGraph) : List String :=
  graph.nodeElements.map NodeElement.id

/-- Every edge that is drawn leads from a node to a node. -/
def EndsDrawn (graph : CallGraph) : Prop :=
  ∀ edge ∈ graph.edgeElements, edge.source ∈ graph.nodes ∧ edge.target ∈ graph.nodes

instance (graph : CallGraph) : Decidable graph.EndsDrawn :=
  inferInstanceAs (Decidable (∀ edge ∈ graph.edgeElements,
    edge.source ∈ graph.nodes ∧ edge.target ∈ graph.nodes))

/-- No relation with a known callee starts outside the components, and the first of the relations
from a caller to an unknown callee carries no mark. -/
def Anchored (graph : CallGraph) : Prop :=
  ∀ relation ∈ graph.relations,
    (Known graph.functions relation.callee → relation.caller ∈ graph.functions.keys) ∧
      (¬ Known graph.functions relation.callee →
        graph.relations.find? (fun other => other.pair = relation.pair) = some relation →
          relation.resolved = false)

theorem nodes_eq_keys (graph : CallGraph) : graph.nodes = graph.functions.keys := by
  unfold nodes nodeElements
  rw [List.map_map]
  rfl

theorem mem_edgeElements_iff {edge : EdgeElement} :
    edge ∈ graph.edgeElements ↔
      ∃ relation ∈ graph.relations, relation.resolved = true ∧ edgeElement relation = edge := by
  unfold edgeElements resolvedRelations
  simp only [List.mem_map, List.mem_filter, and_assoc]

/-! ## Edges after the look-up -/

/-- A relation that is left after both steps was looked up, and then leads to a component, or is
unchanged: it was the first with its ends before. -/
theorem kept_cases {after : Relation} (member : after ∈ graph.resolve.deduplicate.relations) :
    (∃ before ∈ graph.relations, Known graph.functions before.callee ∧
        before.caller = after.caller ∧ after.callee ∈ graph.functions.keys) ∨
      ¬ Known graph.functions after.callee ∧
        graph.relations.find? (fun other => other.pair = after.pair) = some after := by
  rcases exists_resolution member with ⟨before, present, resolution⟩
  by_cases known : Known graph.functions before.callee
  · exact .inl ⟨before, present, known, resolution.caller.symm,
      (resolution.known known).2.mem_keys⟩
  · have unknown : ¬ Known graph.functions after.callee := (resolution.unknown known).1 ▸ known
    have first := mem_deduplicate_iff.mp member
    rw [find?_resolve_of_unknown unknown] at first
    exact .inr ⟨unknown, first⟩

theorem anchored_of_endsDrawn (drawn : graph.resolve.deduplicate.EndsDrawn) :
    graph.Anchored := by
  have ends : ∀ after ∈ graph.resolve.deduplicate.relations, after.resolved = true →
      after.caller ∈ graph.functions.keys ∧ after.callee ∈ graph.functions.keys := by
    intro after member marked
    have both := drawn (edgeElement after) (mem_edgeElements_iff.mpr ⟨after, member, marked, rfl⟩)
    rw [nodes_eq_keys] at both
    exact both
  intro relation member
  constructor
  · intro known
    rcases exists_resolved_of_known member known with ⟨after, present, caller, marked, _⟩
    exact caller ▸ (ends after present marked).1
  · intro unknown first
    have kept : relation ∈ graph.resolve.deduplicate.relations := by
      rw [mem_deduplicate_iff, find?_resolve_of_unknown unknown, first]
    by_contra marked
    rw [Bool.not_eq_false] at marked
    exact unknown (known_of_mem_keys (ends relation kept marked).2)

theorem endsDrawn_of_anchored (anchored : graph.Anchored) :
    graph.resolve.deduplicate.EndsDrawn := by
  intro edge drawn
  rcases mem_edgeElements_iff.mp drawn with ⟨after, member, marked, rfl⟩
  rw [nodes_eq_keys]
  rcases kept_cases member with ⟨before, present, known, caller, callee⟩ | ⟨unknown, first⟩
  · have source := (anchored before present).1 known
    rw [caller] at source
    exact ⟨source, callee⟩
  · have unmarked := (anchored after (List.mem_of_find?_eq_some first)).2 unknown first
    rw [marked] at unmarked
    cases unmarked

/-! ## Edges of files -/

theorem exists_file_of_mem_relations (member : relation ∈ (gather parsers files).relations) :
    ∃ file ∈ files, relation ∈ (findings parsers file).relations := by
  rw [relations_gather] at member
  exact List.mem_flatMap.mp member

theorem exists_straying (member : relation ∈ (gather parsers files).relations)
    (absent : relation.caller ∉ (gather parsers files).functions.keys) :
    ∃ file ∈ files, file.language ∈ strayingLanguages ∧
      relation ∈ (findings parsers file).relations := by
  rcases exists_file_of_mem_relations member with ⟨file, present, found⟩
  refine ⟨file, present, ?_, found⟩
  by_contra own
  exact absent (id_mem_keys_gather present (callersReported_findings own relation found))

theorem exists_marking (member : relation ∈ (gather parsers files).relations)
    (marked : relation.resolved = true)
    (absent : relation.callee ∉ (gather parsers files).functions.keys) :
    ∃ file ∈ files, file.language ∈ markingLanguages ∧
      relation ∈ (findings parsers file).relations := by
  rcases exists_file_of_mem_relations member with ⟨file, present, found⟩
  refine ⟨file, present, ?_, found⟩
  by_contra own
  exact absent (id_mem_keys_gather present (markedReported_findings own relation found marked))

/-- Whatever the files hold, every edge leads from a node to a node exactly if what was gathered is
anchored. An edge from something that is not drawn stems from a relation in C++, C#, JavaScript or
Python, and an edge to something that is not drawn from a relation with the same ends that the
analysis of C or JavaScript has marked. -/
theorem endsDrawn_iff_anchored (parsers : Parsers) (files : List SourceFile) :
    let graph := ofFiles parsers files
    (graph.EndsDrawn ↔ (gather parsers files).Anchored) ∧
      ∀ edge ∈ graph.edgeElements,
        (edge.source ∉ graph.nodes → ∃ file ∈ files, file.language ∈ strayingLanguages ∧
          ∃ relation ∈ (findings parsers file).relations, relation.caller = edge.source) ∧
        (edge.target ∉ graph.nodes → ∃ file ∈ files, file.language ∈ markingLanguages ∧
          ∃ relation ∈ (findings parsers file).relations,
            relation.resolved = true ∧ relation.pair = (edge.source, edge.target)) := by
  intro graph
  refine ⟨⟨anchored_of_endsDrawn, endsDrawn_of_anchored⟩, ?_⟩
  intro edge drawn
  rcases mem_edgeElements_iff.mp drawn with ⟨after, member, marked, rfl⟩
  have keys : graph.nodes = (gather parsers files).functions.keys := nodes_eq_keys graph
  rw [keys]
  constructor
  · intro absent
    rcases exists_resolution member with ⟨before, present, resolution⟩
    have caller : before.caller = (edgeElement after).source := resolution.caller.symm
    rcases exists_straying present (caller ▸ absent) with ⟨file, fileMember, straying, found⟩
    exact ⟨file, fileMember, straying, before, found, caller⟩
  · intro absent
    rcases kept_cases member with ⟨_, _, _, _, callee⟩ | ⟨_, first⟩
    · exact absurd callee absent
    · rcases exists_marking (List.mem_of_find?_eq_some first) marked absent with
        ⟨file, fileMember, marking, found⟩
      exact ⟨file, fileMember, marking, after, found, marked, rfl⟩

/-- A function that reads a global variable. A variable is no component, but C marks its uses. -/
def globalReader : SourceFile :=
  ⟨"c", ⟨"m.c", "", "int g;\nint f(void) { return g; }\n"⟩⟩

def globalReaderParsers : Parsers :=
  let tree := .node "translation_unit" 0 33 [
    .node "declaration" 0 6 [.node "identifier" 4 5 []],
    .node "function_definition" 7 32 [
      .node "function_declarator" 11 18 [.node "identifier" 11 12 []],
      .node "compound_statement" 19 32 [
        .node "return_statement" 21 30 [.node "identifier" 28 29 []]]]]
  ⟨fun _ _ => tree, fun _ => none⟩

/-- The edge from the function to the variable has no node at its end. -/
theorem globalReader_not_endsDrawn :
    ¬ (ofFiles globalReaderParsers [globalReader]).EndsDrawn := by
  decide +kernel

end CodeAtlas.CallGraph
