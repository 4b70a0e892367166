import CodeAtlas.Proofs.CallGraph.Inventory
import CodeAtlas.Proofs.CallGraph.Resolution

/-!
The inventory of a resolved call graph needs no search by name. The look-up of callees knows every
name of every component, so a callee that it leaves unknown is the name of none, and every other
callee is the identifier of a component.
-/

namespace CodeAtlas.Inventory

/-! ## What the records leave -/

theorem mem_keys_references_addRecord (inventory : Inventory) (record : ComponentRecord)
    (name : String) :
    name ∈ (inventory.addRecord record).references.keys ↔
      name ∈ inventory.references.keys ∨
        record.id ≠ "" ∧ (name = record.id ∨ name = record.fileReference) := by
  by_cases unnamed : record.id = ""
  · simp [addRecord, unnamed]
  · simp only [addRecord, beq_iff_eq, unnamed, if_false, ne_eq, not_false_eq_true, true_and]
    split
    · simp only [OrderedMap.mem_keys_insert]
      grind
    · rename_i same
      rw [not_not] at same
      simp only [same, OrderedMap.mem_keys_insert]
      grind

theorem id_mem_references {records : List ComponentRecord} {record : ComponentRecord}
    (member : record ∈ records) (identified : record.id ≠ "") :
    record.id ∈ (records.foldl addRecord empty).references.keys := by
  suffices ∀ (inventory : Inventory) (name : String),
      (name ∈ inventory.references.keys ∨ ∃ other ∈ records, other.id ≠ "" ∧ name = other.id) →
        name ∈ (records.foldl addRecord inventory).references.keys from
    this empty record.id (.inr ⟨record, member, identified, rfl⟩)
  clear member
  induction records with
  | nil => simp
  | cons first rest induction =>
    intro inventory name known
    refine induction _ _ ?_
    rw [mem_keys_references_addRecord]
    rcases known with old | ⟨other, member, filled, equal⟩
    · exact .inl (.inl old)
    · rcases List.mem_cons.mp member with rfl | later
      · exact .inl (.inr ⟨filled, .inl equal⟩)
      · exact .inr ⟨other, later, filled, equal⟩

theorem exists_record {records : List ComponentRecord} {id : String} {component : Component}
    (found : (records.foldl addRecord empty).components.get? id = some component) :
    ∃ record ∈ records, record.toComponent = component := by
  suffices ∀ inventory : Inventory,
      (records.foldl addRecord inventory).components.get? id = some component →
        (∃ record ∈ records, record.toComponent = component) ∨
          inventory.components.get? id = some component by
    rcases this empty found with fromRecord | absent
    · exact fromRecord
    · simp [empty] at absent
  clear found
  induction records with
  | nil => exact fun _ found => .inr found
  | cons record rest induction =>
    intro inventory found
    rcases induction _ found with ⟨later, member, equal⟩ | before
    · exact .inl ⟨later, List.mem_cons_of_mem record member, equal⟩
    · unfold addRecord at before
      split at before
      · exact .inr before
      · dsimp only at before
        rw [OrderedMap.get?_insert] at before
        split at before
        · exact .inl ⟨record, List.mem_cons_self, Option.some.inj before⟩
        · exact .inr before

/-! ## The search by name -/

theorem findByName_eq_none_iff (components : Components) (name : String) :
    findByName components name = none ↔
      ∀ id component, components.get? id = some component → component.name ≠ name := by
  simp only [findByName, Option.map_eq_none_iff, List.find?_eq_none, beq_iff_eq,
    OrderedMap.get?_eq_some_iff, Prod.forall]

/-- A callee that is known after the look-up is a key, so a callee that is no key is no name. -/
theorem not_isName_of_not_mem_keys {graph : CallGraph} {relation : Relation}
    (member : relation ∈ graph.resolve.deduplicate.relations)
    (absent : relation.callee ∉ graph.functions.keys) :
    ¬ CallGraph.IsName graph.functions relation.callee := by
  rcases CallGraph.exists_resolution member with ⟨before, _, resolution⟩
  intro named
  by_cases known : CallGraph.Known graph.functions before.callee
  · exact absent (resolution.known known).2.mem_keys
  · rw [(resolution.unknown known).1] at named
    exact known (CallGraph.known_of_isName named)

/-- The inventory of the components of a call graph alone. -/
def ofFunctions (functions : Components) : Inventory :=
  (functions.values.map ComponentRecord.ofComponent).foldl addRecord empty

/-- The components are identified by their keys. -/
def Identified (functions : Components) : Prop :=
  ∀ entry ∈ functions.entries, entry.2.id = entry.1 ∧ entry.1 ≠ ""

instance (functions : Components) : Decidable (Identified functions) :=
  inferInstanceAs (Decidable (∀ entry ∈ functions.entries, entry.2.id = entry.1 ∧ entry.1 ≠ ""))

theorem mem_references_ofFunctions {functions : Components} (identified : Identified functions)
    {key : String} (member : key ∈ functions.keys) :
    key ∈ (ofFunctions functions).references.keys := by
  rcases List.mem_map.mp member with ⟨entry, present, rfl⟩
  rcases identified entry present with ⟨sameId, filled⟩
  have record : ComponentRecord.ofComponent entry.2 ∈
      functions.values.map ComponentRecord.ofComponent :=
    List.mem_map_of_mem (List.mem_map_of_mem present)
  have known := id_mem_references record (sameId.trans_ne filled)
  exact sameId ▸ known

theorem name_isName_of_ofFunctions {functions : Components} {id : String} {component : Component}
    (found : (ofFunctions functions).components.get? id = some component) :
    CallGraph.IsName functions component.name := by
  rcases exists_record found with ⟨record, member, rfl⟩
  rcases List.mem_map.mp member with ⟨function, value, rfl⟩
  rcases List.mem_map.mp value with ⟨entry, present, rfl⟩
  exact ⟨entry, present, .inr (.inl rfl)⟩

/-- The components of a resolved call graph are put into an inventory and its relations are added
one by one. Whenever the callee of the next relation is no reference of the inventory, no component
bears it as a name; so the component for a callee is always the one that is referenced, and the
search by name finds nothing. -/
theorem callee_found_by_reference (functions : Components) (relations : List Relation)
    (identified : Identified functions) :
    let graph := (CallGraph.mk functions relations).resolve.deduplicate
    ∀ before relation after, graph.relations = before ++ relation :: after →
      let inventory := before.foldl addRelation (ofFunctions graph.functions)
      (inventory.references.get? relation.callee = none →
        ∀ id component, inventory.components.get? id = some component →
          component.name ≠ relation.callee) ∧
        inventory.calleeId? relation.callee = inventory.references.get? relation.callee := by
  intro graph before relation after split inventory
  have member : relation ∈ graph.relations := split ▸ List.mem_append_right before List.mem_cons_self
  -- Relations change neither what a name refers to nor the name of a component.
  have related : Related (ofFunctions functions) before inventory :=
    (settled_records _).related.foldl before
  have noName : inventory.references.get? relation.callee = none →
      findByName inventory.components relation.callee = none := by
    intro unreferenced
    have unreferencedBase := related.references ▸ unreferenced
    have absent : relation.callee ∉ functions.keys := fun key =>
      (OrderedMap.get?_eq_none_iff _ _).mp unreferencedBase
        (mem_references_ofFunctions identified key)
    have sameSearch := related.callees relation.callee
    simp only [calleeId?, unreferenced, unreferencedBase] at sameSearch
    rw [sameSearch, findByName_eq_none_iff]
    intro id component found equal
    exact not_isName_of_not_mem_keys member absent (equal ▸ name_isName_of_ofFunctions found)
  refine ⟨fun unreferenced => (findByName_eq_none_iff _ _).mp (noName unreferenced), ?_⟩
  unfold calleeId?
  split
  · rename_i id found
    exact found.symm
  · rename_i unreferenced
    rw [noName unreferenced, unreferenced]

/-- Two components of one name. -/
def twoRuns : Components :=
  let run (id file : String) : Component :=
    { id := id
      name := "run"
      kind := "function"
      filePath := file
      relativePath := file
      componentId := some id }
  .ofList [("a.run", run "a.run" "a.py"), ("b.run", run "b.run" "b.py")]

/-- The call of the shared name goes to the later component, and the call of a name that no
component bears is found nowhere. -/
theorem twoRuns_found_by_reference :
    Identified twoRuns ∧
      let inventory := [⟨"a.run", "b.run", some 3, true⟩].foldl addRelation (ofFunctions twoRuns)
      (inventory.references.get? "lib.stop" = none →
        ∀ id component, inventory.components.get? id = some component →
          component.name ≠ "lib.stop") ∧
        inventory.calleeId? "lib.stop" = inventory.references.get? "lib.stop" := by
  refine ⟨by decide, ?_⟩
  exact callee_found_by_reference twoRuns
    [⟨"a.run", "run", some 3, false⟩, ⟨"b.run", "lib.stop", some 5, false⟩] (by decide)
    [⟨"a.run", "b.run", some 3, true⟩] ⟨"b.run", "lib.stop", some 5, false⟩ [] (by decide)

end CodeAtlas.Inventory
