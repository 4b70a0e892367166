import CodeAtlas.CallGraph.Build
import CodeAtlas.Proofs.Component

/-!
An inventory built from the records and relations of an analysis names only components that it
holds. All records come before all relations, so what a name stands for is settled when the first
dependency is added, and the dependencies of a component are what its relations resolve to.
-/

namespace CodeAtlas.Inventory

variable {inventory base : Inventory}

/-! ## After the records -/

/-- An inventory to which no relation has been added: every name stands for a component, and no
component has dependencies. -/
structure Settled (inventory : Inventory) : Prop where
  references : ∀ name id, inventory.references.get? name = some id →
    id ∈ inventory.components.keys
  independent : ∀ id component, inventory.components.get? id = some component →
    component.dependsOn = []

theorem settled_empty : Settled empty where
  references name id found := by simp [empty] at found
  independent id component found := by simp [empty] at found

theorem references_addRecord {record : ComponentRecord} {name id : String}
    (identified : record.id ≠ "")
    (found : (inventory.addRecord record).references.get? name = some id) :
    id = record.id ∨ inventory.references.get? name = some id := by
  have named : (record.id == "") = false := by simpa using identified
  simp only [addRecord, named, Bool.false_eq_true, if_false] at found
  -- The record is entered under its identifier and, if that differs, under its file and name.
  have once : ∀ {references : OrderedMap String String} {key : String},
      (references.insert key record.id).get? name = some id →
        id = record.id ∨ references.get? name = some id := by
    intro references key inserted
    rw [OrderedMap.get?_insert] at inserted
    split at inserted
    · exact .inl (Option.some.inj inserted).symm
    · exact .inr inserted
  split at found
  · rcases once found with new | old
    · exact .inl new
    · exact once old
  · exact once found

theorem Settled.addRecord (settled : Settled inventory) (record : ComponentRecord) :
    Settled (inventory.addRecord record) := by
  by_cases unnamed : record.id = ""
  · have same : inventory.addRecord record = inventory := by
      simp [Inventory.addRecord, unnamed]
    rwa [same]
  · have components : (inventory.addRecord record).components =
        inventory.components.insert record.id record.toComponent := by
      simp [Inventory.addRecord, unnamed]
    constructor
    · intro name id found
      rw [components, OrderedMap.mem_keys_insert]
      exact (references_addRecord unnamed found).imp_right (settled.references name id)
    · intro id component found
      rw [components, OrderedMap.get?_insert] at found
      split at found
      · rw [← Option.some.inj found]
        rfl
      · exact settled.independent id component found

theorem settled_records (records : List ComponentRecord) :
    Settled (records.foldl addRecord empty) := by
  suffices ∀ inventory, Settled inventory →
      Settled (records.foldl Inventory.addRecord inventory) from this empty settled_empty
  induction records with
  | nil => exact fun _ settled => settled
  | cons record rest induction =>
    exact fun inventory settled => induction _ (settled.addRecord record)

theorem Settled.calleeId?_mem (settled : Settled inventory) {name id : String}
    (found : inventory.calleeId? name = some id) :
    id ∈ inventory.components.keys := by
  unfold calleeId? at found
  split at found
  · rename_i reference known
    rw [← Option.some.inj found]
    exact settled.references name reference known
  · rcases Option.map_eq_some_iff.mp found with ⟨entry, first, rfl⟩
    exact List.mem_map_of_mem (List.mem_of_find?_eq_some first)

/-! ## After the relations -/

/-- The two names of a relation stand for these components. -/
def Resolves (inventory : Inventory) (relation : Relation) (caller callee : String) : Prop :=
  inventory.references.get? relation.caller = some caller ∧
    inventory.calleeId? relation.callee = some callee

theorem findByName_modify (components : Components) (id name : String)
    (change : Component → Component)
    (keeps : ∀ component, (change component).name = component.name) :
    findByName (components.modify id change) name = findByName components name := by
  unfold findByName OrderedMap.modify
  simp only [List.find?_map, Option.map_map]
  have test : ((fun entry : String × Component => entry.2.name == name) ∘
      fun entry : String × Component =>
        (entry.1, if entry.1 = id then change entry.2 else entry.2)) =
      fun entry => entry.2.name == name := by
    funext entry
    simp only [Function.comp_apply]
    split
    · rw [keeps]
    · rfl
  rw [test]
  rfl

theorem name_addDependency (component : Component) (id : String) :
    (component.addDependency id).name = component.name := by
  unfold Component.addDependency
  split <;> rfl

theorem mem_addDependency (component : Component) (id dependency : String) :
    dependency ∈ (component.addDependency id).dependsOn ↔
      dependency ∈ component.dependsOn ∨ dependency = id := by
  unfold Component.addDependency
  split
  · rename_i known
    constructor
    · exact .inl
    · rintro (old | rfl)
      · exact old
      · exact known
  · simp

/-- What an inventory has become by some relations: names stand for what they stood for, and each
component depends on what its relations resolve to. -/
structure Related (base : Inventory) (relations : List Relation) (inventory : Inventory) :
    Prop where
  references : inventory.references = base.references
  callees : ∀ name, inventory.calleeId? name = base.calleeId? name
  keys : inventory.components.keys = base.components.keys
  dependencies : ∀ id component, inventory.components.get? id = some component →
    ∀ dependency, dependency ∈ component.dependsOn ↔
      ∃ relation ∈ relations, base.Resolves relation id dependency

theorem Related.resolves_iff {relations : List Relation}
    (related : Related base relations inventory) (relation : Relation) (caller callee : String) :
    inventory.Resolves relation caller callee ↔ base.Resolves relation caller callee := by
  unfold Resolves
  rw [related.references, related.callees]

theorem Settled.related (settled : Settled base) : Related base [] base where
  references := rfl
  callees _ := rfl
  keys := rfl
  dependencies id component found dependency := by
    rw [settled.independent id component found]
    simp

theorem addRelation_of_resolves {relation : Relation} {caller callee : String}
    (resolves : inventory.Resolves relation caller callee) :
    inventory.addRelation relation =
      { inventory with
        components := inventory.components.modify caller fun component =>
          component.addDependency callee } := by
  simp only [addRelation, resolves.1, resolves.2]

theorem addRelation_of_not_resolves {relation : Relation}
    (unresolved : ∀ caller callee, ¬ inventory.Resolves relation caller callee) :
    inventory.addRelation relation = inventory := by
  unfold addRelation
  split
  · rename_i caller callee callerFound calleeFound
    exact absurd ⟨callerFound, calleeFound⟩ (unresolved caller callee)
  · rfl

theorem Related.addRelation {relations : List Relation} (related : Related base relations inventory)
    (relation : Relation) :
    Related base (relations ++ [relation]) (inventory.addRelation relation) := by
  by_cases resolved : ∃ caller callee, inventory.Resolves relation caller callee
  · rcases resolved with ⟨caller, callee, resolves⟩
    have resolvesBase := (related.resolves_iff relation caller callee).mp resolves
    rw [addRelation_of_resolves resolves]
    constructor
    case references => exact related.references
    case callees =>
      intro name
      rw [← related.callees name]
      unfold calleeId?
      rw [findByName_modify _ _ _ _ fun component => name_addDependency component callee]
    case keys => exact (OrderedMap.keys_modify _ _ _).trans related.keys
    case dependencies =>
      intro id component found dependency
      rw [OrderedMap.get?_modify] at found
      -- Only the caller of the relation gains a dependency.
      have gained : (∃ other ∈ relations ++ [relation], base.Resolves other id dependency) ↔
          (∃ other ∈ relations, base.Resolves other id dependency) ∨
            id = caller ∧ dependency = callee := by
        simp only [List.mem_append, List.mem_singleton]
        constructor
        · rintro ⟨other, old | rfl, holds⟩
          · exact .inl ⟨other, old, holds⟩
          · have callerSame := Option.some.inj (holds.1.symm.trans resolvesBase.1)
            have calleeSame := Option.some.inj (holds.2.symm.trans resolvesBase.2)
            exact .inr ⟨callerSame, calleeSame⟩
        · rintro (⟨other, old, holds⟩ | ⟨rfl, rfl⟩)
          · exact ⟨other, .inl old, holds⟩
          · exact ⟨relation, .inr rfl, resolvesBase⟩
      rw [gained]
      split at found
      · rename_i equal
        rcases Option.map_eq_some_iff.mp found with ⟨before, foundBefore, rfl⟩
        rw [mem_addDependency, related.dependencies id before foundBefore]
        exact or_congr_right ⟨fun same => ⟨equal, same⟩, fun both => both.2⟩
      · rename_i different
        rw [related.dependencies id component found]
        exact ⟨.inl, fun either => either.resolve_right fun both => different both.1⟩
  · push Not at resolved
    rw [addRelation_of_not_resolves resolved]
    refine ⟨related.references, related.callees, related.keys, ?_⟩
    intro id component found dependency
    rw [related.dependencies id component found]
    constructor
    · rintro ⟨other, old, holds⟩
      exact ⟨other, List.mem_append_left _ old, holds⟩
    · rintro ⟨other, member, holds⟩
      rcases List.mem_append.mp member with old | new
      · exact ⟨other, old, holds⟩
      · rw [List.mem_singleton.mp new] at holds
        exact absurd ((related.resolves_iff relation id dependency).mpr holds)
          (resolved id dependency)

theorem Related.foldl {seen : List Relation} (related : Related base seen inventory)
    (relations : List Relation) :
    Related base (seen ++ relations) (relations.foldl Inventory.addRelation inventory) := by
  induction relations generalizing seen inventory with
  | nil => simpa using related
  | cons relation rest induction =>
    have done := induction (related.addRelation relation)
    rwa [List.append_assoc] at done

theorem related_build (records : List ComponentRecord) (relations : List Relation) :
    Related (records.foldl addRecord empty) relations (build records relations) :=
  (settled_records records).related.foldl relations

/-- Whatever the records and relations are: each dependency of a component is a component, namely
one that a relation from it resolves to, and the dependency graph has the components as nodes and
the dependencies of each, in their order, as its edges. -/
theorem build_dependencies_closed (records : List ComponentRecord) (relations : List Relation) :
    let components := (build records relations).components
    components.graph.keys = components.keys ∧
      ∀ id component, components.get? id = some component →
        (∀ dependency ∈ component.dependsOn, dependency ∈ components.keys) ∧
        components.graph.get? id = some component.dependsOn ∧
        ∀ dependency, dependency ∈ component.dependsOn ↔
          ∃ relation ∈ relations,
            (records.foldl addRecord empty).Resolves relation id dependency := by
  intro components
  have related := related_build records relations
  refine ⟨Components.keys_graph components, fun id component found => ?_⟩
  have resolved := related.dependencies id component found
  have closed : ∀ dependency ∈ component.dependsOn, dependency ∈ components.keys := by
    intro dependency member
    rcases (resolved dependency).mp member with ⟨relation, _, holds⟩
    rw [related.keys]
    exact (settled_records records).calleeId?_mem holds.2
  refine ⟨closed, ?_, resolved⟩
  rw [Components.get?_graph, found, Option.map_some]
  congr 1
  rw [List.filter_eq_self]
  intro dependency member
  exact (OrderedMap.contains_iff _ _).mpr (closed dependency member)

end CodeAtlas.Inventory
