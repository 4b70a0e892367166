import CodeAtlas.Component
import CodeAtlas.Proofs.Graph.Reachability

/-!
The dependency graph of components: its nodes are the components, and its edges the dependencies
that are components themselves.
-/

namespace CodeAtlas.Components

variable {components : Components}

@[simp] theorem keys_graph (components : Components) : components.graph.keys = components.keys :=
  OrderedMap.keys_mapValues _ _

theorem get?_graph (components : Components) (id : String) :
    components.graph.get? id = (components.get? id).map fun component =>
      component.dependsOn.filter fun dependency => components.contains dependency :=
  OrderedMap.get?_mapValues _ _ _

theorem edge_graph_iff {source target : String} :
    components.graph.Edge source target ↔
      target ∈ components.keys ∧
        ∃ component, components.get? source = some component ∧ target ∈ component.dependsOn := by
  unfold Graph.Edge Graph.dependencies OrderedMap.getD
  rw [get?_graph]
  cases components.get? source with
  | none => simp
  | some component => simp [and_comm]

theorem closed_graph (components : Components) : components.graph.Closed := by
  intro source target edge
  rw [keys_graph]
  exact (edge_graph_iff.mp edge).1

theorem get?_kinds (components : Components) (id : String) :
    components.kinds.get? id = (components.get? id).map Component.kind :=
  OrderedMap.get?_mapValues _ _ _

theorem values_kinds (components : Components) :
    components.kinds.values = components.values.map Component.kind := by
  simp [kinds, OrderedMap.mapValues, OrderedMap.values]

end CodeAtlas.Components
