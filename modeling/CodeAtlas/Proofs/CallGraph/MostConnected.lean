import CodeAtlas.CallGraph.Basic
import CodeAtlas.Proofs.OrderedMap
import Mathlib.Data.List.Nodup
import Mathlib.Data.List.Perm.Basic

/-!
The selection of the most connected components. A component ranks by the number of components that
a call joins it to, and of two with the same number the earlier one ranks first.
-/

namespace CodeAtlas.CallGraph

open List

/-! ## Neighbours -/

section Neighbours

variable (graph : CallGraph)

/-- A call joins two components, in one direction or the other. -/
def Joined (id other : String) : Prop :=
  ∃ relation ∈ graph.relations,
    relation.caller = id ∧ relation.callee = other ∨ relation.caller = other ∧ relation.callee = id

instance (id other : String) : Decidable (graph.Joined id other) :=
  inferInstanceAs (Decidable (∃ relation ∈ graph.relations, _))

def degree (id : String) : Nat :=
  graph.functions.keys.countP fun other => graph.Joined id other

theorem mem_neighbours_iff {id : String} (known : id ∈ graph.functions.keys) (other : String) :
    other ∈ graph.neighbours id ↔ other ∈ graph.functions.keys ∧ graph.Joined id other := by
  simp only [neighbours, mem_eraseDups, mem_flatMap, Joined]
  constructor
  · rintro ⟨relation, member, inside⟩
    grind [OrderedMap.contains_iff]
  · rintro ⟨present, relation, member, ends⟩
    refine ⟨relation, member, ?_⟩
    grind [OrderedMap.contains_iff]

theorem nodup_eraseDups (names : List String) : names.eraseDups.Nodup := by
  induction size : names.length using Nat.strongRecOn generalizing names with
  | ind size induction =>
    cases names with
    | nil => exact nodup_nil
    | cons name rest =>
      have shorter := length_filter_le (fun other => !other == name) rest
      rw [length_cons] at size
      rw [eraseDups_cons]
      apply nodup_cons.mpr
      exact ⟨by simp, induction _ (by omega) _ rfl⟩

theorem length_neighbours {id : String} (known : id ∈ graph.functions.keys) :
    (graph.neighbours id).length = graph.degree id := by
  rw [degree, countP_eq_length_filter]
  apply List.Perm.length_eq
  apply (perm_ext_iff_of_nodup _ (graph.functions.nodup_keys.filter _)).mpr
  · intro other
    simp [mem_neighbours_iff graph known]
  · exact nodup_eraseDups _

end Neighbours

/-! ## Ranks -/

section Ranks

variable (score : String → Nat) {names : List String}

/-- Names with higher scores first, those with the same score in their order. -/
def ranked (names : List String) : List String :=
  names.mergeSort fun left right => decide (score right ≤ score left)

/-- One name ranks before another: it has the higher score, or the same one and comes earlier. -/
def Outranks (names : List String) (left right : String) : Prop :=
  score right < score left ∨
    score right = score left ∧ names.idxOf left < names.idxOf right

theorem ranked_perm (names : List String) : (ranked score names).Perm names :=
  mergeSort_perm names _

theorem pair_sublist_of_idxOf_lt {left right : String} (member : right ∈ names)
    (before : names.idxOf left < names.idxOf right) : [left, right].Sublist names := by
  have pairs : names.Pairwise fun left right => [left, right].Sublist names :=
    pairwise_iff_forall_sublist.mpr id
  have within := idxOf_lt_length_of_mem member
  have pair := pairwise_iff_getElem.mp pairs _ _ (by omega) within before
  rwa [getElem_idxOf, getElem_idxOf] at pair

theorem pairwise_idxOf_lt (distinct : names.Nodup) :
    names.Pairwise fun left right => names.idxOf left < names.idxOf right := by
  apply pairwise_iff_getElem.mpr
  intro first second within withinToo before
  rwa [distinct.idxOf_getElem, distinct.idxOf_getElem]

theorem pairwise_ranked (distinct : names.Nodup) :
    (ranked score names).Pairwise (Outranks score names) := by
  have transitive : ∀ left middle right : String, decide (score middle ≤ score left) = true →
      decide (score right ≤ score middle) = true → decide (score right ≤ score left) = true := by
    intro left middle right first second
    rw [decide_eq_true_eq] at *
    omega
  have total : ∀ left right : String,
      (decide (score right ≤ score left) || decide (score left ≤ score right)) = true := by
    intro left right
    rw [Bool.or_eq_true, decide_eq_true_eq, decide_eq_true_eq]
    omega
  have falling := pairwise_mergeSort transitive total names
  have apart := pairwise_idxOf_lt ((ranked_perm score names).nodup_iff.mpr distinct)
  rw [pairwise_iff_forall_sublist] at falling apart ⊢
  intro left right pair
  have place := apart pair
  have lower := of_decide_eq_true (falling pair)
  have known : left ∈ names := (ranked_perm score names).mem_iff.mp (pair.subset mem_cons_self)
  have different : names.idxOf left ≠ names.idxOf right := by
    intro equal
    rw [idxOf_inj known] at equal
    rw [equal] at place
    omega
  by_cases same : score right = score left
  · refine .inr ⟨same, ?_⟩
    by_contra late
    -- The sort keeps the order of names with one score, so the pair would stand both ways round.
    have reversed : [right, left].Sublist names := pair_sublist_of_idxOf_lt known (by omega)
    have level : decide (score left ≤ score right) = true := decide_eq_true (by omega)
    have back := apart (pair_sublist_mergeSort transitive total level reversed)
    omega
  · exact .inl (by omega)

theorem length_filter_take (distinct : names.Nodup) {count : Nat} (short : count ≤ names.length) :
    (names.filter fun name => name ∈ (ranked score names).take count).length = count := by
  have distinctRanks := (ranked_perm score names).nodup_iff.mpr distinct
  have same : (names.filter fun name => name ∈ (ranked score names).take count).Perm
      ((ranked score names).take count) := by
    apply (perm_ext_iff_of_nodup (distinct.filter _)
      (distinctRanks.sublist (take_sublist _ _))).mpr
    intro name
    rw [mem_filter, decide_eq_true_eq, and_iff_right_iff_imp]
    intro first
    exact (ranked_perm score names).mem_iff.mp (mem_of_mem_take first)
  rw [same.length_eq, length_take, (ranked_perm score names).length_eq]
  omega

end Ranks

/-! ## The selection -/

section Selection

variable (graph : CallGraph)

theorem map_fst_mergeSort_degrees :
    ((graph.functions.keys.map fun id => (id, (graph.neighbours id).length)).mergeSort
      fun left right => decide (right.2 ≤ left.2)).map Prod.fst =
      ranked graph.degree graph.functions.keys := by
  have degrees : (graph.functions.keys.map fun id => (id, (graph.neighbours id).length)) =
      graph.functions.keys.map fun id => (id, graph.degree id) := by
    apply map_congr_left
    intro id known
    rw [graph.length_neighbours known]
  rw [degrees, ← map_mergeSort (r := fun left right =>
    decide (graph.degree right ≤ graph.degree left)) fun _ _ _ _ => rfl, map_map]
  exact map_id _

theorem keys_keepFunctions (kept : List String) :
    (graph.keepFunctions kept).keys = graph.functions.keys.filter (· ∈ kept) := by
  simp [keepFunctions, OrderedMap.filter, OrderedMap.keys, filter_map, Function.comp_def]

theorem mem_keepFunctions_iff (score : String → Nat) (count : Nat) (id : String) :
    id ∈ (graph.keepFunctions ((ranked score graph.functions.keys).take count)).keys ↔
      id ∈ (ranked score graph.functions.keys).take count := by
  rw [keys_keepFunctions, mem_filter, decide_eq_true_eq, and_iff_right_iff_imp]
  intro first
  exact (ranked_perm score _).mem_iff.mp (mem_of_mem_take first)

/-- The components selected have the most neighbours, an earlier one being preferred to a later one
with as many, and the calls that stay are those between two of them. All keep their order. -/
theorem most_connected_selected (count : Nat) :
    (count < graph.functions.size → graph.relations ≠ [] →
      let selected := graph.selectMostConnected count
      selected.functions.size = count ∧
        selected.functions.entries.Sublist graph.functions.entries ∧
        (∀ kept ∈ selected.functions.keys, ∀ dropped ∈ graph.functions.keys,
          dropped ∉ selected.functions.keys →
            Outranks graph.degree graph.functions.keys kept dropped) ∧
        selected.relations = graph.relations.filter fun relation =>
          relation.caller ∈ selected.functions.keys ∧
            relation.callee ∈ selected.functions.keys) ∧
      (graph.functions.size ≤ count → graph.selectMostConnected count = graph) := by
  constructor
  · intro fewer related
    have some : ¬ (graph.functions.size : Int) ≤ count := by omega
    simp only [selectMostConnected, if_neg some, List.isEmpty_iff, if_neg related,
      map_fst_mergeSort_degrees, takeSigned]
    refine ⟨?_, List.filter_sublist, ?_, ?_⟩
    · rw [← OrderedMap.length_keys, keys_keepFunctions]
      apply length_filter_take graph.degree graph.functions.nodup_keys
      rw [OrderedMap.length_keys]
      omega
    · intro kept present dropped known absent
      rw [mem_keepFunctions_iff] at present absent
      have ordered := pairwise_ranked graph.degree graph.functions.nodup_keys
      have among := (ranked_perm graph.degree graph.functions.keys).mem_iff.mpr known
      rw [← List.take_append_drop count (ranked _ _)] at ordered among
      have later := (List.mem_append.mp among).resolve_left absent
      exact (List.pairwise_append.mp ordered).2.2 kept present dropped later
    · simp [mem_keepFunctions_iff, Bool.decide_and]
  · intro enough
    have all : (graph.functions.size : Int) ≤ count := by omega
    rw [selectMostConnected, if_pos all]

end Selection

end CodeAtlas.CallGraph
