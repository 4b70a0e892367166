import CodeAtlas.Graph.Basic
import Mathlib.Data.List.Perm.Basic

/-!
Sorted names. What is sorted has the same names as before, in an order that depends on nothing but how
often each of them is given.
-/

namespace CodeAtlas.Graph

open List

theorem sorted_perm (names : List String) : (sorted names).Perm names :=
  mergeSort_perm names _

theorem mem_sorted {names : List String} {name : String} : name ∈ sorted names ↔ name ∈ names :=
  (sorted_perm names).mem_iff

theorem pairwise_sorted (names : List String) : (sorted names).Pairwise (· ≤ ·) := by
  apply (pairwise_mergeSort _ _ names).imp
  · intro left right before
    exact of_decide_eq_true before
  · intro left middle right first second
    exact decide_eq_true (String.le_trans (of_decide_eq_true first) (of_decide_eq_true second))
  · intro left right
    simpa using String.le_total left right

theorem sorted_eq_of_perm {names others : List String} (same : names.Perm others) :
    sorted names = sorted others := by
  apply List.Perm.eq_of_pairwise _ (pairwise_sorted names) (pairwise_sorted others)
  · exact (sorted_perm names).trans (same.trans (sorted_perm others).symm)
  · intro left right _ _ before after
    exact String.le_antisymm before after

end CodeAtlas.Graph
