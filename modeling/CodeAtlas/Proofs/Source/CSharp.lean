import CodeAtlas.Source.CSharp
import CodeAtlas.Proofs.Source.Traversal

/-!
The only relations that the analysis of a C# file marks as resolved are those to base classes, and
a base class is taken up only if a type of its name is declared in the same file. Every declared
type is reported, so marked relations lead to reported components.
-/

namespace CodeAtlas.Source.CSharp

variable {source : Source}

def moduleName (source : Source) : String := source.modulePath [".cs"]

theorem qualified_componentId {name : String} (filled : name ≠ "") :
    Qualified (moduleName source) name (componentId source name) :=
  qualified_joined (moduleName source) filled

/-! ## Declarations -/

theorem declare_cases (outline : Outline) (place : Place) :
    Ensures (declare source outline place) fun after => after = outline ∨ ∃ name kind, name ≠ "" ∧
      after = outline.add name
        (source.component place.tree (componentId source name) name kind) true := by
  unfold declare
  refine .bind fun declared _ => ?_
  split
  · exact .pure (.inl rfl)
  · rename_i kind nameNode _
    refine .bind fun name _ => ?_
    split
    · exact .pure (.inl rfl)
    · rename_i notEmpty
      have filled : name ≠ "" := fun empty => notEmpty (beq_iff_eq.mpr empty)
      exact .pure (.inr ⟨name, kind, filled, rfl⟩)

theorem adds_declare (outline : Outline) (place : Place) :
    Ensures (declare source outline place) (outline.Adds source (moduleName source)) := by
  refine .imp (declare_cases outline place) ?_
  rintro after (rfl | ⟨name, kind, filled, rfl⟩)
  · exact Outline.adds_refl _
  · exact Outline.adds_add outline _ (qualified_componentId filled) _ _ _ _ _

/-- Every component of the table is reported under the identifier of its name. -/
structure Consistent (source : Source) (outline : Outline) : Prop where
  table : ∀ key component, outline.table.get? key = some component →
    componentId source component.name ∈ outline.ids

theorem consistent_collect (source : Source) (tree : SyntaxTree) :
    Ensures (Outline.collect (declare source) tree) (Consistent source) := by
  refine .foldlM ⟨fun _ _ found => nomatch found⟩ ?_
  intro outline place _ consistent
  refine .imp (declare_cases outline place) ?_
  rintro after (rfl | ⟨name, kind, _, rfl⟩)
  · exact consistent
  · constructor
    intro key component found
    unfold Outline.add at found
    rw [OrderedMap.get?_insert] at found
    split at found
    · rw [← Option.some.inj found, name_component]
      exact Outline.mem_ids_add_self (source.id_component _ _ _ _ _)
    · exact Outline.mem_ids_add (consistent.table key component found)

/-! ## Relations -/

variable {outline : Outline}

theorem marked_inheritanceAt (consistent : Consistent source outline) (tree : SyntaxTree) :
    Ensures (inheritanceAt source outline.table tree) fun relations =>
      ∀ relation ∈ relations, relation.callee ∈ outline.ids := by
  unfold inheritanceAt
  refine .bind fun name _ => ?_
  split
  · split
    · exact .nil
    · refine .bind fun bases _ => .pure fun relation member => ?_
      rcases List.mem_map.mp member with ⟨base, kept, rfl⟩
      -- The base class has the name of a component of the table.
      rcases List.any_eq_true.mp (List.mem_filter.mp kept).2 with ⟨_, value, sameName⟩
      rcases List.mem_map.mp value with ⟨⟨key, known⟩, entry, rfl⟩
      have found := (outline.table.get?_eq_some_iff key known).mpr entry
      have reported := consistent.table key known found
      rw [beq_iff_eq.mp sameName] at reported
      rw [callee_relation]
      exact reported
  · exact .nil

theorem marked_relationsAt (consistent : Consistent source outline) (place : Place) :
    Ensures (relationsAt source outline.table place) fun relations =>
      ∀ relation ∈ relations, relation.resolved = true → relation.callee ∈ outline.ids := by
  unfold relationsAt
  refine .bind fun owner _ => ?_
  split
  · refine .imp (marked_inheritanceAt consistent place.tree) ?_
    exact fun relations reported relation member _ => reported relation member
  · split
    · exact .nil
    · refine .bind fun types _ => .pure fun relation member marked => ?_
      rcases List.mem_map.mp member with ⟨used, _, rfl⟩
      cases marked

/-! ## The analysis -/

theorem declared_analyze (source : Source) (tree : SyntaxTree) :
    Ensures (analyze source tree) (Findings.Declared source (moduleName source)) :=
  .bind fun outline collected => .bind fun _ _ =>
    .pure (Outline.declared_collect adds_declare tree outline collected)

theorem markedReported_analyze (source : Source) (tree : SyntaxTree) :
    Ensures (analyze source tree) Findings.MarkedReported := by
  refine .bind fun outline collected => .bind fun relations related =>
    .pure ?_
  have consistent := consistent_collect source tree outline collected
  exact ensures_collectRelations (fun place _ => marked_relationsAt consistent place)
    relations related

end CodeAtlas.Source.CSharp
