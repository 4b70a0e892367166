import CodeAtlas.Source.Cpp
import CodeAtlas.Proofs.Source.Traversal

/-!
The analysis of a C++ file marks none of its relations as resolved: whether a callee is a component
is left to the look-up among the components of all files.
-/

namespace CodeAtlas.Source.Cpp

variable {source : Source}

theorem qualified_componentId {name : String} (filled : name ≠ "") :
    Qualified (moduleName source) name (componentId source name) :=
  qualified_joined (moduleName source) filled

theorem qualified_memberId (className : String) {name : String} (filled : name ≠ "") :
    Qualified (moduleName source) (className ++ "." ++ name) (memberId source className name) := by
  refine qualified_componentId fun empty => filled ?_
  have lengths := congrArg String.length empty
  simp at lengths

/-! ## Declarations -/

theorem adds_declare (outline : Outline) (place : Place) :
    Ensures (declare source outline place) (outline.Adds source (moduleName source)) := by
  unfold declare
  refine Ensures.bind fun declared _ => ?_
  split
  · exact Ensures.pure (Outline.adds_refl outline)
  · rename_i kind nameNode owner _
    refine Ensures.bind fun name _ => ?_
    split
    · exact Ensures.pure (Outline.adds_refl outline)
    · rename_i notEmpty
      have filled : name ≠ "" := fun empty => notEmpty (beq_iff_eq.mpr empty)
      apply Ensures.pure
      cases owner with
      | none => exact Outline.adds_add outline _ (qualified_componentId filled) _ _ _ _ _
      | some className =>
        exact Outline.adds_add outline _ (qualified_memberId className filled) _ _ _ _ _

/-! ## Relations -/

variable {table : Components} {place : Place}

theorem unmarked_callAt :
    Ensures (callAt source table place) fun relations =>
      ∀ relation ∈ relations, relation.resolved = false := by
  unfold callAt
  refine .bind fun enclosing _ => ?_
  split
  · exact .nil
  · exact .nil
  · rename_i caller _ _
    refine .bind fun called _ => ?_
    split
    · exact .nil
    · exact .nil
    · rename_i callee _ _
      have direct : Ensures (if table.contains callee then
          pure [source.relation place.tree (functionId source table caller)
            (componentId source callee)]
          else pure []) fun relations => ∀ relation ∈ relations, relation.resolved = false := by
        split
        · exact .singleton (source.resolved_relation _ _ _ _)
        · exact .nil
      split
      · exact .nil
      · dsimp only
        split
        · split
          · exact .singleton (source.resolved_relation _ _ _ _)
          · exact direct
        · exact direct

theorem unmarked_inheritanceAt :
    Ensures (inheritanceAt source place) fun relations =>
      ∀ relation ∈ relations, relation.resolved = false := by
  unfold inheritanceAt
  refine .bind fun enclosing _ => ?_
  split
  · exact .nil
  · exact .nil
  · exact .mapM fun base _ => .bind fun name _ =>
      .pure (source.resolved_relation _ _ _ _)

theorem unmarked_creationAt :
    Ensures (creationAt source table place) fun relations =>
      ∀ relation ∈ relations, relation.resolved = false := by
  unfold creationAt
  refine .bind fun enclosing _ => ?_
  split
  · exact .nil
  · exact .nil
  · refine .bind fun created _ => ?_
    split
    · exact .nil
    · split
      · exact .singleton (source.resolved_relation _ _ _ _)
      · exact .nil

theorem unmarked_useAt :
    Ensures (useAt source table place) fun relations =>
      ∀ relation ∈ relations, relation.resolved = false := by
  unfold useAt
  dsimp only
  split
  · exact .nil
  · split
    · exact .nil
    · refine .bind fun name _ => ?_
      split
      · exact .nil
      · refine .bind fun enclosing _ => ?_
        split
        · exact .nil
        · exact .nil
        · split
          · exact .nil
          · exact .singleton (source.resolved_relation _ _ _ _)

theorem unmarked_relationsAt :
    Ensures (relationsAt source table place) fun relations =>
      ∀ relation ∈ relations, relation.resolved = false := by
  unfold relationsAt
  split
  · exact unmarked_callAt
  · exact unmarked_inheritanceAt
  · exact unmarked_creationAt
  · exact unmarked_useAt
  · exact .nil

/-! ## The analysis -/

theorem declared_analyze (source : Source) (tree : SyntaxTree) :
    Ensures (analyze source tree) (Findings.Declared source (moduleName source)) :=
  .bind fun outline collected => .bind fun _ _ =>
    .pure (Outline.declared_collect adds_declare tree outline collected)

theorem unmarked_analyze (source : Source) (tree : SyntaxTree) :
    Ensures (analyze source tree) fun findings =>
      ∀ relation ∈ findings.relations, relation.resolved = false :=
  .bind fun _ _ => .bind fun relations related =>
    .pure (ensures_collectRelations (fun _ _ => unmarked_relationsAt) relations related)

end CodeAtlas.Source.Cpp
