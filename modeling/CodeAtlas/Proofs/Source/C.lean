import CodeAtlas.Source.C
import CodeAtlas.Proofs.Source.Traversal

/-!
The analysis of a C file reports the functions from which its relations start. A call or the use of
a variable belongs to a function definition above it in the tree, and every function definition
with a name is reported when its own place is met.
-/

namespace CodeAtlas.Source.C

variable {source : Source}

theorem qualified_componentId {name : String} (filled : name ≠ "") :
    Qualified (moduleName source) name (componentId source name) :=
  qualified_joined (moduleName source) filled

/-! ## Declarations -/

/-- What one place adds to the outline: nothing if it declares nothing or an empty name, else the
component of the declared name, which is reported unless it is a variable. -/
theorem declare_cases (outline : Outline) (place : Place) :
    Ensures (declare source outline place) fun after =>
      (after = outline ∧ ∀ kind nameNode name, declaration? place = some (kind, nameNode) →
        source.textOf nameNode = .ok name → name = "") ∨
      ∃ kind nameNode name, declaration? place = some (kind, nameNode) ∧
        source.textOf nameNode = .ok name ∧ name ≠ "" ∧
        after = outline.add name
          (source.component place.tree (componentId source name) name kind)
          (kind != "variable") := by
  unfold declare
  split
  · rename_i nothing
    refine .pure (.inl ⟨rfl, ?_⟩)
    intro kind nameNode name declares
    rw [nothing] at declares
    cases declares
  · rename_i kind nameNode declares
    refine .bind fun name decoded => ?_
    split
    · rename_i empty
      refine .pure (.inl ⟨rfl, ?_⟩)
      intro otherKind otherNode otherName otherDeclares otherDecoded
      rw [declares] at otherDeclares
      cases otherDeclares
      rw [decoded] at otherDecoded
      exact Except.ok.inj otherDecoded ▸ beq_iff_eq.mp empty
    · rename_i filled
      refine .pure (.inr ⟨kind, nameNode, name, declares, decoded, ?_, ?_⟩)
      · exact fun empty => filled (beq_iff_eq.mpr empty)
      · unfold Outline.add
        by_cases isVariable : kind = "variable" <;> simp [isVariable]

theorem adds_declare (outline : Outline) (place : Place) :
    Ensures (declare source outline place) (outline.Adds source (moduleName source)) := by
  refine .imp (declare_cases outline place) ?_
  rintro after (⟨rfl, _⟩ | ⟨kind, nameNode, name, _, _, filled, rfl⟩)
  · exact Outline.adds_refl _
  · exact Outline.adds_add outline _ (qualified_componentId filled) _ _ _ _ _

/-- The function defined at a place, if it has a name, is reported in the outline. -/
def DefinitionReported (source : Source) (place : Place) (outline : Outline) : Prop :=
  place.kind = "function_definition" → ∀ nameNode name, functionName? place.tree = some nameNode →
    source.textOf nameNode = .ok name → name ≠ "" →
      componentId source name ∈ outline.ids

theorem definitionReported_collect (source : Source) (tree : SyntaxTree) :
    Ensures (Outline.collect (declare source) tree) fun outline =>
      ∀ place ∈ tree.places, DefinitionReported source place outline := by
  refine .foldlM_each ?_ ?_
  · intro outline place _
    refine .imp (declare_cases outline place) ?_
    intro after cases definition nameNode name named decoded filled
    have declares : declaration? place = some ("function", nameNode) := by
      simp [declaration?, definition, named]
    rcases cases with ⟨_, empty⟩ | ⟨kind, otherNode, otherName, declared, otherDecoded, _, rfl⟩
    · exact absurd (empty "function" nameNode name declares decoded) filled
    · rw [declares] at declared
      cases declared
      rw [decoded] at otherDecoded
      cases otherDecoded
      exact Outline.mem_ids_add_self (source.id_component _ _ _ _ _)
  · intro outline place other reported
    refine .imp (declare_cases outline place) ?_
    rintro after (⟨rfl, _⟩ | ⟨kind, _, _, _, _, _, rfl⟩)
    · exact reported
    · intro definition nameNode name named decoded filled
      exact Outline.mem_ids_add (reported definition nameNode name named decoded filled)

/-! ## Relations -/

theorem enclosingFunction_above (source : Source) (table : Components)
    (ancestors : List SyntaxTree) :
    Ensures (enclosingFunction source table ancestors) fun found => ∀ name, found = some name →
      ∃ node higher nameNode, node :: higher <:+ ancestors ∧ node.kind = "function_definition" ∧
        functionName? node = some nameNode ∧ source.textOf nameNode = .ok name := by
  induction ancestors with
  | nil => exact .pure fun name nothing => nomatch nothing
  | cons node higher induction =>
    have further : Ensures (enclosingFunction source table higher) fun found =>
        ∀ name, found = some name → ∃ other rest nameNode, other :: rest <:+ node :: higher ∧
          other.kind = "function_definition" ∧ functionName? other = some nameNode ∧
            source.textOf nameNode = .ok name := by
      refine .imp induction fun found holds name equal => ?_
      rcases holds name equal with ⟨other, rest, nameNode, suffix, facts⟩
      exact ⟨other, rest, nameNode, suffix.trans (List.suffix_cons node higher), facts⟩
    rw [enclosingFunction]
    split
    · rename_i definition
      split
      · rename_i nameNode named
        refine .bind fun name decoded => ?_
        split
        · refine .pure fun found equal => ?_
          rw [← Option.some.inj equal]
          exact ⟨node, higher, nameNode, List.suffix_rfl, beq_iff_eq.mp definition, named,
            decoded⟩
        · exact further
      · exact further
    · exact further

theorem enclosingFunction_reported {tree : SyntaxTree} {outline : Outline}
    (reported : ∀ place ∈ tree.places, DefinitionReported source place outline) {place : Place}
    (member : place ∈ tree.places) {name : String} (filled : name ≠ "")
    (enclosed : enclosingFunction source outline.table place.ancestors = .ok (some name)) :
    componentId source name ∈ outline.ids := by
  rcases enclosingFunction_above source outline.table place.ancestors _ enclosed name rfl with
    ⟨node, higher, nameNode, suffix, definition, named, decoded⟩
  rcases Place.exists_above member suffix with ⟨above, present, rfl, _⟩
  exact reported above present definition nameNode name named decoded filled

theorem callers_relationsAt {tree : SyntaxTree} {outline : Outline}
    (reported : ∀ place ∈ tree.places, DefinitionReported source place outline) {place : Place}
    (member : place ∈ tree.places) :
    Ensures (relationsAt source outline.table place) fun relations =>
      ∀ relation ∈ relations, relation.caller ∈ outline.ids := by
  unfold relationsAt
  split
  · unfold callAt
    refine .bind fun found enclosed => ?_
    split
    · exact .nil
    · exact .nil
    · rename_i caller filled
      split
      · exact .nil
      · refine .bind fun callee _ => ?_
        split
        · exact .nil
        · refine .singleton ?_
          rw [caller_relation]
          exact enclosingFunction_reported reported member filled enclosed
  · unfold useAt
    refine .bind fun found enclosed => ?_
    split
    · exact .nil
    · exact .nil
    · rename_i caller filled
      refine .bind fun name _ => ?_
      split
      · refine .singleton ?_
        rw [caller_relation]
        exact enclosingFunction_reported reported member filled enclosed
      · exact .nil
  · exact .nil

/-! ## The analysis -/

theorem declared_analyze (source : Source) (tree : SyntaxTree) :
    Ensures (analyze source tree) (Findings.Declared source (moduleName source)) :=
  .bind fun outline collected => .bind fun _ _ =>
    .pure (Outline.declared_collect adds_declare tree outline collected)

theorem callersReported_analyze (source : Source) (tree : SyntaxTree) :
    Ensures (analyze source tree) Findings.CallersReported := by
  refine .bind fun outline collected => .bind fun relations related =>
    .pure ?_
  have reported := definitionReported_collect source tree outline collected
  exact ensures_collectRelations (fun place member => callers_relationsAt reported member)
    relations related

end CodeAtlas.Source.C
