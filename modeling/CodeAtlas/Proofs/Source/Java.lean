import CodeAtlas.Source.Java
import CodeAtlas.Proofs.Source.Traversal

/-!
The relations of a Java file start from components that the same analysis reports, and none of them
is marked as resolved. Types and methods are looked for above a place in the same way as they are
named when they are declared, so what is found above a place has been reported.
-/

namespace CodeAtlas.Source.Java

variable {source : Source}

/-! ## Declarations -/

theorem declaration_type (source : Source) {place : Place}
    (isType : namedTypeKinds.contains place.kind = true) :
    Ensures (declaration source place) fun declared => ∀ name,
      identifier source place.tree = .ok (some name) → ∃ kind, declared = some (kind, name) := by
  have named : ∀ kind : String, Ensures (do
      return (← identifier source place.tree).map fun name => (kind, name))
      fun declared => ∀ name, identifier source place.tree = .ok (some name) →
        ∃ kind, declared = some (kind, name) := by
    intro kind
    refine .bind fun found returned => .pure fun name known => ?_
    rw [returned] at known
    cases known
    exact ⟨kind, rfl⟩
  unfold declaration
  dsimp only
  split
  · exact .bind fun abstract _ => named _
  · exact named _
  · exact named _
  · exact named _
  · exact named _
  · rename_i method
    rw [method] at isType
    exact absurd isType (by decide)
  · rename_i other _ _ _ _ _ _
    simp only [namedTypeKinds, List.contains_eq_mem, List.mem_cons, List.not_mem_nil, or_false,
      decide_eq_true_eq] at isType
    rcases isType with kind | kind | kind | kind <;> exact absurd kind (by assumption)

theorem declaration_method (source : Source) {place : Place}
    (method : place.kind = "method_declaration") :
    Ensures (declaration source place) fun declared => ∀ name owner,
      identifier source place.tree = .ok (some name) →
        enclosingTypeName source place.ancestors = .ok (some owner) → owner ≠ "" →
          ∃ kind, declared = some (kind, owner ++ "." ++ name) := by
  unfold declaration
  simp only [method]
  refine .bind fun found returned => ?_
  split
  · refine .pure fun name owner known => ?_
    rw [returned] at known
    cases known
  · refine .bind fun above returnedAbove => ?_
    split
    · refine .pure fun name owner _ known => ?_
      rw [returnedAbove] at known
      cases known
    · refine .pure fun name owner _ known filled => ?_
      rw [returnedAbove] at known
      cases known
      exact absurd rfl filled
    · refine .pure fun name owner knownName knownOwner _ => ?_
      rw [returned] at knownName
      rw [returnedAbove] at knownOwner
      cases knownName
      cases knownOwner
      exact ⟨"method", rfl⟩

/-- What one place adds to the outline: nothing if it declares nothing or an empty name, else the
component of the declared name. -/
theorem declare_cases (outline : Outline) (place : Place) :
    Ensures (declare source outline place) fun after =>
      ∃ declared, declaration source place = .ok declared ∧
        ((after = outline ∧ ∀ kind name, declared = some (kind, name) → name = "") ∨
          ∃ kind name, declared = some (kind, name) ∧ name ≠ "" ∧
            after = outline.add name
              (source.component place.tree (componentId source name) name kind) true) := by
  unfold declare
  refine .bind fun declared returned => ?_
  split
  · exact .pure ⟨_, returned, .inl ⟨rfl, fun _ _ absent => nomatch absent⟩⟩
  · refine .pure ⟨_, returned, .inl ⟨rfl, fun _ _ equal => ?_⟩⟩
    cases equal
    rfl
  · rename_i kind name filled
    exact .pure ⟨_, returned, .inr ⟨kind, name, rfl, filled, rfl⟩⟩

/-- Every name of the table belongs to a reported component. -/
structure Consistent (source : Source) (outline : Outline) : Prop where
  table : ∀ name ∈ outline.table.keys,
    componentId source name ∈ outline.ids

/-- The declaration at a place decodes and, if it has a name, is reported in the outline. -/
def DeclarationReported (source : Source) (place : Place) (outline : Outline) : Prop :=
  ∃ declared, declaration source place = .ok declared ∧
    ∀ kind name, declared = some (kind, name) → name ≠ "" →
      componentId source name ∈ outline.ids

theorem consistent_collect (source : Source) (tree : SyntaxTree) :
    Ensures (Outline.collect (declare source) tree) (Consistent source) := by
  refine .foldlM ⟨List.forall_mem_nil _⟩ ?_
  intro outline place _ consistent
  refine .imp (declare_cases outline place) ?_
  rintro after ⟨_, _, ⟨rfl, _⟩ | ⟨kind, name, _, _, rfl⟩⟩
  · exact consistent
  · constructor
    intro other member
    rcases (OrderedMap.mem_keys_insert _ _ _ _).mp member with rfl | old
    · exact Outline.mem_ids_add_self (source.id_component _ _ _ _ _)
    · exact Outline.mem_ids_add (consistent.table other old)

theorem adds_declare (outline : Outline) (place : Place) :
    Ensures (declare source outline place) (outline.Adds source (source.modulePath [".java"])) := by
  refine .imp (declare_cases outline place) ?_
  rintro after ⟨_, _, ⟨rfl, _⟩ | ⟨kind, name, _, _, rfl⟩⟩
  · exact Outline.adds_refl _
  · exact Outline.adds_add outline _ (qualified_dotted _ name) _ _ _ _ _

theorem declarationReported_collect (source : Source) (tree : SyntaxTree) :
    Ensures (Outline.collect (declare source) tree) fun outline =>
      ∀ place ∈ tree.places, DeclarationReported source place outline := by
  refine .foldlM_each ?_ ?_
  · intro outline place _
    refine .imp (declare_cases outline place) ?_
    rintro after ⟨declared, returned, ⟨_, empty⟩ | ⟨kind, name, rfl, _, rfl⟩⟩
    · exact ⟨declared, returned, fun kind name equal filled => absurd (empty kind name equal) filled⟩
    · refine ⟨_, returned, fun otherKind otherName equal _ => ?_⟩
      cases equal
      exact Outline.mem_ids_add_self (source.id_component _ _ _ _ _)
  · rintro outline place other ⟨declared, returned, reported⟩
    refine .imp (declare_cases outline place) ?_
    rintro after ⟨_, _, ⟨rfl, _⟩ | ⟨_, _, _, _, rfl⟩⟩
    · exact ⟨declared, returned, reported⟩
    · exact ⟨declared, returned, fun kind name equal filled =>
        Outline.mem_ids_add (reported kind name equal filled)⟩

/-! ## What stands above a place -/

theorem enclosingType_known (source : Source) (table : Components) (ancestors : List SyntaxTree) :
    Ensures (enclosingType source table ancestors) fun found => ∀ id, found = some id →
      ∃ name ∈ table.keys, id = componentId source name := by
  induction ancestors with
  | nil => exact .pure fun id nothing => nomatch nothing
  | cons node higher induction =>
    rw [enclosingType]
    split
    · refine .bind fun found _ => ?_
      split
      · exact induction
      · exact induction
      · rename_i name _ _
        split
        · rename_i known
          refine .pure fun id equal => ?_
          exact ⟨name, (OrderedMap.contains_iff _ _).mp known, (Option.some.inj equal).symm⟩
        · exact induction
    · exact induction

theorem enclosingMethod_above (source : Source) (ancestors : List SyntaxTree) :
    Ensures (enclosingMethod source ancestors) fun found => ∀ id, found = some id →
      ∃ node higher name owner, node :: higher <:+ ancestors ∧
        node.kind = "method_declaration" ∧ identifier source node = .ok (some name) ∧
          enclosingTypeName source higher = .ok (some owner) ∧ owner ≠ "" ∧
            id = componentId source (owner ++ "." ++ name) := by
  induction ancestors with
  | nil => exact .pure fun id nothing => nomatch nothing
  | cons node higher induction =>
    have further : Ensures (enclosingMethod source higher) fun found => ∀ id, found = some id →
        ∃ other rest name owner, other :: rest <:+ node :: higher ∧
          other.kind = "method_declaration" ∧ identifier source other = .ok (some name) ∧
            enclosingTypeName source rest = .ok (some owner) ∧ owner ≠ "" ∧
              id = componentId source (owner ++ "." ++ name) := by
      refine .imp induction fun found holds id equal => ?_
      rcases holds id equal with ⟨other, rest, name, owner, suffix, facts⟩
      exact ⟨other, rest, name, owner, suffix.trans (List.suffix_cons node higher), facts⟩
    rw [enclosingMethod]
    split
    · rename_i method
      refine .bind fun name named => .bind fun owner owned => ?_
      split
      · rename_i known knownOwner filteredName filteredOwner
        rw [Option.filter_eq_some_iff] at filteredName filteredOwner
        refine .pure fun id equal => ?_
        rw [← Option.some.inj equal]
        refine ⟨node, higher, known, knownOwner, List.suffix_rfl, beq_iff_eq.mp method, ?_, ?_,
          by simpa using filteredOwner.2, rfl⟩
        · rw [named, filteredName.1]
        · rw [owned, filteredOwner.1]
      · exact further
    · exact further

/-- What is known of the outline when relations are looked for. -/
structure Surveyed (source : Source) (tree : SyntaxTree) (outline : Outline) : Prop where
  consistent : Consistent source outline
  declared : ∀ place ∈ tree.places, DeclarationReported source place outline

variable {tree : SyntaxTree} {outline : Outline} {place : Place}

theorem Surveyed.type_reported (surveyed : Surveyed source tree outline)
    (member : place ∈ tree.places) (isType : namedTypeKinds.contains place.kind = true)
    {name : String} (named : identifier source place.tree = .ok (some name)) (filled : name ≠ "") :
    componentId source name ∈ outline.ids := by
  rcases surveyed.declared place member with ⟨declared, returned, reported⟩
  rcases declaration_type source isType declared returned name named with ⟨kind, equal⟩
  exact reported kind name equal filled

theorem Surveyed.enclosingType_reported (surveyed : Surveyed source tree outline) {id : String}
    (enclosed : enclosingType source outline.table place.ancestors = .ok (some id)) :
    id ∈ outline.ids := by
  rcases enclosingType_known source outline.table place.ancestors _ enclosed id rfl with
    ⟨name, known, rfl⟩
  exact surveyed.consistent.table name known

theorem Surveyed.enclosingMethod_reported (surveyed : Surveyed source tree outline)
    (member : place ∈ tree.places) {id : String}
    (enclosed : enclosingMethod source place.ancestors = .ok (some id)) :
    id ∈ outline.ids := by
  rcases enclosingMethod_above source place.ancestors _ enclosed id rfl with
    ⟨node, higher, name, owner, suffix, method, named, owned, filled, rfl⟩
  rcases Place.exists_above member suffix with ⟨above, present, rfl, rfl⟩
  rcases surveyed.declared above present with ⟨declared, returned, reported⟩
  rcases declaration_method source method declared returned name owner named owned filled with
    ⟨kind, equal⟩
  refine reported kind _ equal ?_
  intro empty
  have length := congrArg String.length empty
  simp at length

/-! ## Relations -/

/-- A relation from a reported component that is not marked. -/
def Plain (outline : Outline) (relation : Relation) : Prop :=
  relation.caller ∈ outline.ids ∧ relation.resolved = false

theorem plain_relation {caller callee : String} (node : SyntaxTree)
    (reported : caller ∈ outline.ids) :
    Plain outline (source.relation node caller callee) :=
  ⟨reported, rfl⟩

theorem plain_inheritanceAt (surveyed : Surveyed source tree outline)
    (member : place ∈ tree.places) (isType : namedTypeKinds.contains place.kind = true) :
    Ensures (inheritanceAt source place) fun relations =>
      ∀ relation ∈ relations, Plain outline relation := by
  unfold inheritanceAt
  refine .bind fun name named => ?_
  split
  · exact .nil
  · refine .bind fun base _ => ?_
    split
    · rename_i known _ filtered _
      rw [Option.filter_eq_some_iff] at filtered
      rw [filtered.1] at named
      exact .singleton (plain_relation place.tree
        (surveyed.type_reported member isType named (by simpa using filtered.2)))
    · exact .nil

theorem plain_implementationAt (surveyed : Surveyed source tree outline)
    (member : place ∈ tree.places) (isType : namedTypeKinds.contains place.kind = true) :
    Ensures (implementationAt source place) fun relations =>
      ∀ relation ∈ relations, Plain outline relation := by
  unfold implementationAt
  refine .bind fun name named => ?_
  split
  · rename_i known _ filtered
    rw [Option.filter_eq_some_iff] at filtered
    rw [filtered.1] at named
    have reported := surveyed.type_reported member isType named (by simpa using filtered.2)
    refine .bind fun bases _ => .pure fun relation present => ?_
    rcases List.mem_map.mp present with ⟨base, _, rfl⟩
    exact plain_relation place.tree reported
  · exact .nil

theorem plain_typeUseAt (surveyed : Surveyed source tree outline) :
    Ensures (typeUseAt source outline.table place) fun relations =>
      ∀ relation ∈ relations, Plain outline relation := by
  unfold typeUseAt
  refine .bind fun owner enclosed => ?_
  split
  · refine .bind fun used _ => .pure fun relation present => ?_
    rcases Option.map_eq_some_iff.mp (Option.mem_toList.mp present) with ⟨base, _, rfl⟩
    exact plain_relation place.tree (surveyed.enclosingType_reported enclosed)
  · exact .nil

theorem plain_callAt (surveyed : Surveyed source tree outline) (member : place ∈ tree.places) :
    Ensures (callAt source outline.table place) fun relations =>
      ∀ relation ∈ relations, Plain outline relation := by
  unfold callAt
  refine .bind fun owner enclosed => .bind fun method enclosedMethod => ?_
  split
  · exact .nil
  · rename_i owner
    have reported : method.getD owner ∈ outline.ids := by
      cases method with
      | none => exact surveyed.enclosingType_reported enclosed
      | some method => exact surveyed.enclosingMethod_reported member enclosedMethod
    refine .bind fun parts _ => ?_
    dsimp only
    split
    · have related : ∀ target : Option String, Ensures (pure ((target.filter isOwnType).map
          fun target => source.relation place.tree (method.getD owner) target).toList)
          fun relations => ∀ relation ∈ relations, Plain outline relation := by
        intro target
        refine .pure fun relation present => ?_
        rcases Option.map_eq_some_iff.mp (Option.mem_toList.mp present) with ⟨base, _, rfl⟩
        exact plain_relation place.tree reported
      split
      · exact .bind fun target _ => related target
      · exact .bind fun target _ => related target
    · exact .nil

theorem plain_relationsAt (surveyed : Surveyed source tree outline)
    (member : place ∈ tree.places) :
    Ensures (relationsAt source outline.table place) fun relations =>
      ∀ relation ∈ relations, Plain outline relation := by
  unfold relationsAt
  split
  · rename_i kind
    have isType : namedTypeKinds.contains place.kind = true := by rw [kind]; decide
    refine .bind fun inherited first => .bind fun implemented second =>
      .pure fun relation present => ?_
    rcases List.mem_append.mp present with left | right
    · exact plain_inheritanceAt surveyed member isType inherited first relation left
    · exact plain_implementationAt surveyed member isType implemented second relation right
  · rename_i kind
    exact plain_implementationAt surveyed member (by rw [kind]; decide)
  · rename_i kind
    exact plain_implementationAt surveyed member (by rw [kind]; decide)
  · exact plain_typeUseAt surveyed
  · exact plain_typeUseAt surveyed
  · exact plain_callAt surveyed member
  · exact .nil

/-! ## The analysis -/

theorem declared_analyze (source : Source) (tree : SyntaxTree) :
    Ensures (analyze source tree) (Findings.Declared source (source.modulePath [".java"])) :=
  .bind fun outline collected => .bind fun _ _ =>
    .pure (Outline.declared_collect adds_declare tree outline collected)

theorem plain_analyze (source : Source) (tree : SyntaxTree) :
    Ensures (analyze source tree) fun findings =>
      findings.CallersReported ∧ ∀ relation ∈ findings.relations, relation.resolved = false := by
  refine .bind fun outline collected => .bind fun relations related =>
    .pure ?_
  have surveyed : Surveyed source tree outline :=
    ⟨consistent_collect source tree outline collected,
      declarationReported_collect source tree outline collected⟩
  have plain := ensures_collectRelations (fun place member => plain_relationsAt surveyed member)
    relations related
  exact ⟨fun relation member => (plain relation member).1,
    fun relation member => (plain relation member).2⟩

end CodeAtlas.Source.Java
