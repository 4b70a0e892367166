import CodeAtlas.Source.Tree
import CodeAtlas.Proofs.OrderedMap

/-!
Reasoning about the analysis of a file. An analysis may fail on a node whose text does not decode,
so what is proved of it is a property of its result, if there is one; such properties are put
together along the steps of the analysis. The second part is about the places of a syntax tree: the
nodes above a place are places of the same tree. The last part says what holds of every component
that an analysis reports.
-/

namespace CodeAtlas

open List

/-! ## Results of computations that may fail -/

/-- A property of what a computation returns, if it returns. -/
def Ensures {α : Type} (computation : Except SourceError α) (property : α → Prop) : Prop :=
  ∀ result, computation = .ok result → property result

namespace Ensures

variable {α β σ : Type}

theorem pure {property : α → Prop} {value : α} (holds : property value) :
    Ensures (Pure.pure value) property := by
  intro result equal
  exact Except.ok.inj equal ▸ holds

theorem bind {computation : Except SourceError α} {next : α → Except SourceError β}
    {property : β → Prop}
    (each : ∀ value, computation = .ok value → Ensures (next value) property) :
    Ensures (computation >>= next) property := by
  intro result equal
  cases returned : computation with
  | error failure =>
    rw [returned] at equal
    cases equal
  | ok value =>
    rw [returned] at equal
    exact each value returned result equal

theorem map {computation : Except SourceError α} {image : α → β} {property : β → Prop}
    (each : Ensures computation fun value => property (image value)) :
    Ensures (image <$> computation) property := by
  rw [map_eq_pure_bind]
  exact bind fun value returned => pure (each value returned)

theorem imp {computation : Except SourceError α} {first second : α → Prop}
    (holds : Ensures computation first) (weaker : ∀ value, first value → second value) :
    Ensures computation second :=
  fun result returned => weaker result (holds result returned)

theorem nil {property : α → Prop} :
    Ensures (Pure.pure []) fun items => ∀ item ∈ items, property item :=
  pure fun _ member => absurd member not_mem_nil

theorem singleton {property : α → Prop} {value : α} (holds : property value) :
    Ensures (Pure.pure [value]) fun items => ∀ item ∈ items, property item :=
  pure fun _ member => mem_singleton.mp member ▸ holds

theorem mapM {items : List α} {step : α → Except SourceError β} {property : β → Prop}
    (each : ∀ item ∈ items, Ensures (step item) property) :
    Ensures (items.mapM step) fun results => ∀ result ∈ results, property result := by
  induction items with
  | nil => exact nil
  | cons item rest induction =>
    rw [mapM_cons]
    refine bind fun first returned => bind fun others returnedRest => pure ?_
    intro result member
    rcases mem_cons.mp member with rfl | later
    · exact each item mem_cons_self result returned
    · exact induction (fun other present => each other (mem_cons_of_mem item present))
        others returnedRest result later

theorem foldlM {step : σ → α → Except SourceError σ} {invariant : σ → Prop} {items : List α}
    {start : σ} (initially : invariant start)
    (each : ∀ state, ∀ item ∈ items, invariant state → Ensures (step state item) invariant) :
    Ensures (items.foldlM step start) invariant := by
  induction items generalizing start with
  | nil => exact pure initially
  | cons item rest induction =>
    rw [foldlM_cons]
    refine bind fun state returned => induction ?_ fun state other present =>
      each state other (mem_cons_of_mem item present)
    exact each start item mem_cons_self initially state returned

/-- A fact that the step at each item establishes, and that later steps keep, holds of every item
at the end. -/
theorem foldlM_each {step : σ → α → Except SourceError σ} {fact : α → σ → Prop} {items : List α}
    {start : σ} (establishes : ∀ state, ∀ item ∈ items, Ensures (step state item) (fact item))
    (keeps : ∀ state item other, fact other state → Ensures (step state item) (fact other)) :
    Ensures (items.foldlM step start) fun final => ∀ item ∈ items, fact item final := by
  induction items generalizing start with
  | nil => exact pure fun _ member => absurd member not_mem_nil
  | cons item rest induction =>
    rw [foldlM_cons]
    refine bind fun state returned final finished other member => ?_
    rcases mem_cons.mp member with rfl | later
    · have established := establishes start other mem_cons_self state returned
      exact foldlM established (fun state item _ => keeps state item other) final finished
    · exact induction (fun state item present =>
        establishes state item (mem_cons_of_mem _ present)) final finished other later

end Ensures

theorem ensures_collectRelations {relate : Place → Except SourceError (List Relation)}
    {tree : SyntaxTree} {property : Relation → Prop}
    (each : ∀ place ∈ tree.places,
      Ensures (relate place) fun relations => ∀ relation ∈ relations, property relation) :
    Ensures (collectRelations relate tree) fun relations =>
      ∀ relation ∈ relations, property relation := by
  refine .map (.imp (.mapM each) ?_)
  intro lists holds relation member
  rcases mem_flatten.mp member with ⟨relations, present, inside⟩
  exact holds relations present relation inside

/-! ## What is gathered until a failure -/

namespace Gathered

variable {α β : Type}

theorem mem_andThen {first second : Gathered α} {item : α}
    (member : item ∈ (first.andThen second).items) : item ∈ first.items ∨ item ∈ second.items := by
  unfold andThen at member
  split at member
  · exact mem_append.mp member
  · exact .inl member

theorem mem_all {gather : β → Gathered α} {sources : List β} {item : α}
    (member : item ∈ (all gather sources).items) :
    ∃ source ∈ sources, item ∈ (gather source).items := by
  induction sources with
  | nil => cases member
  | cons source rest induction =>
    rcases mem_andThen member with here | later
    · exact ⟨source, mem_cons_self, here⟩
    · rcases induction later with ⟨other, present, inside⟩
      exact ⟨other, mem_cons_of_mem source present, inside⟩

theorem mem_needing {value : Except SourceError β} {gather : β → Gathered α} {item : α}
    (member : item ∈ (needing value gather).items) :
    ∃ given, value = .ok given ∧ item ∈ (gather given).items := by
  unfold needing at member
  split at member
  · rename_i given
    exact ⟨given, rfl, member⟩
  · cases member

theorem mem_ofExcept {computation : Except SourceError (List α)} {item : α}
    (member : item ∈ (ofExcept computation).items) :
    ∃ items, computation = .ok items ∧ item ∈ items := by
  unfold ofExcept at member
  split at member
  · rename_i items
    exact ⟨items, rfl, member⟩
  · cases member

theorem of_complete_andThen {first second : Gathered α}
    (complete : (first.andThen second).complete = true) :
    first.complete = true ∧ second.complete = true ∧
      (first.andThen second).items = first.items ++ second.items := by
  unfold andThen at complete ⊢
  split at complete
  · rename_i firstComplete
    rw [if_pos firstComplete]
    exact ⟨firstComplete, complete, rfl⟩
  · contradiction

theorem of_complete_all {gather : β → Gathered α} {sources : List β}
    (complete : (all gather sources).complete = true) {source : β} (member : source ∈ sources) :
    (gather source).complete = true ∧ (gather source).items ⊆ (all gather sources).items := by
  induction sources with
  | nil => cases member
  | cons first rest induction =>
    rcases of_complete_andThen complete with ⟨here, later, items⟩
    rw [all, items]
    rcases mem_cons.mp member with rfl | other
    · exact ⟨here, subset_append_left _ _⟩
    · rcases induction later other with ⟨completeThere, inside⟩
      exact ⟨completeThere, List.Subset.trans inside (subset_append_right _ _)⟩

end Gathered

/-! ## Places -/

namespace Place

mutual

theorem above_of_mem_allBelow {ancestors : List SyntaxTree} {previous : Option SyntaxTree} :
    {tree : SyntaxTree} → {place : Place} → place ∈ allBelow ancestors previous tree →
      {node : SyntaxTree} → {higher : List SyntaxTree} → node :: higher <:+ place.ancestors →
        node :: higher <:+ ancestors ∨
          ∃ above ∈ allBelow ancestors previous tree, above.tree = node ∧ above.ancestors = higher
  | .node kind start stop children, place, member, node, higher, suffix => by
    rw [allBelow] at member ⊢
    rcases mem_cons.mp member with rfl | below
    · exact .inl suffix
    · rcases above_of_mem_allOf below suffix with outside | ⟨above, present, same⟩
      · rcases suffix_cons_iff.mp outside with equal | outside
        · rcases List.cons.inj equal with ⟨rfl, rfl⟩
          exact .inr ⟨_, mem_cons_self, rfl, rfl⟩
        · exact .inl outside
      · exact .inr ⟨above, mem_cons_of_mem _ present, same⟩

theorem above_of_mem_allOf {ancestors : List SyntaxTree} {previous : Option SyntaxTree} :
    {trees : List SyntaxTree} → {place : Place} → place ∈ allOf ancestors previous trees →
      {node : SyntaxTree} → {higher : List SyntaxTree} → node :: higher <:+ place.ancestors →
        node :: higher <:+ ancestors ∨
          ∃ above ∈ allOf ancestors previous trees, above.tree = node ∧ above.ancestors = higher
  | [], place, member, node, higher, suffix => by
    rw [allOf] at member
    cases member
  | tree :: rest, place, member, node, higher, suffix => by
    rw [allOf] at member ⊢
    rcases mem_append.mp member with first | later
    · rcases above_of_mem_allBelow first suffix with outside | ⟨above, present, same⟩
      · exact .inl outside
      · exact .inr ⟨above, mem_append_left _ present, same⟩
    · rcases above_of_mem_allOf later suffix with outside | ⟨above, present, same⟩
      · exact .inl outside
      · exact .inr ⟨above, mem_append_right _ present, same⟩

end

theorem exists_above {tree node : SyntaxTree} {higher : List SyntaxTree} {place : Place}
    (member : place ∈ tree.places) (suffix : node :: higher <:+ place.ancestors) :
    ∃ above ∈ tree.places, above.tree = node ∧ above.ancestors = higher := by
  rcases above_of_mem_allBelow member suffix with outside | found
  · exact absurd (suffix_nil.mp outside) (cons_ne_nil _ _)
  · exact found

end Place

/-! ## What an analysis reports -/

/-- An identifier made of the stem of a file and a name with a dot between them. An empty stem may
be left out. -/
def Qualified (stem name id : String) : Prop :=
  id = stem ++ "." ++ name ∨ stem = "" ∧ name ≠ "" ∧ id = name

theorem qualified_dotted (stem name : String) : Qualified stem name (stem ++ "." ++ name) :=
  .inl rfl

theorem qualified_joined (stem : String) {name : String} (filled : name ≠ "") :
    Qualified stem name (if stem == "" then name else stem ++ "." ++ name) := by
  split
  · rename_i empty
    exact .inr ⟨beq_iff_eq.mp empty, filled, rfl⟩
  · exact qualified_dotted stem name

theorem Qualified.ne_empty {stem name id : String} (qualified : Qualified stem name id) :
    id ≠ "" := by
  rcases qualified with rfl | ⟨_, filled, rfl⟩
  · intro empty
    have length := congrArg String.length empty
    simp at length
  · exact filled

/-- A component of a file: it carries the path of the file, and its identifier is made of the stem
of the file and a name. -/
structure Component.Within (source : Source) (stem : String) (component : Component) : Prop where
  path : component.filePath = source.path
  qualified : ∃ name, Qualified stem name component.id

/-- A component of a file that spans a node of its tree. -/
def Component.Declared (source : Source) (stem : String) (component : Component) : Prop :=
  ∃ tree name id label kind className, Qualified stem name id ∧
    component = source.component tree id label kind className

theorem Component.Declared.within {source : Source} {stem : String} {component : Component}
    (declared : component.Declared source stem) : component.Within source stem := by
  rcases declared with ⟨_, name, _, _, _, _, qualified, rfl⟩
  exact ⟨rfl, name, qualified⟩

namespace Source

variable (source : Source) (tree : SyntaxTree)

@[simp] theorem id_component (id name kind : String) (className : Option String) :
    (source.component tree id name kind className).id = id :=
  rfl

@[simp] theorem name_component (id name kind : String) (className : Option String) :
    (source.component tree id name kind className).name = name :=
  rfl

@[simp] theorem caller_relation (caller callee : String) (resolved : Bool) :
    (source.relation tree caller callee resolved).caller = caller :=
  rfl

@[simp] theorem callee_relation (caller callee : String) (resolved : Bool) :
    (source.relation tree caller callee resolved).callee = callee :=
  rfl

@[simp] theorem resolved_relation (caller callee : String) (resolved : Bool) :
    (source.relation tree caller callee resolved).resolved = resolved :=
  rfl

end Source

namespace Findings

def ids (findings : Findings) : List String :=
  findings.components.map Component.id

/-- All components are components of the file. -/
def Within (source : Source) (stem : String) (findings : Findings) : Prop :=
  ∀ component ∈ findings.components, component.Within source stem

/-- All components span nodes of the file. -/
def Declared (source : Source) (stem : String) (findings : Findings) : Prop :=
  ∀ component ∈ findings.components, component.Declared source stem

theorem Declared.within {source : Source} {stem : String} {findings : Findings}
    (declared : findings.Declared source stem) : findings.Within source stem :=
  fun component member => (declared component member).within

/-- Every relation starts from a reported component. -/
def CallersReported (findings : Findings) : Prop :=
  ∀ relation ∈ findings.relations, relation.caller ∈ findings.ids

/-- Every relation that is marked as resolved leads to a reported component. -/
def MarkedReported (findings : Findings) : Prop :=
  ∀ relation ∈ findings.relations, relation.resolved = true → relation.callee ∈ findings.ids

theorem markedReported_of_unmarked {findings : Findings}
    (unmarked : ∀ relation ∈ findings.relations, relation.resolved = false) :
    findings.MarkedReported := by
  intro relation member marked
  rw [unmarked relation member] at marked
  cases marked

end Findings

/-! ## Outlines -/

namespace Outline

def ids (outline : Outline) : List String :=
  outline.components.map Component.id

/-- The outline with one more component in its table, which may be reported or not. -/
def add (outline : Outline) (key : String) (component : Component) (reported : Bool) : Outline :=
  { components := if reported then outline.components ++ [component] else outline.components
    table := outline.table.insert key component }

variable {outline : Outline} {key : String} {component : Component} {reported : Bool}

theorem mem_ids_add {id : String} (member : id ∈ outline.ids) :
    id ∈ (outline.add key component reported).ids := by
  unfold ids add
  dsimp only
  split
  · rw [map_append]
    exact mem_append_left _ member
  · exact member

theorem mem_ids_add_self {id : String} (same : component.id = id) :
    id ∈ (outline.add key component true).ids :=
  mem_map.mpr ⟨component, mem_concat_self, same⟩

theorem eq_or_mem_of_mem_add {other : Component}
    (member : other ∈ (outline.add key component reported).components) :
    other = component ∨ other ∈ outline.components := by
  unfold add at member
  dsimp only at member
  split at member
  · rcases mem_append.mp member with old | new
    · exact .inr old
    · exact .inl (mem_singleton.mp new)
  · exact .inr member

/-- One outline has nothing beyond another but components that span nodes of the file. -/
def Adds (source : Source) (stem : String) (outline after : Outline) : Prop :=
  ∀ component ∈ after.components,
    component ∈ outline.components ∨ component.Declared source stem

variable {source : Source} {stem : String}

theorem adds_refl (outline : Outline) : outline.Adds source stem outline :=
  fun _ => .inl

theorem adds_add (outline : Outline) (tree : SyntaxTree) {name id : String}
    (qualified : Qualified stem name id) (label kind : String) (className : Option String)
    (key : String) (reported : Bool) :
    outline.Adds source stem
      (outline.add key (source.component tree id label kind className) reported) :=
  fun _ member => (eq_or_mem_of_mem_add member).symm.imp_right fun same =>
    ⟨tree, name, id, label, kind, className, qualified, same⟩

theorem declared_collect {declare : Outline → Place → Except SourceError Outline}
    (adds : ∀ outline place, Ensures (declare outline place) (outline.Adds source stem))
    (tree : SyntaxTree) :
    Ensures (collect declare tree) fun outline =>
      ∀ component ∈ outline.components, component.Declared source stem := by
  refine .foldlM (forall_mem_nil _) ?_
  intro outline place _ declared
  refine .imp (adds outline place) fun after added component member => ?_
  exact (added component member).elim (declared component) id

end Outline

end CodeAtlas
