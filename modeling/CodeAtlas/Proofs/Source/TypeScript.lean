import CodeAtlas.Source.TypeScript
import CodeAtlas.Proofs.Source.Traversal

/-!
The relations of a TypeScript file start from reported components, and none is marked as resolved.
The component that is open at a node is only ever replaced by one that is reported, so whatever is
open when a relation is met has been reported. The entities of all depths are entered under their
names, so a declaration of the program is reported as long as no later entity takes its name.
-/

namespace CodeAtlas.Source.TypeScript

open List

/-! ## The open component -/

theorem knows_ownerAt (context : Context) {above : Option String}
    (known : ∀ name, above = some name → context.knows name = true) (tree : SyntaxTree) :
    Ensures (ownerAt context above tree) fun owner =>
      ∀ name, owner = some name → context.knows name = true := by
  rw [ownerAt]
  split
  · refine .bind fun declared _ => ?_
    split
    · exact .pure known
    · refine .pure fun name equal => ?_
      split at equal
      · rename_i reported
        exact Option.some.inj equal ▸ reported
      · exact known name equal
  · exact .pure known

theorem knows_ownerWithin (context : Context) (ancestors : List SyntaxTree) :
    Ensures (ownerWithin context ancestors) fun owner =>
      ∀ name, owner = some name → context.knows name = true := by
  induction ancestors with
  | nil => exact .pure fun name nothing => nomatch nothing
  | cons node higher induction =>
    rw [ownerWithin]
    exact .bind fun above returned =>
      knows_ownerAt context (induction above returned) node

/-! ## Relations -/

/-- A relation from a component of the file that is not marked. -/
def PlainFrom (context : Context) (owner : String) (relation : Relation) : Prop :=
  relation.caller = componentId context.source owner ∧ relation.resolved = false

variable {context : Context} {owner : String} {tree : SyntaxTree}

theorem plainFrom_relate (callee : String) :
    PlainFrom context owner (relate context tree owner callee) :=
  ⟨rfl, rfl⟩

theorem plainFrom_callRelations :
    Ensures (callRelations context owner tree) fun relations =>
      ∀ relation ∈ relations, PlainFrom context owner relation := by
  unfold callRelations
  refine .bind fun called _ => ?_
  split
  · exact .nil
  · exact .nil
  · refine .bind fun text _ => ?_
    split
    · exact .nil
    · split
      · exact .singleton (plainFrom_relate _)
      · exact .nil

theorem plainFrom_creationRelations :
    Ensures (creationRelations context owner tree) fun relations =>
      ∀ relation ∈ relations, PlainFrom context owner relation := by
  unfold creationRelations
  refine .bind fun created _ => ?_
  split
  · exact .nil
  · exact .nil
  · exact .singleton (plainFrom_relate _)

theorem plainFrom_memberRelations :
    Ensures (memberRelations context owner tree) fun relations =>
      ∀ relation ∈ relations, PlainFrom context owner relation := by
  unfold memberRelations
  refine .bind fun member _ => ?_
  split
  · exact .nil
  · exact .nil
  · exact .singleton (plainFrom_relate _)

theorem plainFrom_typeRelations {unknown : Bool} {names : List SyntaxTree} {relation : Relation}
    (member : relation ∈ (typeRelations context owner tree unknown names).items) :
    PlainFrom context owner relation := by
  rcases Gathered.mem_all member with ⟨nameNode, _, inside⟩
  rcases Gathered.mem_needing inside with ⟨name, _, present⟩
  split at present
  · cases present
  · have only := (mem_ite_nil_right.mp present).2
    rw [mem_singleton.mp only]
    exact plainFrom_relate name

theorem plainFrom_useRelations {relation : Relation}
    (member : relation ∈ (useRelations context owner tree).items) :
    PlainFrom context owner relation := by
  unfold useRelations at member
  split at member
  · rcases Gathered.mem_ofExcept member with ⟨relations, returned, present⟩
    exact plainFrom_callRelations relations returned relation present
  · rcases Gathered.mem_ofExcept member with ⟨relations, returned, present⟩
    exact plainFrom_creationRelations relations returned relation present
  · rcases Gathered.mem_ofExcept member with ⟨relations, returned, present⟩
    exact plainFrom_memberRelations relations returned relation present
  · exact plainFrom_typeRelations member
  · exact plainFrom_typeRelations member
  · exact plainFrom_typeRelations member
  · exact plainFrom_typeRelations member
  · cases member

theorem plain_relationsAt {place : Place} {relation : Relation}
    (member : relation ∈ (relationsAt context place).items) :
    ∃ owner, context.knows owner = true ∧ PlainFrom context owner relation := by
  rcases Gathered.mem_needing member with ⟨found, returned, present⟩
  split at present
  · cases present
  · cases present
  · rename_i owner _
    have known := knows_ownerWithin context _ _ returned owner rfl
    exact ⟨owner, known, plainFrom_useRelations present⟩

/-! ## The analysis -/

theorem within_analyze (source : Source) (tree : Option SyntaxTree) :
    (analyze source tree).Within source (moduleName source) := by
  unfold analyze
  split
  · exact forall_mem_nil _
  · split
    · exact forall_mem_nil _
    · intro component member
      rcases mem_map.mp member with ⟨found, _, rfl⟩
      exact ⟨rfl, found.name, qualified_dotted _ _⟩

theorem plain_analyze (source : Source) (tree : Option SyntaxTree) :
    (analyze source tree).CallersReported ∧
      ∀ relation ∈ (analyze source tree).relations, relation.resolved = false := by
  suffices ∀ relation ∈ (analyze source tree).relations,
      relation.caller ∈ (analyze source tree).ids ∧ relation.resolved = false from
    ⟨fun relation member => (this relation member).1,
      fun relation member => (this relation member).2⟩
  unfold analyze
  split
  · exact forall_mem_nil _
  · split
    · exact forall_mem_nil _
    · intro relation member
      rcases Gathered.mem_all member with ⟨place, _, inside⟩
      rcases plain_relationsAt inside with ⟨owner, known, caller, unmarked⟩
      refine ⟨?_, unmarked⟩
      rcases mem_map.mp (contains_iff_mem.mp known) with ⟨found, reported, rfl⟩
      rw [caller]
      exact mem_map.mpr ⟨_, mem_map_of_mem reported, rfl⟩

/-! ## The entities of a name -/

variable {source : Source}

/-- The entity of a place; one without a name does not count. -/
def namedEntity? (source : Source) (place : Place) : Option Entity :=
  (entityAt source place).toOption.join.filter fun found => found.name ≠ ""

/-- Every text that the entities need can be read. -/
def Readable (source : Source) (places : List Place) : Prop :=
  ∀ place ∈ places, ∃ found, entityAt source place = .ok found

/-- The last entity with a name. -/
def lastNamed? (source : Source) (places : List Place) (name : String) : Option Entity :=
  (places.filterMap (namedEntity? source)).reverse.find? fun found => found.name = name

theorem enter_eq {place : Place} {found : Option Entity}
    (returned : entityAt source place = .ok found) (entities : Entities) :
    enter source entities place = .ok ((namedEntity? source place).elim entities fun found =>
      entities.insert found.name found) := by
  unfold enter namedEntity?
  rw [returned]
  cases found with
  | none => rfl
  | some found =>
    by_cases empty : found.name = "" <;>
      simp [bind, Except.bind, pure, Except.pure, Except.toOption, Option.filter, empty]

theorem foldlM_enter {places : List Place} (readable : Readable source places)
    (entities : Entities) :
    places.foldlM (enter source) entities =
      .ok ((places.filterMap (namedEntity? source)).foldl (fun entities found =>
        entities.insert found.name found) entities) := by
  induction places generalizing entities with
  | nil => rfl
  | cons place rest induction =>
    rcases readable place mem_cons_self with ⟨found, returned⟩
    rw [foldlM_cons, enter_eq returned]
    have others := induction fun other member =>
      readable other (mem_cons_of_mem place member)
    cases named : namedEntity? source place with
    | none =>
      rw [filterMap_cons_none named]
      exact others entities
    | some entity =>
      rw [filterMap_cons_some named]
      exact others (entities.insert entity.name entity)

theorem readable_of_entered (places : List Place) (start : Entities) :
    Ensures (places.foldlM (enter source) start) fun _ => Readable source places :=
  .foldlM_each (fun _ _ _ => .bind fun found returned _ _ => ⟨found, returned⟩)
    fun _ _ _ known _ _ => known

theorem lastNamed?_append (first second : List Place) (name : String) :
    lastNamed? source (first ++ second) name =
      (lastNamed? source second name).or (lastNamed? source first name) := by
  unfold lastNamed?
  rw [filterMap_append, reverse_append, find?_append]

theorem name_of_lastNamed? {places : List Place} {name : String} {found : Entity}
    (last : lastNamed? source places name = some found) : found.name = name := by
  unfold lastNamed? at last
  simpa using find?_some last

/-- A component of some name stands for some line. -/
def Represented (source : Source) (tree : SyntaxTree) (name : String) (line : Nat) : Prop :=
  ∃ component ∈ (analyze source (some tree)).components,
    component.name = name ∧ component.startLine = line

theorem represented_iff (tree : SyntaxTree) (name : String) (line : Nat) :
    Represented source tree name line ↔ Readable source tree.places ∧
      ∃ found, lastNamed? source tree.places name = some found ∧ isReported found = true ∧
        found.first = line := by
  unfold Represented analyze
  cases returned : tree.places.foldlM (enter source) .empty with
  | error failure =>
    have unread : ¬ Readable source tree.places := fun readable => by
      rw [foldlM_enter readable] at returned
      cases returned
    simp [returned, unread]
  | ok entities =>
    have readable := readable_of_entered _ _ entities returned
    have kept (key : String) : entities.get? key = lastNamed? source tree.places key := by
      rw [foldlM_enter readable] at returned
      rw [← Except.ok.inj returned, OrderedMap.get?_foldl_insert, OrderedMap.get?_empty,
        Option.or_none]
      rfl
    simp only [returned, readable, true_and, mem_map, reportedEntities, mem_filter]
    constructor
    · rintro ⟨_, ⟨found, ⟨member, reported⟩, rfl⟩, rfl, starts⟩
      rcases mem_map.mp member with ⟨⟨key, _⟩, entry, rfl⟩
      have last := (entities.get?_eq_some_iff key _).mpr entry
      rw [kept] at last
      have same := name_of_lastNamed? last
      exact ⟨_, same ▸ last, reported, Int.ofNat_inj.mp starts⟩
    · rintro ⟨found, last, reported, rfl⟩
      have same := name_of_lastNamed? last
      rw [← kept, OrderedMap.get?_eq_some_iff] at last
      exact ⟨_, ⟨found, ⟨mem_map_of_mem last, reported⟩, rfl⟩, same, rfl⟩

/-! ## Declarations at the top -/

def nameChild? (tree : SyntaxTree) : Option SyntaxTree :=
  match tree.kind with
  | "function_declaration" => tree.child? "identifier"
  | "class_declaration" => typeNameNode? tree
  | "interface_declaration" => tree.child? "type_identifier"
  | _ => none

/-- A function, class or interface that is declared directly in the program, by a name that may be
reported, with the places before it and the later ones. -/
structure TopDeclaration (source : Source) (tree : SyntaxTree) where
  place : Place
  before : List Place
  later : List Place
  split : tree.places = before ++ place :: later
  isProgram : tree.kind = "program"
  directly : place.ancestors = [tree]
  nameNode : SyntaxTree
  hasName : nameChild? place.tree = some nameNode
  name : String
  named : source.textOf nameNode = .ok name
  filled : name ≠ ""
  allowed : Text.lower name ∉ ["constructor", "__proto__", "prototype"]

namespace TopDeclaration

variable {tree : SyntaxTree} (declaration : TopDeclaration source tree)

def line : Nat := source.startLine declaration.place.tree

/-- An entity that stands for the declaration. -/
structure IsEntity (found : Entity) : Prop where
  name : found.name = declaration.name
  first : found.first = declaration.line
  place : found.place = declaration.place
  form : found.form = found.kind
  kind : found.kind ∈ ["function", "class", "interface"]

variable {declaration} in
theorem IsEntity.isReported {found : Entity} (own : declaration.IsEntity found) :
    isReported found = true := by
  have top : isTop declaration.place = true := by
    simp [isTop, declaration.directly, insideFunction, declaration.isProgram, topKinds]
  have plain : found.kind ≠ ambientForm ∧ found.kind ≠ "variable" := by
    have kinds : ∀ kind ∈ ["function", "class", "interface"],
      kind ≠ ambientForm ∧ kind ≠ "variable" := by decide
    exact kinds _ own.kind
  have allowed := declaration.allowed
  simp_all [TypeScript.isReported, own.name, own.place, own.form]

/-- The search finds an entity that stands for the declaration. -/
def Finds (search : Except SourceError (Option Entity)) : Prop :=
  Ensures search fun found => ∃ own, found = some own ∧ declaration.IsEntity own

theorem eq_name {name : String} (returned : source.textOf declaration.nameNode = .ok name) :
    name = declaration.name :=
  Except.ok.inj (returned.symm.trans declaration.named)

theorem finds_functionEntity
    (hasName : declaration.place.tree.child? "identifier" = some declaration.nameNode) :
    declaration.Finds (functionEntity source "function" declaration.place) := by
  unfold functionEntity
  rw [hasName]
  exact .bind fun _ returned => .bind fun _ _ => .bind fun _ _ =>
    .pure ⟨_, rfl, declaration.eq_name returned, rfl, rfl, rfl, .head _⟩

theorem finds_typeEntity {kind : String} (own : kind ∈ ["function", "class", "interface"]) :
    declaration.Finds
      (typeEntity source kind kind (some declaration.nameNode) declaration.place) :=
  .bind fun _ returned => .bind fun _ _ => .bind fun _ _ =>
    .pure ⟨_, rfl, declaration.eq_name returned, rfl, rfl, rfl, own⟩

theorem finds_entityAt : declaration.Finds (entityAt source declaration.place) := by
  have hasName := declaration.hasName
  unfold nameChild? at hasName
  unfold entityAt Place.kind
  split at hasName
  · rename_i kind
    rw [kind]
    exact declaration.finds_functionEntity hasName
  · rename_i kind
    rw [kind, hasName]
    exact declaration.finds_typeEntity (by decide)
  · rename_i kind
    rw [kind, hasName]
    exact declaration.finds_typeEntity (by decide)
  · cases hasName

end TopDeclaration

/-- A declaration at the top of a file whose texts can be read is represented by a component with
its name and line, unless an entity with its name comes later, at whatever depth: the last of those
must then be reported and start on that line. -/
theorem top_declaration_represented_iff (source : Source) (tree : SyntaxTree)
    (declaration : TopDeclaration source tree) :
    Represented source tree declaration.name declaration.line ↔
      Readable source tree.places ∧
        ∀ found, lastNamed? source declaration.later declaration.name = some found →
          isReported found = true ∧ found.first = declaration.line := by
  rw [represented_iff]
  refine and_congr_right fun readable => ?_
  have inside : declaration.place ∈ tree.places := by
    rw [declaration.split]
    exact List.mem_append_right _ List.mem_cons_self
  rcases readable declaration.place inside with ⟨found, returned⟩
  rcases declaration.finds_entityAt found returned with ⟨own, rfl, isOwn⟩
  have named : namedEntity? source declaration.place = some own := by
    rw [namedEntity?, returned]
    simp [Except.toOption, Option.filter, isOwn.name, declaration.filled]
  have here : lastNamed? source [declaration.place] declaration.name = some own := by
    rw [lastNamed?, List.filterMap_cons_some named]
    simp [isOwn.name]
  rw [declaration.split, ← List.singleton_append, lastNamed?_append, lastNamed?_append, here]
  cases lastNamed? source declaration.later declaration.name with
  | none => simp [isOwn.isReported, isOwn.first]
  | some later => simp

def hidingSource : Source where
  path := "/r/shop.ts"
  repository := "/r"
  text := "function size() {}\nfunction area() { const size = 2; }\n"

/-- A function, and a constant of the same name in the body of a second function. -/
def hidingTree : SyntaxTree :=
  .node "program" 0 55 [
    .node "function_declaration" 0 18 [.node "identifier" 9 13 [], .node "statement_block" 16 18 []],
    .node "function_declaration" 19 54 [
      .node "identifier" 28 32 [],
      .node "statement_block" 35 54 [
        .node "lexical_declaration" 37 52 [
          .node "variable_declarator" 43 51 [
            .node "identifier" 43 47 [], .node "number" 50 51 []]]]]]

/-- The function is the only node in the program with its name, but no component represents it. -/
theorem function_hidden_by_constant :
    ∃ declaration : TopDeclaration hidingSource hidingTree,
      (hidingTree.children.filterMap nameChild?).countP (fun node =>
        (hidingSource.textOf node).toOption = some declaration.name) = 1 ∧
      ¬ Represented hidingSource hidingTree declaration.name declaration.line := by
  refine ⟨⟨_, hidingTree.places.take 1, hidingTree.places.drop 2, rfl, rfl, rfl, _, rfl, "size", ?_, ?_,
    ?_⟩, ?_, ?_⟩
  · decide +kernel
  · decide
  · decide +kernel
  · decide +kernel
  · unfold Represented
    decide +kernel

end CodeAtlas.Source.TypeScript
