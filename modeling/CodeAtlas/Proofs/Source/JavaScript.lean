import CodeAtlas.Source.JavaScript
import CodeAtlas.Proofs.Source.Traversal

/-!
The components that the analysis of a JavaScript file reports belong to the file: classes,
functions, functions bound to constants and exported functions all carry its path and are
identified by its stem and a name. A call of a class to its own method is passed over where the
class is found again by its name, and another class whose name holds that name may be found first.
-/

namespace CodeAtlas.Source.JavaScript

open List

variable {source : Source}

/-- The component that is found, if there is one, belongs to the file. -/
def FindsWithin (source : Source) (search : Except SourceError (Option Component)) : Prop :=
  Ensures search fun found => ∀ component, found = some component →
    component.Within source (moduleName source)

theorem findsWithin_none : FindsWithin source (pure none) :=
  .pure fun _ nothing => nomatch nothing

theorem findsWithin_some {component : Component}
    (within : component.Within source (moduleName source)) :
    FindsWithin source (pure (some component)) :=
  .pure fun _ equal => Option.some.inj equal ▸ within

theorem within_functionComponent (lines : SyntaxTree) (name text display : String)
    (parameters : List String) :
    (functionComponent source lines name text display parameters).Within source
      (moduleName source) :=
  ⟨rfl, name, qualified_dotted _ name⟩

theorem findsWithin_classComponent (tree : SyntaxTree) :
    FindsWithin source (classComponent source tree) := by
  unfold classComponent
  split
  · exact findsWithin_none
  · refine .bind fun name _ => .bind fun bases _ => findsWithin_some ?_
    exact ⟨rfl, name, qualified_dotted _ name⟩

theorem findsWithin_declaredFunction (tree : SyntaxTree) :
    FindsWithin source (declaredFunction source tree) := by
  unfold declaredFunction
  split
  · exact findsWithin_none
  · exact .bind fun name _ => .bind fun parameters _ => .bind fun text _ =>
      findsWithin_some (within_functionComponent tree name text _ parameters)

theorem findsWithin_exportedFunction (tree : SyntaxTree) :
    FindsWithin source (exportedFunction source tree) := by
  unfold exportedFunction
  split
  · exact findsWithin_none
  · rename_i function _
    split
    · exact findsWithin_none
    · rename_i component joined
      have returned : declaredFunction source function = .ok (some component) := by
        cases computed : declaredFunction source function with
        | error failure =>
          rw [computed] at joined
          cases joined
        | ok found =>
          rw [computed] at joined
          exact congrArg Except.ok joined
      have within := findsWithin_declaredFunction function _ returned component rfl
      refine .bind fun text _ => ?_
      split
      · exact findsWithin_some ⟨within.path, within.qualified⟩
      · exact findsWithin_some within

theorem findsWithin_boundFunction (tree : SyntaxTree) :
    FindsWithin source (boundFunction source tree) := by
  unfold boundFunction
  dsimp only
  split
  · exact findsWithin_none
  · exact .bind fun name _ => .bind fun parameters _ => .bind fun text _ =>
      findsWithin_some (within_functionComponent _ name text _ parameters)

theorem within_of_mem_reported {search : Except SourceError (Option Component)}
    (within : FindsWithin source search) {declared : Declared}
    (member : declared ∈ (reported search).items) :
    declared.component.Within source (moduleName source) := by
  unfold reported at member
  split at member
  · rename_i component
    rw [mem_singleton.mp member]
    exact within _ rfl component rfl
  · cases member

theorem not_reported_of_mem_methodsOf {className : String} {tree : SyntaxTree}
    {declared : Declared} (member : declared ∈ (methodsOf source className tree).items) :
    declared.reported = false := by
  rcases Gathered.mem_all member with ⟨item, _, inside⟩
  split at inside
  · cases inside
  · rcases Gathered.mem_needing inside with ⟨name, _, present⟩
    split at present
    · rw [mem_singleton.mp present]
    · cases present

theorem mem_of_mem_unlessInClass {place : Place} {gathered : Gathered Declared}
    {declared : Declared} (member : declared ∈ (unlessInClass source place gathered).items) :
    declared ∈ gathered.items := by
  rcases Gathered.mem_needing member with ⟨owner, _, present⟩
  split at present
  · cases present
  · exact present

theorem within_of_mem_class {place : Place} {component : Component} {declared : Declared}
    (returned : classComponent source place.tree = .ok (some component))
    (member : declared ∈ ((reported (.ok (some component))).andThen
      (methodsOf source component.name place.tree)).items) (shown : declared.reported = true) :
    declared.component.Within source (moduleName source) := by
  rcases Gathered.mem_andThen member with here | method
  · exact within_of_mem_reported (returned ▸ findsWithin_classComponent place.tree) here
  · rw [not_reported_of_mem_methodsOf method] at shown
    cases shown

theorem within_of_mem_declarationsAt {place : Place} {declared : Declared}
    (member : declared ∈ (declarationsAt source place).items) (shown : declared.reported = true) :
    declared.component.Within source (moduleName source) := by
  unfold declarationsAt at member
  split at member
  iterate 3
    · split at member
      · rename_i returned
        exact within_of_mem_class returned member shown
      · cases member
  · exact within_of_mem_reported (findsWithin_declaredFunction place.tree)
      (mem_of_mem_unlessInClass member)
  · exact within_of_mem_reported (findsWithin_declaredFunction place.tree)
      (mem_of_mem_unlessInClass member)
  · exact within_of_mem_reported (findsWithin_exportedFunction place.tree) member
  · exact within_of_mem_reported (findsWithin_boundFunction place.tree)
      (mem_of_mem_unlessInClass member)
  · cases member

/-! ## The analysis -/

theorem within_analyze (source : Source) (tree : Option SyntaxTree) :
    (analyze source tree).Within source (moduleName source) := by
  unfold analyze
  split
  · exact forall_mem_nil _
  · rename_i tree
    have reported : ∀ component ∈ reportedComponents
        (Gathered.all (declarationsAt source) tree.places).items,
        component.Within source (moduleName source) := by
      intro component member
      rcases mem_map.mp member with ⟨declared, kept, rfl⟩
      rcases mem_filter.mp kept with ⟨present, shown⟩
      rcases Gathered.mem_all present with ⟨place, _, inside⟩
      exact within_of_mem_declarationsAt inside shown
    dsimp only
    split
    · exact fun component member => reported component (mem_mergeSort.mp member)
    · exact reported

/-! ## What is open -/

/-- The nodes below which another component may be open. -/
def openingKinds : List String :=
  ["class_declaration", "abstract_class_declaration", "interface_declaration",
    "function_declaration", "generator_function_declaration", "lexical_declaration"]

theorem ownerBelow_plain {tree : SyntaxTree} (plain : tree.kind ∉ openingKinds)
    (above : Option String) : ownerBelow source above tree = .ok above := by
  unfold ownerBelow
  simp only [openingKinds, mem_cons, not_mem_nil, or_false, not_or] at plain
  split <;> first | rfl | simp_all

theorem ownerWithin_append {inner outer : List SyntaxTree}
    (plain : ∀ node ∈ inner, node.kind ∉ openingKinds) :
    ownerWithin source (inner ++ outer) = ownerWithin source outer := by
  induction inner with
  | nil => rfl
  | cons node rest induction =>
    rw [cons_append, ownerWithin,
      induction fun other member => plain other (mem_cons_of_mem node member)]
    cases ownerWithin source outer with
    | error failure => rfl
    | ok above => exact ownerBelow_plain (plain node mem_cons_self) above

theorem named_classComponent (tree : SyntaxTree) :
    Ensures (classComponent source tree) fun found => ∀ component, found = some component →
      ∃ nameNode, classNameNode? tree = some nameNode ∧
        source.textOf nameNode = .ok component.name := by
  unfold classComponent
  split
  · exact .pure fun _ nothing => nomatch nothing
  · rename_i nameNode isName
    refine .bind fun name named => .bind fun bases _ => .pure ?_
    rintro component equal
    rw [← Option.some.inj equal]
    exact ⟨nameNode, isName, named⟩

/-! ## Calls of methods of the own class -/

/-- A class with a method, and a call of that name in the class and in no component inside it. The
texts of the file can be read as far as the components are looked for. -/
structure OwnCall (source : Source) (tree : SyntaxTree) where
  complete : (Gathered.all (declarationsAt source) tree.places).complete = true
  owner : Place
  ownerInside : owner ∈ tree.places
  isClass : owner.kind = "class_declaration"
  component : Component
  declares : classComponent source owner.tree = .ok (some component)
  filledOwner : component.name ≠ ""
  around : Option String
  readAround : ownerWithin source owner.ancestors = .ok around
  body : SyntaxTree
  hasBody : owner.tree.child? "class_body" = some body
  method : SyntaxTree
  member : method ∈ body.children
  isMethod : method.kind = "method_definition"
  nameNode : SyntaxTree
  hasName : method.child? "property_identifier" = some nameNode
  name : String
  named : source.textOf nameNode = .ok name
  filled : name ≠ ""
  place : Place
  inside : place ∈ tree.places
  isCall : place.kind = "call_expression"
  inner : List SyntaxTree
  way : place.ancestors = inner ++ owner.tree :: owner.ancestors
  plain : ∀ node ∈ inner, node.kind ∉ openingKinds
  calls : calleeName source place.tree = .ok (some name)
  text : String
  read : source.textOf place.tree = .ok text

namespace OwnCall

variable {tree : SyntaxTree} (call : OwnCall source tree)

def className : String := call.component.name

def declared (_ : OwnCall source tree) : List Declared :=
  (Gathered.all (declarationsAt source) tree.places).items

theorem method_known :
    (table call.declared).contains (methodId source call.className call.name) = true := by
  rcases Gathered.of_complete_all call.complete call.ownerInside with ⟨complete, inside⟩
  have atOwner : declarationsAt source call.owner =
      (reported (.ok (some call.component))).andThen
        (methodsOf source call.className call.owner.tree) := by
    unfold declarationsAt
    rw [call.isClass, call.declares]
    rfl
  rw [atOwner] at complete inside
  rcases Gathered.of_complete_andThen complete with ⟨_, methods, items⟩
  rw [items] at inside
  unfold methodsOf at methods inside
  rw [call.hasBody] at methods inside
  rcases Gathered.of_complete_all methods call.member with ⟨_, atMethod⟩
  have isNamed : memberName? call.method = some call.nameNode := by
    rw [memberName?, call.isMethod]
    exact call.hasName
  have holds : holdsFunction call.method = true := by
    rw [holdsFunction, call.isMethod]
    rfl
  have filled : decide (call.name ≠ "") = true := decide_eq_true call.filled
  simp only [isNamed, call.named, Gathered.needing, filled, holds, Bool.and_self, if_true]
    at atMethod
  have found := inside (mem_append_right _ (atMethod mem_cons_self))
  rw [OrderedMap.contains_iff, table, OrderedMap.mem_keys_ofList_iff, map_map]
  exact mem_map.mpr ⟨_, found, rfl⟩

/-- The text of the call names the object, and the first class that is known by a name with the name
of the own class in it is the own class, or it has a method of that name too. -/
def suppressed : Bool :=
  Text.containsAny call.text ["this.", "super."] &&
    (classAround? (table call.declared) call.className).any fun other => other ≠ "" &&
      (other == call.className ||
        (table call.declared).contains (methodId source other call.name))

theorem isOwnMethod_eq :
    isOwnMethod source (table call.declared) call.className call.name call.text =
      call.suppressed := by
  unfold isOwnMethod suppressed
  cases classAround? (table call.declared) call.className with
  | none => rfl
  | some other =>
    by_cases empty : other = ""
    · simp [empty]
    · by_cases own : other = call.className
      · simp [own ▸ empty, own, call.method_known]
      · simp [empty, beq_false_of_ne own]

/-- What the call is related to: nothing if it is suppressed. -/
def related : List Relation :=
  if call.suppressed then []
  else [source.relation call.place.tree (componentId source call.className)
    (componentId source call.name) ((table call.declared).contains call.name)]

theorem callRelation_eq :
    callRelation source (table call.declared) call.className call.place.tree =
      .ok call.related := by
  unfold callRelation related
  rw [call.calls, call.read, ← call.isOwnMethod_eq]
  simp only [bind, Except.bind]
  split
  · contradiction
  · rename_i empty
    exact absurd (Option.some.inj empty) call.filled
  · rename_i callee _ equal
    rw [← Option.some.inj equal]
    split <;> rfl

theorem ownerWithin_place : ownerWithin source call.place.ancestors = .ok (some call.className) := by
  rcases named_classComponent call.owner.tree _ call.declares call.component rfl with
    ⟨nameNode, isName, named⟩
  have isClass : call.owner.tree.kind = "class_declaration" := call.isClass
  rw [call.way, ownerWithin_append call.plain, ownerWithin, call.readAround]
  simp only [bind, Except.bind, ownerBelow, isClass, isName, textOf?, named]
  rfl

theorem useRelations_eq :
    useRelations source (table call.declared) call.className call.place =
      .ofList call.related := by
  rw [useRelations, call.isCall]
  simp only [call.callRelation_eq]
  rfl

end OwnCall

theorem withName_of_ne {name : String} (filled : name ≠ "") (gather : String → Gathered Relation) :
    withName (some name) gather = gather name := by
  unfold withName
  split
  · contradiction
  · rename_i empty
    exact absurd (Option.some.inj empty) filled
  · rename_i equal
    rw [Option.some.inj equal]

/-- A call in a class, in no component inside it, of a name that a method of the class has, is
suppressed if its text holds `this.` or `super.` and the first known class whose name holds the name
of the class is the class itself or has such a method too. Otherwise it is related by the class. -/
theorem own_call_suppressed_iff (source : Source) (tree : SyntaxTree) (call : OwnCall source tree) :
    (analyze source (some tree)).relations =
        firstOfEach [] (Gathered.all (relationsAt source (table call.declared)) tree.places).items ∧
      relationsAt source (table call.declared) call.place =
        (commentRelations source call.className call.place).andThen
          (.ofList (if call.suppressed then []
            else [source.relation call.place.tree (componentId source call.className)
              (componentId source call.name) ((table call.declared).contains call.name)])) := by
  constructor
  · simp [analyze, call.complete]
    rfl
  · have plain : call.place.tree.kind ∉ openingKinds := by
      rw [show call.place.tree.kind = _ from call.isCall]
      decide
    have noClass : inheritanceRelations source call.place = .nothing := by
      rw [inheritanceRelations, call.isCall]
      rfl
    have filled : call.className ≠ "" := call.filledOwner
    rw [relationsAt, call.ownerWithin_place, Gathered.needing]
    simp only [ownerBelow_plain plain, Gathered.needing, withName_of_ne filled, noClass,
      call.useRelations_eq]
    rfl

def cartSource : Source where
  path := "/r/shop.js"
  repository := "/r"
  text := "class CartItem {}\nclass Cart { add() { this.add(); } }\n"

def cartCall : SyntaxTree :=
  .node "call_expression" 39 49 [
    .node "member_expression" 39 47 [.node "this" 39 43 [], .node "property_identifier" 44 47 []]]

def cartStatement : SyntaxTree := .node "expression_statement" 39 50 [cartCall]

def cartBlock : SyntaxTree := .node "statement_block" 37 52 [cartStatement]

def cartMethod : SyntaxTree :=
  .node "method_definition" 31 52 [.node "property_identifier" 31 34 [], cartBlock]

def cartBody : SyntaxTree := .node "class_body" 29 54 [cartMethod]

def cartClass : SyntaxTree :=
  .node "class_declaration" 18 54 [.node "identifier" 24 28 [], cartBody]

/-- A class with a method that calls itself, behind a class whose name starts with its name. -/
def cartTree : SyntaxTree :=
  .node "program" 0 55 [
    .node "class_declaration" 0 17 [.node "identifier" 6 14 [], .node "class_body" 15 17 []],
    cartClass]

/-- The class calls its own method, and a relation is found for the call. -/
theorem own_call_not_suppressed :
    ∃ call : OwnCall cartSource cartTree, call.text = "this.add()" ∧
      (⟨"shop.Cart", "shop.add", some 2, false⟩ : Relation) ∈
        (analyze cartSource (some cartTree)).relations := by
  refine ⟨{ complete := by decide +kernel
            owner := ⟨cartClass, [cartTree], _⟩
            ownerInside := List.mem_of_getElem? (i := 4) rfl
            isClass := rfl
            component := _
            declares := rfl
            filledOwner := by decide
            around := none
            readAround := rfl
            body := cartBody
            hasBody := rfl
            method := cartMethod
            member := List.mem_cons_self
            isMethod := rfl
            nameNode := _
            hasName := rfl
            name := "add"
            named := by decide +kernel
            filled := by decide
            place := ⟨cartCall, [cartStatement, cartBlock, cartMethod, cartBody, cartClass,
              cartTree], none⟩
            inside := List.mem_of_getElem? (i := 11) rfl
            isCall := rfl
            inner := [cartStatement, cartBlock, cartMethod, cartBody]
            way := rfl
            plain := by decide
            calls := by decide +kernel
            text := "this.add()"
            read := by decide +kernel }, rfl, by decide +kernel⟩

end CodeAtlas.Source.JavaScript
