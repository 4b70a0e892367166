import CodeAtlas.Source.Python
import CodeAtlas.Proofs.Source.Traversal

/-!
A relation of a Python file is marked as resolved when its callee is a name that the walk knows, and
the walk knows a name only after it has reported a component of that name. So marked relations lead
to reported components. What is open when the walk comes to a place of the tree is said by what
stands above and before the place, and so is what the walk reports and relates there. The end of a
function leaves none open, so calls behind a method in a function are lost.
-/

namespace CodeAtlas

variable {place : PythonPlace} {known : List String}

/-! ## Places -/

/-- The nodes above a place, nearest first, each with those of its children that come before the
way down to the place. -/
abbrev PythonTree.Way := List (PythonTree × List PythonTree)

structure PythonPlace where
  tree : PythonTree
  above : PythonTree.Way

namespace PythonTree

mutual

def placesBelow (above : Way) : PythonTree → List PythonPlace
  | .node kind line stop texts children =>
    let tree := PythonTree.node kind line stop texts children
    ⟨tree, above⟩ :: placesAmong tree above [] children

def placesAmong (parent : PythonTree) (above : Way) (before : List PythonTree) :
    List (String × PythonTree) → List PythonPlace
  | [] => []
  | (_, child) :: rest =>
    placesBelow ((parent, before) :: above) child ++
      placesAmong parent above (before ++ [child]) rest

end

def places (tree : PythonTree) : List PythonPlace := tree.placesBelow []

mutual

/-- A node of one of some kinds is in the tree. -/
def defines (kinds : List String) : PythonTree → Bool
  | .node kind _ _ _ children => kinds.contains kind || anyDefines kinds children

def anyDefines (kinds : List String) : List (String × PythonTree) → Bool
  | [] => false
  | (_, child) :: rest => defines kinds child || anyDefines kinds rest

end

theorem anyDefines_eq (kinds : List String) (children : List (String × PythonTree)) :
    anyDefines kinds children = (children.map Prod.snd).any (defines kinds) := by
  induction children with
  | nil => rfl
  | cons child rest induction => rw [anyDefines, induction, List.map_cons, List.any_cons]

def classKinds : List String := ["ClassDef"]

def functionKinds : List String := ["FunctionDef", "AsyncFunctionDef"]

/-- The name of the definition of one of some kinds that is open: the nearest one above, unless
another one has ended since. -/
def openAbove (kinds : List String) : Way → Option String
  | [] => none
  | (parent, before) :: above =>
    if before.any (defines kinds) then none
    else if parent.kind ∈ kinds then some (parent.text "name")
    else openAbove kinds above

def openAfter (kinds : List String) (tree : PythonTree) (above : Way) : Option String :=
  if tree.defines kinds then none else openAbove kinds above

variable {kinds : List String} {parent child : PythonTree} {above : Way} {before : List PythonTree}

theorem openAbove_next : openAbove kinds ((parent, before ++ [child]) :: above) =
    openAfter kinds child ((parent, before) :: above) := by
  by_cases ended : child.defines kinds = true <;> simp [openAbove, openAfter, ended]

theorem openAbove_first : openAbove kinds ((parent, []) :: above) =
    if parent.kind ∈ kinds then some (parent.text "name") else openAbove kinds above :=
  rfl

theorem openAfter_of_mem (tree : PythonTree) (own : tree.kind ∈ kinds) :
    openAfter kinds tree above = none := by
  cases tree with
  | node kind line stop texts children =>
    have named : kind ∈ kinds := own
    simp [openAfter, defines, named]

theorem openAbove_children (tree : PythonTree) (other : tree.kind ∉ kinds) :
    openAbove kinds ((tree, tree.children.map Prod.snd) :: above) = openAfter kinds tree above := by
  cases tree with
  | node kind line stop texts children =>
    have unnamed : kinds.contains kind = false := by
      change kind ∉ kinds at other
      simpa using other
    rw [openAbove, if_neg other, openAfter, defines, unnamed, anyDefines_eq]
    rfl

theorem openAbove_eq_none (outside : ∀ level ∈ above, level.1.kind ∉ kinds) :
    openAbove kinds above = none := by
  induction above with
  | nil => rfl
  | cons level rest induction =>
    rw [openAbove, if_neg (outside level List.mem_cons_self),
      induction fun other member => outside other (List.mem_cons_of_mem level member)]
    exact ite_self none

theorem openAbove_append {inner outer : Way} {definition : PythonTree}
    (innermost : ∀ level ∈ inner, level.1.kind ∉ kinds) (own : definition.kind ∈ kinds) :
    openAbove kinds (inner ++ (definition, before) :: outer) =
      if (inner ++ [(definition, before)]).any fun level => level.2.any (defines kinds) then none
      else some (definition.text "name") := by
  induction inner with
  | nil => simp [openAbove, own]
  | cons level rest induction =>
    have nearer := innermost level List.mem_cons_self
    have further := induction fun other member =>
      innermost other (List.mem_cons_of_mem level member)
    rw [List.cons_append, openAbove, if_neg nearer, further, List.cons_append, List.any_cons]
    cases level.2.any (defines kinds) <;> rfl

end PythonTree

namespace PythonPlace

open PythonTree

def isTest (place : PythonPlace) : Bool := Text.startsWith (place.tree.text "name") "_test_"

/-- No class and no function is defined around the place. -/
def IsTopLevel (place : PythonPlace) : Prop :=
  ∀ level ∈ place.above, level.1.kind ∉ classKinds ++ functionKinds

def openClass (place : PythonPlace) : Option String := openAbove classKinds place.above

def openFunction (place : PythonPlace) : Option String := openAbove functionKinds place.above

instance (place : PythonPlace) : Decidable place.IsTopLevel :=
  inferInstanceAs (Decidable (∀ level ∈ place.above, _))

theorem IsTopLevel.openClass_eq_none (top : place.IsTopLevel) :
    place.openClass = none :=
  openAbove_eq_none fun level member inside => top level member (List.mem_append_left _ inside)

end PythonPlace

namespace Source.Python

open PythonTree

variable {source : Source}

/-! ## What is reported where -/

def classComponent (source : Source) (tree : PythonTree) : Component :=
  let bases := (tree.childrenIn "bases").filterMap baseName?
  { definition source tree "class" with baseClasses := if bases.isEmpty then none else some bases }

def functionComponent (source : Source) (tree : PythonTree) : Component :=
  { definition source tree "function" with parameters := some (parameters tree) }

/-- A class is reported anywhere, a function that is no test where no class is open. -/
def reportedAt (source : Source) (place : PythonPlace) : List Component :=
  if place.tree.kind ∈ classKinds then [classComponent source place.tree]
  else if place.tree.kind ∈ functionKinds ∧ place.isTest = false ∧ place.openClass = none then
    [functionComponent source place.tree]
  else []

theorem not_mem_classKinds {kind : String} (function : kind ∈ functionKinds) :
    kind ∉ classKinds := by
  unfold functionKinds at function
  unfold classKinds
  grind

theorem not_call_of_function {kind : String} (function : kind ∈ functionKinds) :
    kind ≠ "Call" := by
  unfold functionKinds at function
  grind

theorem reportedAt_function (source : Source) (function : place.tree.kind ∈ functionKinds) :
    reportedAt source place =
      if place.isTest = false ∧ place.openClass = none then [functionComponent source place.tree]
      else [] := by
  rw [reportedAt, if_neg (not_mem_classKinds function)]
  simp only [function, true_and]

/-- The names that are known behind a place. -/
def knownBehind (source : Source) (known : List String) (place : PythonPlace) : List String :=
  (reportedAt source place).map Component.name ++ known

def calleeAt? (place : PythonPlace) : Option String :=
  ((place.tree.child? "func").bind callName?).filter (· ≠ "")

/-- A call of a name, which leads to a component of the file if the name is known. -/
def callRelation (source : Source) (known : List String) (tree : PythonTree)
    (caller name : String) : Relation :=
  ⟨componentId source caller, if known.contains name then componentId source name else name,
    some tree.line, known.contains name⟩

/-- A class is related to its known bases, and what is open at a call to what is called. -/
def relatedAt (source : Source) (known : List String) (place : PythonPlace) : List Relation :=
  if place.tree.kind ∈ classKinds then
    (((place.tree.childrenIn "bases").filterMap baseName?).filter (known.contains ·)).map fun base =>
      ⟨componentId source (place.tree.text "name"), componentId source base, some place.tree.line,
        true⟩
  else if place.tree.kind = "Call" then
    match place.openClass.or place.openFunction, calleeAt? place with
    | some caller, some name => [callRelation source known place.tree caller name]
    | _, _ => []
  else []

theorem relatedAt_other (place : PythonPlace) (notClass : place.tree.kind ∉ classKinds)
    (notCall : place.tree.kind ≠ "Call") :
    relatedAt source known place = [] := by
  rw [relatedAt, if_neg notClass, if_neg notCall]

/-- The relations at places that follow one another. -/
def relatedAlong (source : Source) (known : List String) : List PythonPlace → List Relation
  | [] => []
  | place :: rest =>
    let known := knownBehind source known place
    relatedAt source known place ++ relatedAlong source known rest

/-- What is open in the walk is what is open at the place to which it has come. -/
structure Walk.At (above : Way) (walk : Walk) : Prop where
  openClass : walk.openClass = openAbove classKinds above
  openFunction : walk.openFunction = openAbove functionKinds above

/-- The walk knows and relates what there is at some places. -/
structure Walk.Relates (source : Source) (places : List PythonPlace) (before after : Walk) :
    Prop where
  known : after.known = places.foldl (knownBehind source) before.known
  relations : after.relations = before.relations ++ relatedAlong source before.known places

theorem relatedAlong_append (known : List String) (first second : List PythonPlace) :
    relatedAlong source known (first ++ second) =
      relatedAlong source known first ++
        relatedAlong source (first.foldl (knownBehind source) known) second := by
  induction first generalizing known with
  | nil => rfl
  | cons place rest induction =>
    rw [List.cons_append, relatedAlong, induction, ← List.append_assoc]
    rfl

theorem Walk.Relates.append {first second : List PythonPlace} {before between after : Walk}
    (earlier : Relates source first before between)
    (later : Relates source second between after) :
    Relates source (first ++ second) before after := by
  refine ⟨?_, ?_⟩
  · rw [later.known, earlier.known, List.foldl_append]
  · rw [later.relations, earlier.relations, earlier.known, relatedAlong_append, List.append_assoc]

theorem Walk.Relates.single {before after : Walk}
    (known : after.known = knownBehind source before.known place)
    (relations : after.relations = before.relations ++ relatedAt source after.known place) :
    Relates source [place] before after := by
  refine ⟨known, ?_⟩
  rw [relations, known, relatedAlong, relatedAlong, List.append_nil]

/-- From a place the walk goes to the children of its node. -/
structure Walk.Enters (source : Source) (place : PythonPlace) (before after : Walk) : Prop where
  components : after.components = before.components ++ reportedAt source place
  relates : Relates source [place] before after
  inside : after.At ((place.tree, []) :: place.above)

namespace Walk.Enters

variable {walk after : Walk} {place : PythonPlace}

theorem ofClass (here : walk.At place.above) (own : place.tree.kind = "ClassDef") :
    Enters source place walk (walk.enterClass source place.tree) := by
  refine ⟨?_, .single ?_ ?_, ?_, ?_⟩
  · rw [reportedAt, own]
    rfl
  · rw [knownBehind, reportedAt, own]
    rfl
  · rw [relatedAt, own]
    rfl
  · rw [openAbove_first, own]
    rfl
  · rw [openAbove_first, own]
    exact here.openFunction

theorem ofFunction (here : walk.At place.above) (function : place.tree.kind ∈ functionKinds) :
    Enters source place walk (walk.enterFunction source place.tree) := by
  have notClass := not_mem_classKinds function
  have opened : walk.openClass = place.openClass := here.openClass
  have inside : Walk.At ((place.tree, []) :: place.above)
      { walk with openFunction := some (place.tree.text "name") } := by
    constructor
    · rw [openAbove_first, if_neg notClass]
      exact here.openClass
    · rw [openAbove_first, if_pos function]
  have unrelated : ∀ known, relatedAt source known place = [] := fun _ =>
    relatedAt_other place notClass (not_call_of_function function)
  unfold Walk.enterFunction
  dsimp only
  split
  · rename_i free
    rw [Bool.and_eq_true, Option.isNone_iff_eq_none, Bool.not_eq_true', opened] at free
    have reports := reportedAt_function source function
    rw [if_pos ⟨free.2, free.1⟩] at reports
    refine ⟨?_, .single ?_ ?_, inside.openClass, inside.openFunction⟩
    · rw [reports]
      rfl
    · rw [knownBehind, reports]
      rfl
    · rw [unrelated, List.append_nil]
  · rename_i taken
    rw [Bool.and_eq_true, Option.isNone_iff_eq_none, Bool.not_eq_true', opened] at taken
    have reports := reportedAt_function source function
    rw [if_neg fun free => taken ⟨free.2, free.1⟩] at reports
    refine ⟨?_, .single ?_ ?_, inside.openClass, inside.openFunction⟩
    · rw [reports, List.append_nil]
    · rw [knownBehind, reports]
      rfl
    · rw [unrelated, List.append_nil]

theorem ofOther (here : walk.At place.above) (notClass : place.tree.kind ∉ classKinds)
    (notFunction : place.tree.kind ∉ functionKinds)
    (equal : after = { walk with
      relations := walk.relations ++ relatedAt source walk.known place }) :
    Enters source place walk after := by
  subst equal
  have unreported : reportedAt source place = [] := by
    rw [reportedAt, if_neg notClass, if_neg fun both => notFunction both.1]
  refine ⟨?_, .single ?_ rfl, ?_, ?_⟩
  · rw [unreported, List.append_nil]
  · rw [knownBehind, unreported]
    rfl
  · rw [openAbove_first, if_neg notClass]
    exact here.openClass
  · rw [openAbove_first, if_neg notFunction]
    exact here.openFunction

end Walk.Enters

theorem meetCall_eq {walk : Walk} (place : PythonPlace) (here : walk.At place.above)
    (call : place.tree.kind = "Call") :
    walk.meetCall source place.tree =
      { walk with relations := walk.relations ++ relatedAt source walk.known place } := by
  have opened : walk.openClass.or walk.openFunction = place.openClass.or place.openFunction := by
    rw [here.openClass, here.openFunction]
    rfl
  unfold Walk.meetCall relatedAt calleeAt?
  rw [opened, call]
  cases place.openClass.or place.openFunction with
  | none => simp [classKinds]
  | some caller =>
    cases (place.tree.child? "func").bind callName? with
    | none => simp [classKinds]
    | some name =>
      by_cases empty : name = "" <;> simp [classKinds, callRelation, Option.filter, empty]

mutual

theorem walkTree_follows {walk : Walk} {above : Way} (here : walk.At above) :
    (tree : PythonTree) →
      (walkTree source walk tree).components =
          walk.components ++ (tree.placesBelow above).flatMap (reportedAt source) ∧
        Walk.Relates source (tree.placesBelow above) walk (walkTree source walk tree) ∧
        (walkTree source walk tree).openClass = openAfter classKinds tree above ∧
        (walkTree source walk tree).openFunction = openAfter functionKinds tree above
  | .node kind line stop texts children => by
    let tree := PythonTree.node kind line stop texts children
    have inside : ∀ {entered}, Walk.Enters source ⟨tree, above⟩ walk entered →
        (walkChildren source entered children).components =
            walk.components ++ (tree.placesBelow above).flatMap (reportedAt source) ∧
          Walk.Relates source (tree.placesBelow above) walk
            (walkChildren source entered children) ∧
          (walkChildren source entered children).At ((tree, children.map Prod.snd) :: above) := by
      intro entered enters
      rcases walkChildren_follows enters.inside children with ⟨components, relates, after⟩
      rw [components, enters.components, placesBelow, List.flatMap_cons, List.append_assoc]
      exact ⟨rfl, enters.relates.append relates, after⟩
    have behind : ∀ {kinds}, kind ∉ kinds →
        openAbove kinds ((tree, children.map Prod.snd) :: above) = openAfter kinds tree above :=
      openAbove_children tree
    unfold walkTree
    dsimp only
    split
    -- At its end a definition leaves nothing open, not what was open around it.
    · have own : "ClassDef" ∈ classKinds := by decide
      rcases inside (.ofClass here rfl) with ⟨components, relates, after⟩
      exact ⟨components, ⟨relates.known, relates.relations⟩, (openAfter_of_mem _ own).symm,
        after.openFunction.trans (behind (by decide))⟩
    · have function : "FunctionDef" ∈ functionKinds := by decide
      rcases inside (.ofFunction here function) with ⟨components, relates, after⟩
      exact ⟨components, ⟨relates.known, relates.relations⟩,
        after.openClass.trans (behind (by decide)), (openAfter_of_mem _ function).symm⟩
    · have function : "AsyncFunctionDef" ∈ functionKinds := by decide
      rcases inside (.ofFunction here function) with ⟨components, relates, after⟩
      exact ⟨components, ⟨relates.known, relates.relations⟩,
        after.openClass.trans (behind (by decide)), (openAfter_of_mem _ function).symm⟩
    · have notClass : "Call" ∉ classKinds := by decide
      have notFunction : "Call" ∉ functionKinds := by decide
      rcases inside (.ofOther here notClass notFunction (meetCall_eq ⟨_, above⟩ here rfl)) with
        ⟨components, relates, after⟩
      exact ⟨components, relates, after.openClass.trans (behind notClass),
        after.openFunction.trans (behind notFunction)⟩
    · rename_i isNoClass isNoFunction isNotAsync isNoCall
      have notClass : kind ∉ classKinds := by simpa [classKinds] using isNoClass
      have notFunction : kind ∉ functionKinds := by
        simpa [functionKinds] using ⟨isNoFunction, isNotAsync⟩
      have same : walk = { walk with
          relations := walk.relations ++ relatedAt source walk.known ⟨tree, above⟩ } := by
        rw [relatedAt_other ⟨tree, above⟩ notClass isNoCall, List.append_nil]
      rcases inside (.ofOther here notClass notFunction same) with ⟨components, relates, after⟩
      exact ⟨components, relates, after.openClass.trans (behind notClass),
        after.openFunction.trans (behind notFunction)⟩

theorem walkChildren_follows {walk : Walk} {parent : PythonTree} {above : Way}
    {before : List PythonTree} (here : walk.At ((parent, before) :: above)) :
    (children : List (String × PythonTree)) →
      (walkChildren source walk children).components =
          walk.components ++
            (placesAmong parent above before children).flatMap (reportedAt source) ∧
        Walk.Relates source (placesAmong parent above before children) walk
          (walkChildren source walk children) ∧
        (walkChildren source walk children).At
          ((parent, before ++ children.map Prod.snd) :: above)
  | [] => by
    rw [walkChildren, placesAmong, List.map_nil, List.append_nil]
    exact ⟨(List.append_nil _).symm, ⟨rfl, (List.append_nil _).symm⟩, here⟩
  | (_, child) :: rest => by
    rcases walkTree_follows here child with ⟨components, relates, openClass, openFunction⟩
    have onward : (walkTree source walk child).At ((parent, before ++ [child]) :: above) :=
      ⟨openClass.trans openAbove_next.symm, openFunction.trans openAbove_next.symm⟩
    rcases walkChildren_follows onward rest with ⟨later, relatesLater, after⟩
    rw [walkChildren, placesAmong, later, components, List.append_assoc, ← List.flatMap_append]
    rw [List.append_assoc] at after
    exact ⟨rfl, relates.append relatesLater, after⟩

end

/-! ## The analysis -/

theorem components_analyze (source : Source) (tree : PythonTree) :
    (analyze source (some tree)).components = tree.places.flatMap (reportedAt source) :=
  (walkTree_follows ⟨rfl, rfl⟩ tree).1

theorem relations_analyze (source : Source) (tree : PythonTree) :
    (analyze source (some tree)).relations = relatedAlong source [] tree.places :=
  (walkTree_follows ⟨rfl, rfl⟩ tree).2.1.relations

theorem own_of_mem_reportedAt {component : Component}
    (member : component ∈ reportedAt source place) :
    component.filePath = source.path ∧ component.id = componentId source component.name := by
  unfold reportedAt at member
  split at member
  · rw [List.mem_singleton.mp member]
    exact ⟨rfl, rfl⟩
  · rw [List.mem_singleton.mp (List.mem_ite_nil_right.mp member).2]
    exact ⟨rfl, rfl⟩

theorem within_analyze (source : Source) (tree : Option PythonTree) :
    (analyze source tree).Within source (moduleName source) := by
  cases tree with
  | none => exact List.forall_mem_nil _
  | some tree =>
    intro component member
    rw [components_analyze] at member
    rcases List.mem_flatMap.mp member with ⟨place, _, reported⟩
    rcases own_of_mem_reportedAt reported with ⟨path, identified⟩
    exact ⟨path, component.name, .inl identified⟩

theorem known_of_mem_relatedAt {relation : Relation}
    (member : relation ∈ relatedAt source known place) (marked : relation.resolved = true) :
    ∃ name ∈ known, relation.callee = componentId source name := by
  unfold relatedAt at member
  split at member
  · rcases List.mem_map.mp member with ⟨base, kept, rfl⟩
    exact ⟨base, List.contains_iff_mem.mp (List.mem_filter.mp kept).2, rfl⟩
  · have related := (List.mem_ite_nil_right.mp member).2
    split at related
    · rename_i caller name _ _
      rw [List.mem_singleton.mp related] at marked ⊢
      exact ⟨name, List.contains_iff_mem.mp marked, if_pos marked⟩
    · cases related

theorem marked_of_mem_relatedAlong {places : List PythonPlace} {relation : Relation}
    (member : relation ∈ relatedAlong source known places) (marked : relation.resolved = true) :
    (∃ name ∈ known, relation.callee = componentId source name) ∨
      relation.callee ∈ (places.flatMap (reportedAt source)).map Component.id := by
  induction places generalizing known with
  | nil => cases member
  | cons place rest induction =>
    rw [List.flatMap_cons, List.map_append, List.mem_append]
    have behind : (∃ name ∈ knownBehind source known place,
        relation.callee = componentId source name) ∨
          relation.callee ∈ (rest.flatMap (reportedAt source)).map Component.id := by
      rcases List.mem_append.mp member with here | later
      · exact .inl (known_of_mem_relatedAt here marked)
      · exact induction later
    rcases behind with ⟨name, present, equal⟩ | reported
    · rcases List.mem_append.mp present with new | old
      · rcases List.mem_map.mp new with ⟨component, reported, rfl⟩
        rw [equal, ← (own_of_mem_reportedAt reported).2]
        exact .inr (.inl (List.mem_map_of_mem reported))
      · exact .inl ⟨name, old, equal⟩
    · exact .inr (.inr reported)

theorem markedReported_analyze (source : Source) (tree : Option PythonTree) :
    (analyze source tree).MarkedReported := by
  cases tree with
  | none => exact List.forall_mem_nil _
  | some tree =>
    intro relation member marked
    rw [relations_analyze] at member
    rw [Findings.ids, components_analyze]
    rcases marked_of_mem_relatedAlong member marked with ⟨_, known, _⟩ | reported
    · cases known
    · exact reported

/-- A file has the components that are reported at the places of its tree, in their order. A
function that is no test is reported at the top level, and elsewhere it is unless it lies in a class
in which no class has ended before it. -/
theorem components_reported_at_places (source : Source) (tree : PythonTree) :
    (analyze source (some tree)).components = tree.places.flatMap (reportedAt source) ∧
      ∀ place ∈ tree.places, place.tree.kind ∈ functionKinds → place.isTest = false →
        (place.IsTopLevel → reportedAt source place = [functionComponent source place.tree]) ∧
          (¬ place.IsTopLevel → (reportedAt source place = [] ↔ place.openClass ≠ none)) := by
  refine ⟨(walkTree_follows ⟨rfl, rfl⟩ tree).1, fun place _ function noTest => ?_⟩
  rw [reportedAt_function source function]
  refine ⟨fun top => if_pos ⟨noTest, top.openClass_eq_none⟩, fun _ => ?_⟩
  simp [noTest]

def nestedSource : Source where
  path := "/r/shop.py"
  repository := "/r"
  text := "def main():\n def inner(): pass\nclass Shop:\n class Tag: pass\n def cost(): pass\n"

/-- A function in a function, and a method behind a class in its class. -/
def nestedTree : PythonTree :=
  let arguments := ("args", .node "arguments" 0 0 [] [])
  let pass (line : Nat) := ("body", .node "Pass" line line [] [])
  .node "Module" 0 0 [] [
    ("body", .node "FunctionDef" 1 2 [("name", "main")] [
      arguments,
      ("body", .node "FunctionDef" 2 2 [("name", "inner")] [arguments, pass 2])]),
    ("body", .node "ClassDef" 3 5 [("name", "Shop")] [
      ("body", .node "ClassDef" 4 4 [("name", "Tag")] [pass 4]),
      ("body", .node "FunctionDef" 5 5 [("name", "cost")] [arguments, pass 5])])]

/-- Neither the inner function nor the method is at the top level, but both are reported. -/
theorem nested_functions_reported :
    ¬ ∀ component ∈ (analyze nestedSource (some nestedTree)).components,
      component.kind = "function" →
        ∃ place ∈ nestedTree.places, place.tree.kind ∈ functionKinds ∧ place.IsTopLevel ∧
          place.tree.text "name" = component.name := by
  decide

/-! ## Calls in functions -/

/-- A function at the top level that is the innermost definition around a place. -/
structure FunctionAround (place : PythonPlace) where
  inner : Way
  function : PythonTree
  before : List PythonTree
  outer : Way
  way : place.above = inner ++ (function, before) :: outer
  innermost : ∀ level ∈ inner, level.1.kind ∉ classKinds ++ functionKinds
  isFunction : function.kind ∈ functionKinds
  isTopLevel : PythonPlace.IsTopLevel ⟨function, outer⟩

namespace FunctionAround

variable {place : PythonPlace} (around : FunctionAround place)

/-- A function has ended inside the function before the place. -/
def ended : Bool :=
  (around.inner ++ [(around.function, around.before)]).any fun level =>
    level.2.any (defines functionKinds)

include around in
theorem openClass_eq_none : place.openClass = none := by
  refine openAbove_eq_none fun level member inside => ?_
  rw [around.way, List.mem_append, List.mem_cons] at member
  rcases member with inner | rfl | outer
  · exact around.innermost level inner (List.mem_append_left _ inside)
  · exact not_mem_classKinds around.isFunction inside
  · exact around.isTopLevel level outer (List.mem_append_left _ inside)

theorem openFunction_eq : place.openFunction =
    if around.ended then none else some (around.function.text "name") := by
  rw [PythonPlace.openFunction, around.way, openAbove_append ?_ around.isFunction]
  · rfl
  · exact fun level member inside =>
      around.innermost level member (List.mem_append_right _ inside)

theorem relatedAt_call (known : List String) (call : place.tree.kind = "Call") {name : String}
    (named : calleeAt? place = some name) :
    relatedAt source known place =
      if around.ended then []
      else [callRelation source known place.tree (around.function.text "name") name] := by
  have notClass : place.tree.kind ∉ classKinds := by
    rw [call]
    decide
  rw [relatedAt, if_neg notClass, if_pos call, around.openClass_eq_none, around.openFunction_eq,
    named, Option.none_or]
  split <;> simp_all

end FunctionAround

theorem exists_subset_relatedAlong {places : List PythonPlace} (member : place ∈ places)
    (known : List String) :
    ∃ reached, relatedAt source reached place ⊆ relatedAlong source known places := by
  induction places generalizing known with
  | nil => cases member
  | cons first rest induction =>
    rw [relatedAlong]
    rcases List.mem_cons.mp member with rfl | later
    · exact ⟨_, List.subset_append_left _ _⟩
    · rcases induction later (knownBehind source known first) with ⟨reached, inside⟩
      exact ⟨reached, List.Subset.trans inside (List.subset_append_right _ _)⟩

/-- A file has the relations that are found at the places of its tree, in their order. A call in a
function at the top level, and in no definition inside it, is related by that function on its line,
unless a function has ended inside the function before the call: then it is lost. -/
theorem calls_kept_unless_function_ended (source : Source) (tree : PythonTree) :
    (analyze source (some tree)).relations = relatedAlong source [] tree.places ∧
      ∀ place ∈ tree.places, place.tree.kind = "Call" → ∀ name, calleeAt? place = some name →
        ∀ around : FunctionAround place,
          (around.ended = true → ∀ known, relatedAt source known place = []) ∧
            (around.ended = false → ∃ relation ∈ (analyze source (some tree)).relations,
              relation.caller = componentId source (around.function.text "name") ∧
                relation.line = some place.tree.line) := by
  refine ⟨relations_analyze source tree, fun place member call name named around => ⟨?_, ?_⟩⟩
  · intro ended known
    rw [around.relatedAt_call known call named, if_pos ended]
  · intro unended
    rcases exists_subset_relatedAlong member [] with ⟨known, inside⟩
    rw [← relations_analyze, around.relatedAt_call known call named, unended] at inside
    exact ⟨_, inside List.mem_cons_self, rfl, rfl⟩

def boxedSource : Source where
  path := "/r/shop.py"
  repository := "/r"
  text := "def main():\n class Box:\n  def open(self): pass\n helper()\n"

def boxedCall : PythonTree :=
  .node "Call" 4 4 [] [("func", .node "Name" 4 4 [("id", "helper")] [])]

/-- A class with a method inside a function. -/
def boxedClass : PythonTree :=
  .node "ClassDef" 2 3 [("name", "Box")] [
    ("body", .node "FunctionDef" 3 3 [("name", "open")] [
      ("args", .node "arguments" 0 0 [] [("args", .node "arg" 3 3 [] [])]),
      ("body", .node "Pass" 3 3 [] [])])]

/-- A call in the same function behind the class. -/
def boxedFunction : PythonTree :=
  .node "FunctionDef" 1 4 [("name", "main")] [("args", .node "arguments" 0 0 [] []),
    ("body", boxedClass), ("body", .node "Expr" 4 4 [] [("value", boxedCall)])]

def boxedTree : PythonTree := .node "Module" 0 0 [] [("body", boxedFunction)]

/-- The call is in the function at the top level and in nothing defined inside it, but there is no
relation from the function on the line of the call. -/
theorem call_behind_method_lost :
    ∃ place ∈ boxedTree.places, place.tree.kind = "Call" ∧ calleeAt? place = some "helper" ∧
      (∃ around : FunctionAround place, around.function.text "name" = "main") ∧
      ¬ ∃ relation ∈ (analyze boxedSource (some boxedTree)).relations,
        relation.caller = componentId boxedSource "main" ∧
          relation.line = some place.tree.line := by
  let statement : PythonTree := .node "Expr" 4 4 [] [("value", boxedCall)]
  let inner : Way := [(statement, [])]
  let before := [.node "arguments" 0 0 [] [], boxedClass]
  refine ⟨⟨boxedCall, inner ++ [(boxedFunction, before), (boxedTree, [])]⟩, ?_, rfl, by decide,
    ⟨⟨inner, boxedFunction, before, [(boxedTree, [])], rfl, ?_, by decide, by decide⟩, rfl⟩,
    by decide⟩
  · exact List.mem_of_getElem? (i := 9) rfl
  · intro level member
    rw [List.mem_singleton.mp member]
    decide

end Source.Python

end CodeAtlas
