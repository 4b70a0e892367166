import CodeAtlas.Proofs.OrderedMap
import CodeAtlas.Proofs.Workspace
import CodeAtlas.Wiki.Dependencies
import Mathlib.Data.List.Count
import Mathlib.Data.List.Nodup
import Mathlib.Data.List.Perm.Basic

/-!
Dependencies seen from both ends. The dependents of a component are read off the same lists as its
dependencies, so they are these turned around, each as often as it is named. Where every module has
a name of its own and every component one module at most, the dependencies of a module on another
are the same links that the other module reports as its dependents. A dependency on a component that
the graph has no entry for is reported by no module, also where the tree gives it one.
-/

namespace CodeAtlas.Wiki

open OrderedMap List

variable {catalog : Catalog} {path other : String} {home : ModuleInfo}

/-! ## Counting in a list of lists -/

section Count

variable {α β : Type} [DecidableEq β] {items : List α} {image : α → List β} {value : β}

theorem count_flatMap_eq_zero (absent : ∀ item ∈ items, value ∉ image item) :
    (items.flatMap image).count value = 0 := by
  rw [count_eq_zero, mem_flatMap]
  rintro ⟨item, member, present⟩
  exact absent item member present

theorem count_flatMap_of_mem {owner : α} (distinct : items.Nodup) (member : owner ∈ items)
    (only : ∀ item ∈ items, value ∈ image item → item = owner) :
    (items.flatMap image).count value = (image owner).count value := by
  induction items with
  | nil => exact absurd member not_mem_nil
  | cons item rest induction =>
    have parts := nodup_cons.mp distinct
    have later : ∀ other ∈ rest, value ∈ image other → other = owner :=
      fun other present => only other (mem_cons_of_mem item present)
    rw [flatMap_cons, count_append]
    rcases mem_cons.mp member with rfl | further
    · have none : (rest.flatMap image).count value = 0 := by
        apply count_flatMap_eq_zero
        intro other present inside
        exact parts.1 (later other present inside ▸ present)
      rw [none, Nat.add_zero]
    · have none : (image item).count value = 0 := by
        rw [count_eq_zero]
        intro inside
        exact parts.1 (only item mem_cons_self inside ▸ further)
      rw [none, Nat.zero_add, induction parts.2 further later]

end Count

namespace Catalog

/-! ## The parts of a catalog -/

def dependsOn (catalog : Catalog) (id : String) : List String :=
  ((catalog.entries.get? id).map (·.dependsOn)).getD []

/-- Whether the tree gives a component a module. -/
def isAssigned (catalog : Catalog) (id : String) : Bool := (catalog.moduleOf? id).isSome

/-- The dependencies of the components of a module that lead to a component with a module. -/
def assignedDependencies (catalog : Catalog) (home : ModuleInfo) : List String :=
  (home.components.flatMap catalog.dependsOn).filter catalog.isAssigned

/-- A catalog whose modules and owners are those of its index, with each component under its own
key. -/
structure Sound (catalog : Catalog) : Prop where
  modules : catalog.modules = catalog.index.modules
  owners : catalog.owners = catalog.index.owners
  keyed : ∀ id entry, catalog.entries.get? id = some entry → entry.key = id

theorem key_of_ofJson {key : String} {value : Json} {entry : Entry}
    (made : Entry.ofJson key value = .ok entry) : entry.key = key := by
  simp only [Entry.ofJson, bind_eq_ok_iff] at made
  rcases made with ⟨_, _, _, _, made⟩
  cases made
  rfl

theorem ofJson_spec {tree graph : Json} (made : ofJson tree graph = .ok catalog) :
    ModuleIndex.ofJson tree = .ok catalog.index ∧ catalog.Sound := by
  rcases bind_eq_ok_iff.mp made with ⟨index, indexed, made⟩
  rcases bind_eq_ok_iff.mp made with ⟨members, _, made⟩
  rcases bind_eq_ok_iff.mp made with ⟨entries, read, made⟩
  rcases bind_eq_ok_iff.mp made with ⟨_, _, made⟩
  cases made
  refine ⟨indexed, rfl, rfl, ?_⟩
  intro id entry found
  have member := mem_of_mem_ofList ((get?_eq_some_iff _ _ _).mp found)
  rcases exists_of_mem_mapM read member with ⟨⟨key, value⟩, _, gave⟩
  rcases bind_eq_ok_iff.mp gave with ⟨own, ofValue, same⟩
  cases same
  exact key_of_ofJson ofValue

/-! ## Dependents -/

theorem dependsOn_of_get? {id : String} {entry : Entry}
    (found : catalog.entries.get? id = some entry) : catalog.dependsOn id = entry.dependsOn := by
  simp [dependsOn, found]

theorem Sound.count_dependents (sound : catalog.Sound) (used user : String) :
    (catalog.dependents used).count user = (catalog.dependsOn user).count used := by
  have dependents : catalog.dependents used = catalog.entries.entries.flatMap fun pair =>
      (pair.2.dependsOn.filter (· == used)).map fun _ => pair.2.key := by
    rw [Catalog.dependents, OrderedMap.values, flatMap_map]
  have keyed : ∀ pair ∈ catalog.entries.entries, pair.2.key = pair.1 := by
    intro pair member
    exact sound.keyed pair.1 pair.2 ((get?_eq_some_iff _ _ _).mpr member)
  have inside : ∀ pair ∈ catalog.entries.entries,
      user ∈ ((pair.2.dependsOn.filter (· == used)).map fun _ => pair.2.key) → pair.1 = user := by
    intro pair member present
    rcases mem_map.mp present with ⟨_, _, same⟩
    rw [← keyed pair member, same]
  rw [dependents]
  cases found : catalog.entries.get? user with
  | none =>
    have unknown := (get?_eq_none_iff _ _).mp found
    rw [dependsOn, found]
    apply count_flatMap_eq_zero
    intro pair member present
    exact unknown (inside pair member present ▸ mem_map.mpr ⟨pair, member, rfl⟩)
  | some entry =>
    have member := (get?_eq_some_iff _ _ _).mp found
    have key := sound.keyed user entry found
    have distinct : catalog.entries.entries.Nodup :=
      List.Nodup.of_map Prod.fst catalog.entries.distinct
    rw [dependsOn_of_get? found, count_flatMap_of_mem distinct member]
    · simp [key, count_eq_length_filter]
    · intro other present among
      have same := inside other present among
      have value := (get?_eq_some_iff _ _ _).mpr present
      rw [same, found] at value
      exact Prod.ext same (Option.some.inj value).symm

/-! ## Modules and their components -/

theorem get?_modules_eq_some_iff (sound : catalog.Sound)
    (names : (catalog.index.visits.map (·.path)).Nodup) (path : String) (info : ModuleInfo) :
    catalog.modules.get? path = some info ↔ info ∈ catalog.index.visits ∧ info.path = path := by
  have keys : (catalog.index.visits.map fun info => (info.path, info)).map Prod.fst =
      catalog.index.visits.map (·.path) := by simp
  rw [sound.modules, ModuleIndex.modules, get?_ofList_eq_some_iff (keys ▸ names)]
  simp [and_comm]

/-- No module name and no component is listed twice in the tree, and no name is empty. -/
structure Distinct (catalog : Catalog) : Prop where
  names : (catalog.index.visits.map (·.path)).Nodup
  components : (catalog.index.visits.flatMap (·.components)).Nodup
  named : ∀ info ∈ catalog.index.visits, info.path ≠ ""

section Distinct

variable {catalog : Catalog} (sound : catalog.Sound) (distinct : catalog.Distinct)

include sound distinct

theorem moduleOf?_eq_some_iff (id path : String) :
    catalog.moduleOf? id = some path ↔
      ∃ info ∈ catalog.index.visits, id ∈ info.components ∧ info.path = path := by
  have keys : (catalog.index.visits.flatMap fun info =>
      info.components.map fun id => (id, info.path)).map Prod.fst =
        catalog.index.visits.flatMap (·.components) := by
    simp [map_flatMap, Function.comp_def]
  rw [moduleOf?, sound.owners, ModuleIndex.owners,
    get?_ofList_eq_some_iff (keys ▸ distinct.components)]
  simp

theorem moduleOf?_eq_path_iff {info : ModuleInfo} (found : catalog.modules.get? path = some info)
    (id : String) :
    catalog.moduleOf? id = some path ↔ id ∈ info.components := by
  rcases (get?_modules_eq_some_iff sound distinct.names path info).mp found with ⟨visited, rfl⟩
  rw [moduleOf?_eq_some_iff sound distinct]
  constructor
  · rintro ⟨other, member, inside, same⟩
    rwa [← inj_on_of_nodup_map distinct.names member visited same]
  · intro inside
    exact ⟨info, visited, inside, rfl⟩

theorem nodup_components {info : ModuleInfo} (found : catalog.modules.get? path = some info) :
    info.components.Nodup :=
  (nodup_flatMap.mp distinct.components).1 info
    ((get?_modules_eq_some_iff sound distinct.names path info).mp found).1

theorem moduleOf?_ne_empty (id : String) : catalog.moduleOf? id ≠ some "" := by
  rw [ne_eq, moduleOf?_eq_some_iff sound distinct]
  rintro ⟨info, member, _, empty⟩
  exact distinct.named info member empty

end Distinct

end Catalog

/-! ## Links by module -/

theorem getD_groupLinks (links : List (String × Link)) (path : String) :
    (groupLinks links).getD path [] = (links.filter (·.1 == path)).map Prod.snd := by
  have all : ∀ groups : OrderedMap String (List Link),
      (links.foldl (fun groups entry =>
        groups.insert entry.1 (groups.getD entry.1 [] ++ [entry.2])) groups).getD path [] =
        groups.getD path [] ++ (links.filter (·.1 == path)).map Prod.snd := by
    induction links with
    | nil => simp
    | cons first rest induction =>
      intro groups
      rcases first with ⟨home, link⟩
      rw [foldl_cons, induction]
      by_cases same : home = path
      · subst same
        simp
      · rw [getD_insert_of_ne _ (Ne.symm same)]
        simp [same]
  exact all .empty

theorem length_flatten_insertEntry (path : String) (link : Link)
    (entries : List (String × List Link)) :
    ((OrderedMap.insertEntry path ((entries.lookup path).getD [] ++ [link]) entries).map
      Prod.snd).flatten.length = (entries.map Prod.snd).flatten.length + 1 := by
  induction entries with
  | nil => simp [OrderedMap.insertEntry]
  | cons entry rest induction =>
    rcases entry with ⟨other, links⟩
    by_cases same : other = path
    · subst same
      simp only [OrderedMap.insertEntry, lookup_cons_self, Option.getD_some, if_true,
        map_cons, flatten_cons, length_append, length_singleton]
      omega
    · simp only [OrderedMap.insertEntry, same, if_false, map_cons, flatten_cons, length_append,
        OrderedMap.lookup_cons_of_ne (Ne.symm same), induction]
      omega

theorem length_flatten_groupLinks (links : List (String × Link)) :
    (groupLinks links).values.flatten.length = links.length := by
  have all : ∀ groups : OrderedMap String (List Link),
      (links.foldl (fun groups entry =>
        groups.insert entry.1 (groups.getD entry.1 [] ++ [entry.2])) groups).values.flatten.length =
        groups.values.flatten.length + links.length := by
    induction links with
    | nil => exact fun groups => (Nat.add_zero _).symm
    | cons first rest induction =>
      intro groups
      have added : (groups.insert first.1
          (groups.getD first.1 [] ++ [first.2])).values.flatten.length =
            groups.values.flatten.length + 1 :=
        length_flatten_insertEntry first.1 first.2 groups.entries
      rw [foldl_cons, induction, added, length_cons]
      omega
  have whole := all .empty
  rwa [show (OrderedMap.empty : OrderedMap String (List Link)).values.flatten.length = 0 from rfl,
    Nat.zero_add] at whole

theorem foldl_lengths (groups : List (List Link)) (start : Nat) :
    (groups.map List.length).foldl (· + ·) start = start + groups.flatten.length := by
  induction groups generalizing start with
  | nil => rfl
  | cons group rest induction =>
    rw [map_cons, foldl_cons, induction, flatten_cons, length_append]
    omega

namespace Catalog

theorem foreign_cons (path : String) (home : Option String) (link : Link)
    (rest : List (Option String × Link)) :
    foreign path ((home, link) :: rest) =
      match named? home with
      | some other => if other = path then foreign path rest else (other, link) :: foreign path rest
      | none => foreign path rest := by
  cases inner : named? home with
  | none => simp [foreign, inner]
  | some other =>
    by_cases same : other = path
    · simp [foreign, inner, same]
    · simp [foreign, inner, same]

theorem named?_of_ne {home : Option String} (named : home ≠ some "") : named? home = home := by
  cases home with
  | none => rfl
  | some path =>
    rw [named?]
    exact named

theorem filter_foreign (different : other ≠ path) {links : List (Option String × Link)}
    (named : ∀ pair ∈ links, pair.1 ≠ some "") :
    ((foreign path links).filter (·.1 == other)).map Prod.snd =
      (links.filter (·.1 == some other)).map Prod.snd := by
  induction links with
  | nil => rfl
  | cons first rest induction =>
    rcases first with ⟨home, link⟩
    have parts := forall_mem_cons.mp named
    rw [foreign_cons, named?_of_ne parts.1]
    cases home with
    | none => simp [induction parts.2]
    | some place =>
      by_cases same : place = path
      · simp [same, different.symm, induction parts.2]
      · by_cases here : place = other
        · simp [here, different, induction parts.2]
        · simp [same, here, induction parts.2]

theorem length_inner_add_foreign (path : String) {links : List (Option String × Link)}
    (named : ∀ pair ∈ links, pair.1 ≠ some "") :
    (links.filter (·.1 == some path)).length + (foreign path links).length =
      (links.filter (·.1.isSome)).length := by
  induction links with
  | nil => rfl
  | cons first rest induction =>
    rcases first with ⟨home, link⟩
    have parts := forall_mem_cons.mp named
    have later := induction parts.2
    rw [foreign_cons, named?_of_ne parts.1]
    cases home with
    | none => simpa using later
    | some place =>
      by_cases same : place = path
      · simp only [same, filter_cons, beq_self_eq_true, Option.isSome_some, if_true,
          length_cons, ← later]
        omega
      · have outside : (some place == some path) = false := by simpa using same
        simp only [same, outside, filter_cons, Option.isSome_some, if_true, if_false,
          Bool.false_eq_true, length_cons, ← later]
        omega

/-! ## The two ends of a link -/

theorem linksFrom_eq (catalog : Catalog) (id : String) :
    catalog.linksFrom id = ((catalog.dependsOn id).filter catalog.entries.contains).map
      fun target => (catalog.moduleOf? target, ⟨id, target⟩) := by
  rw [linksFrom, dependsOn]
  cases catalog.entries.get? id with
  | none => rfl
  | some entry => rfl

theorem homes_linksFrom (id : String) (pair : Option String × Link)
    (member : pair ∈ catalog.linksFrom id) : ∃ away, pair.1 = catalog.moduleOf? away := by
  rw [linksFrom_eq] at member
  rcases mem_map.mp member with ⟨target, _, rfl⟩
  exact ⟨target, rfl⟩

theorem linksTo_eq (catalog : Catalog) (id : String) :
    catalog.linksTo id = ((catalog.dependents id).filter fun _ => catalog.entries.contains id).map
      fun source => (catalog.moduleOf? source, ⟨source, id⟩) := by
  rw [linksTo]
  cases catalog.entries.contains id with
  | false => simp
  | true => simp

theorem count_linked (catalog : Catalog) {link : String → Link} (injective : link.Injective)
    (keep : String → Bool) (others : List String) (path other : String) :
    ((((others.filter keep).map fun id => (catalog.moduleOf? id, link id)).filter
        (·.1 == some path)).map Prod.snd).count (link other) =
      if keep other ∧ catalog.moduleOf? other = some path then others.count other else 0 := by
  have links : (((others.filter keep).map fun id => (catalog.moduleOf? id, link id)).filter
      (·.1 == some path)).map Prod.snd =
        (others.filter fun id => keep id && catalog.moduleOf? id == some path).map link := by
    rw [filter_map, map_map, filter_filter]
    simp only [Function.comp_def, Bool.and_comm]
  rw [links, count_map_of_injective _ _ injective]
  by_cases assigned : keep other ∧ catalog.moduleOf? other = some path
  · rw [if_pos assigned, count_filter (by simpa using assigned)]
  · rw [if_neg assigned, count_eq_zero]
    intro member
    exact assigned (by simpa using (mem_filter.mp member).2)

section Ends

variable {catalog : Catalog} (sound : catalog.Sound) (distinct : catalog.Distinct)

include sound distinct

theorem named_links {links : String → List (Option String × Link)}
    (homes : ∀ id, ∀ pair ∈ links id, ∃ away, pair.1 = catalog.moduleOf? away)
    (ids : List String) : ∀ pair ∈ ids.flatMap links, pair.1 ≠ some "" := by
  intro pair member
  rcases mem_flatMap.mp member with ⟨id, _, inside⟩
  rcases homes id pair inside with ⟨away, home⟩
  rw [home]
  exact moduleOf?_ne_empty sound distinct away

/-- A link that one component only can have is reported for its module as often as the component
has it. -/
theorem count_reported (found : catalog.modules.get? path = some home) (different : other ≠ path)
    {links : String → List (Option String × Link)}
    (homes : ∀ id, ∀ pair ∈ links id, ∃ away, pair.1 = catalog.moduleOf? away) {link : Link}
    {owner : String} (only : ∀ id, ∀ pair ∈ links id, pair.2 = link → id = owner) :
    ((groupLinks (foreign home.path (home.components.flatMap links))).getD other []).count link =
      if catalog.moduleOf? owner = some path then
        (((links owner).filter (·.1 == some other)).map Prod.snd).count link
      else 0 := by
  have own : home.path = path := ((get?_modules_eq_some_iff sound distinct.names path home).mp found).2
  have once : ∀ id ∈ home.components,
      link ∈ ((links id).filter (·.1 == some other)).map Prod.snd → id = owner := by
    intro id _ member
    rcases mem_map.mp member with ⟨pair, kept, same⟩
    exact only id pair (mem_filter.mp kept).1 same
  rw [getD_groupLinks, filter_foreign (own ▸ different)
    (named_links sound distinct homes home.components), filter_flatMap, map_flatMap]
  simp only [moduleOf?_eq_path_iff sound distinct found]
  by_cases inside : owner ∈ home.components
  · rw [if_pos inside, count_flatMap_of_mem (nodup_components sound distinct found) inside once]
  · rw [if_neg inside]
    apply count_flatMap_eq_zero
    intro id member present
    exact inside (once id member present ▸ member)

theorem count_used (found : catalog.modules.get? path = some home) (different : other ≠ path)
    (source target : String) :
    ((catalog.moduleDependencies home).used.getD other []).count ⟨source, target⟩ =
      if catalog.moduleOf? source = some path ∧ catalog.entries.contains target ∧
          catalog.moduleOf? target = some other then
        (catalog.dependsOn source).count target
      else 0 := by
  have only : ∀ id, ∀ pair ∈ catalog.linksFrom id, pair.2 = ⟨source, target⟩ → id = source := by
    intro id pair member same
    rw [linksFrom_eq] at member
    rcases mem_map.mp member with ⟨_, _, rfl⟩
    exact (Link.mk.inj same).1
  rw [moduleDependencies, count_reported sound distinct found different homes_linksFrom only,
    linksFrom_eq, count_linked catalog fun _ _ same => (Link.mk.inj same).2]
  simp only [ite_and]

theorem count_users (found : catalog.modules.get? path = some home) (different : other ≠ path)
    (source target : String) :
    ((catalog.moduleDependencies home).users.getD other []).count ⟨source, target⟩ =
      if catalog.moduleOf? target = some path ∧ catalog.entries.contains target ∧
          catalog.moduleOf? source = some other then
        (catalog.dependents target).count source
      else 0 := by
  have homes : ∀ id, ∀ pair ∈ catalog.linksTo id, ∃ away, pair.1 = catalog.moduleOf? away := by
    intro id pair member
    rw [linksTo_eq] at member
    rcases mem_map.mp member with ⟨away, _, rfl⟩
    exact ⟨away, rfl⟩
  have only : ∀ id, ∀ pair ∈ catalog.linksTo id, pair.2 = ⟨source, target⟩ → id = target := by
    intro id pair member same
    rw [linksTo_eq] at member
    rcases mem_map.mp member with ⟨_, _, rfl⟩
    exact (Link.mk.inj same).2
  have injective : (fun source => Link.mk source target).Injective :=
    fun _ _ same => (Link.mk.inj same).1
  rw [moduleDependencies, count_reported sound distinct found different homes only, linksTo_eq,
    count_linked catalog injective]
  simp only [ite_and]

theorem length_inner_add_outerCount (home : ModuleInfo) :
    (catalog.moduleDependencies home).inner.length +
        (catalog.moduleDependencies home).outerCount =
      ((catalog.assignedDependencies home).filter catalog.entries.contains).length := by
  have assigned : ((home.components.flatMap catalog.linksFrom).filter (·.1.isSome)).map
      (·.2.target) = (catalog.assignedDependencies home).filter catalog.entries.contains := by
    rw [assignedDependencies, filter_filter, filter_flatMap, filter_flatMap, map_flatMap]
    apply flatMap_congr
    intro id _
    rw [linksFrom_eq, filter_map, filter_filter, map_map]
    simp only [Function.comp_def, Bool.and_comm, map_id', isAssigned]
  have split := length_inner_add_foreign home.path
    (named_links sound distinct homes_linksFrom home.components)
  rw [ModuleDependencies.outerCount, foldl_lengths, Nat.zero_add, moduleDependencies,
    length_flatten_groupLinks, length_map, split, ← assigned, length_map]

end Ends

/-- In the catalog of a tree in which every module has a name of its own and every component at
most one module, dependents are dependencies turned around, two modules report the same links
between them, and the links counted for a module are its dependencies on components that have a
module and an entry in the graph. -/
theorem module_dependencies_balanced (tree graph : Json) (catalog : Catalog)
    (made : ofJson tree graph = .ok catalog) (distinct : catalog.Distinct) :
    (∀ used user, (catalog.dependents used).count user = (catalog.dependsOn user).count used) ∧
      (∀ path other home away, catalog.modules.get? path = some home →
        catalog.modules.get? other = some away → path ≠ other →
        ((catalog.moduleDependencies home).used.getD other []).Perm
          ((catalog.moduleDependencies away).users.getD path [])) ∧
      ∀ path home, catalog.modules.get? path = some home →
        (catalog.moduleDependencies home).inner.length +
            (catalog.moduleDependencies home).outerCount =
          ((catalog.assignedDependencies home).filter catalog.entries.contains).length := by
  have sound := (ofJson_spec made).2
  refine ⟨sound.count_dependents, ?_, ?_⟩
  · intro path other home away atPath atOther different
    rw [List.perm_iff_count]
    rintro ⟨source, target⟩
    rw [count_used sound distinct atPath different.symm, count_users sound distinct atOther different,
      sound.count_dependents target source]
    apply if_congr _ rfl rfl
    constructor
    · rintro ⟨here, known, there⟩
      exact ⟨there, known, here⟩
    · rintro ⟨there, known, here⟩
      exact ⟨here, known, there⟩
  · intro _ home _
    exact length_inner_add_outerCount sound distinct home

/-- A module with two components above one with a component. -/
def coreTree : Json :=
  .object [("core", .object [
    ("components", .ofStrings ["core.a", "core.b"]),
    ("children", .object [("ui", .object [("components", .ofStrings ["ui.c"])])])])]

/-- A graph in which a component names another one twice and also names an unknown one. -/
def coreGraph : Json :=
  .object [("core.a", .object [("depends_on", .ofStrings ["ui.c", "core.b", "ui.c", "os"])]),
    ("core.b", .object []), ("ui.c", .object [("depends_on", .ofStrings ["core.a"])])]

def coreModule : ModuleInfo where
  path := "core"
  listed := .ofStrings ["core.a", "core.b"]
  children := .object [("ui", .object [("components", .ofStrings ["ui.c"])])]
  parent := none
  isLeaf := false
  level := 0

def uiModule : ModuleInfo where
  path := "ui"
  listed := .ofStrings ["ui.c"]
  children := .object []
  parent := some "core"
  isLeaf := true
  level := 1

def coreIndex : ModuleIndex := ⟨[coreModule, uiModule]⟩

def coreCatalog : Catalog :=
  ⟨coreIndex, coreIndex.modules, coreIndex.owners, .ofList
    [("core.a", ⟨"core.a", [("depends_on", .ofStrings ["ui.c", "core.b", "ui.c", "os"])]⟩),
      ("core.b", ⟨"core.b", []⟩),
      ("ui.c", ⟨"ui.c", [("depends_on", .ofStrings ["core.a"])]⟩)]⟩

theorem core_dependencies_balanced :
    ofJson coreTree coreGraph = .ok coreCatalog ∧ coreCatalog.Distinct ∧
      ((coreCatalog.moduleDependencies coreModule).used.getD "ui" []).Perm
        ((coreCatalog.moduleDependencies uiModule).users.getD "core" []) ∧
      (coreCatalog.moduleDependencies coreModule).used.getD "ui" [] =
        [⟨"core.a", "ui.c"⟩, ⟨"core.a", "ui.c"⟩] := by
  have made : ofJson coreTree coreGraph = .ok coreCatalog := by rfl
  have distinct : coreCatalog.Distinct := ⟨by decide, by decide, by decide⟩
  have balanced := module_dependencies_balanced coreTree coreGraph coreCatalog made distinct
  exact ⟨made, distinct,
    balanced.2.1 "core" "ui" coreModule uiModule (by rfl) (by rfl) (by decide), by decide⟩

/-- A module whose component depends on one of the module beside it. -/
def besideTree : Json :=
  .object [("m", .object [("components", .ofStrings ["a"])]),
    ("n", .object [("components", .ofStrings ["b"])])]

/-- A graph with an entry for the first component only. -/
def besideGraph : Json := .object [("a", .object [("depends_on", .ofStrings ["b"])])]

def besideModule (path id : String) : ModuleInfo := ⟨path, .ofStrings [id], .object [], none, true, 0⟩

def besideIndex : ModuleIndex := ⟨[besideModule "m" "a", besideModule "n" "b"]⟩

def besideCatalog : Catalog :=
  ⟨besideIndex, besideIndex.modules, besideIndex.owners,
    .ofList [("a", ⟨"a", [("depends_on", .ofStrings ["b"])]⟩)]⟩

/-- A dependency on a component that has a module, but no entry in the graph, is not counted. -/
theorem beside_dependency_not_counted :
    ofJson besideTree besideGraph = .ok besideCatalog ∧ besideCatalog.Distinct ∧
      besideCatalog.modules.get? "m" = some (besideModule "m" "a") ∧
      besideCatalog.assignedDependencies (besideModule "m" "a") = ["b"] ∧
      (besideCatalog.moduleDependencies (besideModule "m" "a")).inner.length +
        (besideCatalog.moduleDependencies (besideModule "m" "a")).outerCount = 0 :=
  ⟨by rfl, ⟨by decide, by decide, by decide⟩, by rfl, by decide, by decide⟩

end Catalog

end CodeAtlas.Wiki
