import CodeAtlas.Proofs.Disk.Folder
import CodeAtlas.Proofs.Graph.Sorted
import CodeAtlas.Proofs.Wiki.Dependencies
import CodeAtlas.Wiki.Generation

/-!
The pages of a wiki. The level of a module alone decides on its page: the modules of the deepest level
get pages with their components, all others get pages with their children. A module of the deepest
level has no children, but a module without children may stand further up, and then its components
are nowhere described.
-/

namespace CodeAtlas.Wiki

open Work OrderedMap List

variable {catalog : Catalog} {info : ModuleInfo} {path text : String} {place : List String}

/-! ## Modules and their levels -/

def childMembers (members : Json.Members) : Json.Members :=
  match members.lookup "children" with
  | some (.object children) => children
  | _ => []

theorem childMembers_eq {members children : Json.Members}
    (given : (members.lookup "children").getD (.object []) = .object children) :
    childMembers members = children := by
  unfold childMembers
  cases found : members.lookup "children" with
  | none =>
    rw [found] at given
    exact Json.object.inj given
  | some value =>
    rw [found, Option.getD_some] at given
    rw [given]

/-- How the modules of a tree are listed: every member is an object, and its module comes before the
modules below it. -/
inductive Listing : Option String → Nat → Json.Members → List ModuleInfo → Prop
  | nil (parent : Option String) (level : Nat) : Listing parent level [] []
  | cons {parent : Option String} {level : Nat} {path : String} {members rest : Json.Members}
      {listed : Json} {isLeaf : Bool} {below others : List ModuleInfo}
      (inner : Listing (some path) (level + 1) (childMembers members) below)
      (later : Listing parent level rest others) :
      Listing parent level ((path, .object members) :: rest)
        (⟨path, listed, (members.lookup "children").getD (.object []), parent, isLeaf, level⟩ ::
          below ++ others)

mutual

theorem listing_listModules (parent : Option String) (level : Nat) :
    (members : Json.Members) → ∀ visits, listModules parent level members = .ok visits →
      Listing parent level members visits
  | [], visits, listed => by
    cases listed
    exact .nil parent level
  | (path, value) :: rest, visits, listed => by
    rw [listModules] at listed
    rcases bind_eq_ok_iff.mp listed with ⟨here, first, listed⟩
    rcases bind_eq_ok_iff.mp listed with ⟨others, second, whole⟩
    cases whole
    exact listing_listModule parent level path value here first rest others
      (listing_listModules parent level rest others second)

theorem listing_listModule (parent : Option String) (level : Nat) (path : String) :
    (value : Json) → ∀ here, listModule parent level path value = .ok here →
      ∀ rest others, Listing parent level rest others →
        Listing parent level ((path, value) :: rest) (here ++ others)
  | .object members, here, listed => by
    rw [listModule] at listed
    rcases bind_eq_ok_iff.mp listed with ⟨info, described, listed⟩
    rcases bind_eq_ok_iff.mp listed with ⟨below, inner, whole⟩
    cases whole
    rcases bind_eq_ok_iff.mp described with ⟨size, _, described⟩
    rcases bind_eq_ok_iff.mp described with ⟨listed, _, described⟩
    cases described
    exact fun _ _ later => .cons (listing_listChildren level path members below inner) later
  | .null, here, listed => by cases listed
  | .bool _, here, listed => by cases listed
  | .int _, here, listed => by cases listed
  | .float _, here, listed => by cases listed
  | .text _, here, listed => by cases listed
  | .list _, here, listed => by cases listed

theorem listing_listChildren (level : Nat) (path : String) :
    (members : Json.Members) → ∀ visits, listChildren level path members = .ok visits →
      Listing (some path) (level + 1) (childMembers members) visits
  | [], visits, listed => by
    cases listed
    exact .nil (some path) (level + 1)
  | (name, value) :: rest, visits, listed => by
    by_cases same : name = "children"
    · subst same
      cases value with
      | object children =>
        rw [listChildren] at listed
        exact listing_listModules (some path) (level + 1) children visits listed
      | _ =>
        rw [listChildren] at listed
        · split at listed
          · cases listed
          · cases listed
            exact .nil (some path) (level + 1)
        · exact fun _ given => by cases given
    · rw [listChildren] at listed
      · have later := listing_listChildren level path rest visits listed
        rwa [childMembers, OrderedMap.lookup_cons_of_ne (Ne.symm same)]
      · exact fun _ here => same (congrArg Prod.fst here)
      · exact fun _ here => same (congrArg Prod.fst here)

end

/-- The children of the modules in a list are in the list, one level further down. -/
def HasChildren (visits : List ModuleInfo) : Prop :=
  ∀ info ∈ visits, ∀ children, info.children = .object children → ∀ pair ∈ children,
    ∃ child ∈ visits, child.path = pair.1 ∧ child.level = info.level + 1

theorem HasChildren.append {first second : List ModuleInfo} (left : HasChildren first)
    (right : HasChildren second) : HasChildren (first ++ second) := by
  intro info member children given pair among
  rcases mem_append.mp member with early | late
  · rcases left info early children given pair among with ⟨child, inside, found⟩
    exact ⟨child, mem_append_left _ inside, found⟩
  · rcases right info late children given pair among with ⟨child, inside, found⟩
    exact ⟨child, mem_append_right _ inside, found⟩

namespace Listing

variable {parent : Option String} {level : Nat} {members : Json.Members} {visits : List ModuleInfo}

theorem hasChildren (listing : Listing parent level members visits) :
    HasChildren visits ∧
      ∀ pair ∈ members, ∃ child ∈ visits, child.path = pair.1 ∧ child.level = level := by
  induction listing with
  | nil =>
    exact ⟨forall_mem_nil _,
      forall_mem_nil _⟩
  | cons _ _ below others =>
    refine ⟨HasChildren.append ?_ others.1, fun pair member => ?_⟩
    · intro info member children given pair among
      rcases mem_cons.mp member with rfl | deeper
      · rcases below.2 pair (childMembers_eq given ▸ among) with ⟨child, inside, found⟩
        exact ⟨child, mem_cons_of_mem _ inside, found⟩
      · rcases below.1 info deeper children given pair among with ⟨child, inside, found⟩
        exact ⟨child, mem_cons_of_mem _ inside, found⟩
    · rcases mem_cons.mp member with rfl | further
      · exact ⟨_, mem_append_left _ mem_cons_self, rfl, rfl⟩
      · rcases others.2 pair further with ⟨child, inside, found⟩
        exact ⟨child, mem_append_right _ inside, found⟩

theorem parented (listing : Listing parent level members visits) (given : parent.isSome) :
    ∀ info ∈ visits, info.parent.isSome := by
  induction listing with
  | nil => exact forall_mem_nil _
  | cons _ _ below others =>
    exact forall_mem_append.mpr
      ⟨forall_mem_cons.mpr ⟨given, below rfl⟩, others given⟩

theorem roots (listing : Listing parent level members visits) (top : parent = none) :
    (visits.filter (·.parent.isNone)).map (·.path) = members.map Prod.fst := by
  induction listing with
  | nil => rfl
  | @cons _ _ _ _ _ _ _ below _ inner _ _ others =>
    have deeper : below.filter (·.parent.isNone) = [] := by
      rw [filter_eq_nil_iff]
      intro other member
      rw [Option.isNone_iff_eq_none, ← Option.not_isSome_iff_eq_none, not_not]
      exact inner.parented rfl other member
    rw [cons_append, filter_cons_of_pos (by rw [top, Option.isNone_none]),
      filter_append, deeper, nil_append, map_cons, others top, map_cons]

theorem isObject (listing : Listing parent level members visits) :
    ∀ pair ∈ members, ∃ inner, pair.2 = .object inner := by
  induction listing with
  | nil => exact forall_mem_nil _
  | cons _ _ _ others => exact forall_mem_cons.mpr ⟨⟨_, rfl⟩, others⟩

end Listing

theorem ModuleIndex.exists_listing {tree : Json} {index : ModuleIndex}
    (read : ModuleIndex.ofJson tree = .ok index) :
    ∃ members, tree = .object members ∧ Listing none 0 members index.visits := by
  cases tree with
  | object members =>
    rcases bind_eq_ok_iff.mp read with ⟨visits, listed, whole⟩
    cases whole
    exact ⟨members, rfl, listing_listModules none 0 members visits listed⟩
  | _ => cases read

theorem hasChildren_of_ofJson {tree graph : Json} (made : Catalog.ofJson tree graph = .ok catalog) :
    HasChildren catalog.index.visits := by
  rcases ModuleIndex.exists_listing (Catalog.ofJson_spec made).1 with ⟨_, _, listing⟩
  exact listing.hasChildren.1

namespace ModuleIndex

variable {index : ModuleIndex} {depth : Nat}

def bottomUp (index : ModuleIndex) (depth : Nat) : List ModuleInfo :=
  (List.range (depth + 1)).reverse.flatMap fun level => index.visits.filter (·.level == level)

section Names

variable (names : (index.visits.map (·.path)).Nodup)

include names

theorem values_modules : index.modules.values = index.visits := by
  have keys : (index.visits.map fun info => (info.path, info)).map Prod.fst =
      index.visits.map (·.path) := by simp
  rw [modules, OrderedMap.values, entries_ofList (keys ▸ names)]
  simp [Function.comp_def]

theorem atLevel_eq (level : Nat) :
    index.atLevel level = (index.visits.filter (·.level == level)).map (·.path) := by
  rw [atLevel, values_modules names]

theorem mem_atLevel_iff {level : Nat} {path : String} :
    path ∈ index.atLevel level ↔ ∃ info ∈ index.visits, info.level = level ∧ info.path = path := by
  simp [atLevel_eq names, and_assoc]

theorem depth_spec (found : index.depth = .ok depth) :
    (∃ info ∈ index.visits, info.level = depth) ∧ ∀ info ∈ index.visits, info.level ≤ depth := by
  rw [ModuleIndex.depth, values_modules names] at found
  cases levels : index.visits.map (·.level) with
  | nil =>
    rw [levels] at found
    cases found
  | cons first rest =>
    rw [levels] at found
    have greatest : (index.visits.map (·.level)).max? = some depth := by
      rw [levels, max?_cons', ← Except.ok.inj found]
    rcases max?_eq_some_iff.mp greatest with ⟨member, bound⟩
    rcases mem_map.mp member with ⟨info, visited, same⟩
    exact ⟨⟨info, visited, same⟩, fun other inside => bound _ (mem_map_of_mem inside)⟩

theorem exists_depth (filled : index.visits ≠ []) : ∃ depth, index.depth = .ok depth := by
  rw [ModuleIndex.depth, values_modules names]
  cases levels : index.visits.map (·.level) with
  | nil => exact absurd (map_eq_nil_iff.mp levels) filled
  | cons first rest => exact ⟨_, rfl⟩

variable (found : index.depth = .ok depth)

include found

theorem mem_bottomUp_iff (info : ModuleInfo) : info ∈ index.bottomUp depth ↔ info ∈ index.visits := by
  simp only [bottomUp, mem_flatMap, mem_reverse, mem_range, mem_filter]
  constructor
  · rintro ⟨_, _, visited, _⟩
    exact visited
  · intro visited
    exact ⟨info.level, Nat.lt_succ_of_le ((depth_spec names found).2 info visited), visited, by simp⟩

theorem nodup_bottomUp : ((index.bottomUp depth).map (·.path)).Nodup := by
  have distinct : (index.bottomUp depth).Nodup := by
    rw [bottomUp, nodup_flatMap]
    constructor
    · exact fun level _ => (List.Nodup.of_map _ names).filter _
    · apply (nodup_reverse.mpr nodup_range).imp
      intro level other different info here there
      have first := beq_iff_eq.mp (mem_filter.mp here).2
      have second := beq_iff_eq.mp (mem_filter.mp there).2
      exact different (first.symm.trans second)
  have perm : (index.bottomUp depth).Perm index.visits :=
    (perm_ext_iff_of_nodup distinct (List.Nodup.of_map _ names)).mpr
      (mem_bottomUp_iff names found)
  exact (perm.map _).nodup_iff.mpr names

theorem mem_before_of_level_lt {before after : List String} {deeper : ModuleInfo}
    (order : (index.bottomUp depth).map (·.path) = before ++ info.path :: after)
    (visited : info ∈ index.visits) (other : deeper ∈ index.visits)
    (lower : info.level < deeper.level) : deeper.path ∈ before := by
  have descending : (index.bottomUp depth).Pairwise fun first second =>
      second.level ≤ first.level := by
    rw [bottomUp, pairwise_flatMap]
    constructor
    · intro level _
      apply pairwise_of_forall_mem_list
      intro first here second there
      rw [beq_iff_eq.mp (mem_filter.mp here).2, beq_iff_eq.mp (mem_filter.mp there).2]
    · rw [pairwise_reverse]
      apply pairwise_lt_range.imp
      intro upper level less first here second there
      rw [beq_iff_eq.mp (mem_filter.mp here).2, beq_iff_eq.mp (mem_filter.mp there).2]
      exact Nat.le_of_lt less
  rcases map_eq_append_iff.mp order with ⟨early, rest, whole, sameBefore, sameRest⟩
  rcases map_eq_cons_iff.mp sameRest with ⟨here, late, restWhole, samePath, _⟩
  rw [restWhole] at whole
  have hereVisited : here ∈ index.visits :=
    (mem_bottomUp_iff names found here).mp (whole ▸ by simp)
  cases inj_on_of_nodup_map names hereVisited visited samePath
  have member := (mem_bottomUp_iff names found deeper).mpr other
  rw [whole] at member descending
  rcases mem_append.mp member with inBefore | later
  · exact sameBefore ▸ mem_map_of_mem inBefore
  · rcases mem_cons.mp later with rfl | inAfter
    · exact absurd lower (Nat.lt_irrefl _)
    · have notDeeper := (pairwise_cons.mp (pairwise_append.mp descending).2.1).1 deeper inAfter
      exact absurd lower (Nat.not_lt.mpr notDeeper)

theorem exists_levels : ∃ above, index.levels = .ok (index.atLevel depth :: above) ∧
    (index.bottomUp depth).map (·.path) = index.atLevel depth ++ above.flatten := by
  have filled : (index.atLevel depth).isEmpty = false := by
    rcases (depth_spec names found).1 with ⟨info, visited, level⟩
    have member := (mem_atLevel_iff names).mpr ⟨info, visited, level, rfl⟩
    simpa using ne_nil_of_mem member
  refine ⟨((List.range depth).reverse.map index.atLevel).filter fun names => !names.isEmpty, ?_, ?_⟩
  · rw [levels, found]
    simp [bind, Except.bind, pure, Except.pure, range_succ, filled]
  · have paths : (fun level => (index.visits.filter (·.level == level)).map (·.path)) =
        index.atLevel := by
      funext level
      rw [atLevel_eq names]
    rw [flatten_filter_not_isEmpty, bottomUp, map_flatMap, paths, range_succ, reverse_append,
      reverse_singleton, singleton_append, flatMap_cons, flatMap_def]

end Names

end ModuleIndex

/-! ## Two kinds of pages -/

/-- The page of a module with a section for each of its components in the graph. -/
structure IsComponentPage (catalog : Catalog) (info : ModuleInfo) (text : String) : Prop where
  page : ∃ report, catalog.report info = .ok report ∧ text = modulePage .plain catalog report
  sections : ∃ (known : List Described) (before after : String),
    text = before ++ "## Components\n\n" ++
      String.join (known.map (componentSection catalog)) ++ after ∧
    (∀ one ∈ known, catalog.purpose one.entry = .ok one.purpose) ∧
    (known.map (·.entry.key)).Nodup ∧
    ∀ id, id ∈ known.map (·.entry.key) ↔ id ∈ info.components ∧ catalog.entries.contains id = true

/-- The page of a module with all its children. -/
def IsParentPage (info : ModuleInfo) (text : String) : Prop :=
  ∃ children documented, info.childNames = .ok children ∧ documented.map Child.path = children ∧
    parentPage info.path children documented = .ok text

theorem exists_sections (edition : Edition) (catalog : Catalog) (report : Report) :
    ∃ before after, modulePage edition catalog report = before ++ "## Components\n\n" ++
      String.join (report.entries.values.map (componentSection catalog)) ++ after := by
  unfold modulePage
  dsimp only
  apply Exists.intro
  refine ⟨modulesSection "## External Dependencies" report.dependencies.used ++
    modulesSection "## Used By" report.dependencies.users ++
    patternsSection report.patterns.patterns, ?_⟩
  rw [← String.append_assoc, ← String.append_assoc]

namespace Catalog

/-- A catalog in which the name of every component is a text. -/
def HasNames (catalog : Catalog) : Prop :=
  ∀ entry ∈ catalog.entries.values, entry.name.text?.isSome = true

instance : Decidable catalog.HasNames :=
  inferInstanceAs (Decidable (∀ entry ∈ catalog.entries.values, entry.name.text?.isSome = true))

theorem mem_known_iff {ids : List String} {pair : String × Entry} :
    pair ∈ catalog.known ids ↔ pair.1 ∈ ids ∧ catalog.entries.get? pair.1 = some pair.2 := by
  simp only [known, mem_filterMap, Option.map_eq_some_iff]
  constructor
  · rintro ⟨id, member, entry, found, rfl⟩
    exact ⟨member, found⟩
  · rintro ⟨member, found⟩
    exact ⟨pair.1, member, pair.2, found, rfl⟩

theorem HasNames.exists_report (named : catalog.HasNames) (info : ModuleInfo) :
    ∃ report, catalog.report info = .ok report := by
  refine (exists_mapM ?_).elim fun rows read =>
    ⟨_, bind_eq_ok_iff.mpr ⟨_, bind_eq_ok_iff.mpr ⟨rows, read, rfl⟩, rfl⟩⟩
  rintro ⟨id, entry⟩ member
  have entered := (get?_eq_some_iff _ _ _).mp (mem_known_iff.mp member).2
  have isText := named entry (mem_map_of_mem entered)
  cases name : entry.name with
  | text written =>
    have inferred : catalog.purpose entry = .ok (.infer written entry.kind
        entry.used.itemsOf.length (catalog.dependents entry.key).length) := by
      rw [purpose, name]
      rfl
    exact ⟨_, bind_eq_ok_iff.mpr ⟨_, inferred, rfl⟩⟩
  | _ =>
    rw [name] at isText
    cases isText

theorem report_spec {report : Report} (reported : catalog.report info = .ok report) :
    report.info = info ∧ catalog.described info.components = .ok report.entries := by
  rcases bind_eq_ok_iff.mp reported with ⟨found, made, whole⟩
  cases whole
  exact ⟨rfl, made⟩

theorem Sound.described_spec (sound : catalog.Sound) {ids : List String}
    {found : OrderedMap String Described} (made : catalog.described ids = .ok found) :
    (∀ pair ∈ found.entries,
      pair.2.entry.key = pair.1 ∧ catalog.purpose pair.2.entry = .ok pair.2.purpose) ∧
      ∀ id, id ∈ found.keys ↔ id ∈ ids ∧ catalog.entries.contains id = true := by
  rcases bind_eq_ok_iff.mp made with ⟨rows, read, whole⟩
  cases whole
  constructor
  · intro pair member
    rcases exists_of_mem_mapM read (mem_of_mem_ofList member) with ⟨⟨id, entry⟩, known, gave⟩
    rcases bind_eq_ok_iff.mp gave with ⟨purpose, inferred, same⟩
    cases same
    exact ⟨sound.keyed id entry (mem_known_iff.mp known).2, inferred⟩
  · intro id
    have names : rows.map Prod.fst = (catalog.known ids).map Prod.fst := by
      apply map_of_mapM _ read
      rintro ⟨id, entry⟩ value gave
      rcases bind_eq_ok_iff.mp gave with ⟨purpose, _, same⟩
      cases same
      rfl
    rw [mem_keys_ofList_iff, names, OrderedMap.contains_iff, mem_keys_iff]
    simp only [mem_map, mem_known_iff]
    constructor
    · rintro ⟨pair, ⟨member, found⟩, rfl⟩
      exact ⟨member, pair.2, found⟩
    · rintro ⟨member, entry, found⟩
      exact ⟨(id, entry), ⟨member, found⟩, rfl⟩

end Catalog

theorem isComponentPage_modulePage (sound : catalog.Sound) {report : Report}
    (reported : catalog.report info = .ok report) :
    IsComponentPage catalog info (modulePage .plain catalog report) := by
  rcases sound.described_spec (Catalog.report_spec reported).2 with ⟨described, members⟩
  have keys : report.entries.values.map (·.entry.key) = report.entries.keys := by
    rw [OrderedMap.values, OrderedMap.keys, map_map]
    exact map_congr_left fun pair member => (described pair member).1
  rcases exists_sections .plain catalog report with ⟨before, after, split⟩
  refine ⟨⟨report, reported, rfl⟩, report.entries.values, before, after, split, ?_, ?_, ?_⟩
  · intro one member
    rcases mem_map.mp member with ⟨pair, inside, rfl⟩
    exact (described pair inside).2
  · rw [keys]
    exact nodup_keys _
  · rwa [keys]

theorem modulePage_opening (edition : Edition) (catalog : Catalog) (report : Report) :
    ∃ rest, modulePage edition catalog report = "# Module: " ++ (report.info.path ++ ("\n\n" ++
      ("## Overview\n\n" ++ ("This module contains " ++ rest)))) := by
  unfold modulePage
  simp only [String.append_assoc]
  exact ⟨_, rfl⟩

theorem parentPage_opening {children : List String} {documented : List Child}
    (written : parentPage path children documented = .ok text) :
    ∃ rest, text = "# Module: " ++ (path ++ ("\n\n" ++ ("## Overview\n\n" ++
      ("This is a parent module containing " ++ rest)))) := by
  rcases bind_eq_ok_iff.mp written with ⟨described, _, whole⟩
  rw [← Except.ok.inj whole]
  simp only [String.append_assoc]
  exact ⟨_, rfl⟩

theorem IsComponentPage.not_isParentPage (isPage : IsComponentPage catalog info text) :
    ¬ IsParentPage info text := by
  rintro ⟨children, documented, _, _, written⟩
  rcases isPage.page with ⟨report, reported, rfl⟩
  rcases modulePage_opening .plain catalog report with ⟨components, first⟩
  rcases parentPage_opening written with ⟨submodules, second⟩
  rw [first, (Catalog.report_spec reported).1] at second
  simp only [String.append_right_inj] at second
  -- The openings differ in their sixth character.
  have chars := congrArg (fun text => text.toList[5]?) second
  simp at chars

/-! ## Places of pages -/

def pageAt (path : String) : List String := "modules" :: Path.parts path ++ ["README.md"]

section Paths

variable {folder : String} (filled : folder ≠ "") (path : String)

include filled

theorem isBelow_pageFolder :
    Path.IsBelow folder (pageFolder folder path) ("modules" :: Path.parts path) :=
  ((Path.isBelow_self filled).concat (by decide)).foldl path

theorem isBelow_pagePath : Path.IsBelow folder (pagePath folder path) (pageAt path) :=
  (isBelow_pageFolder filled path).concat (by decide)

end Paths

namespace Catalog

/-- The children of a module are given as an object, and each module has a place of its own for its
page, which is not on the way to another one. -/
structure Placed (catalog : Catalog) : Prop where
  nested : ∀ info ∈ catalog.index.visits, ∃ children, info.children = .object children
  named : ∀ info ∈ catalog.index.visits, ∀ part ∈ Path.parts info.path, Path.IsName part
  distinct : (catalog.index.visits.map fun info => Path.parts info.path).Nodup
  apart : ∀ info ∈ catalog.index.visits, ∀ other ∈ catalog.index.visits,
    ¬ Path.parts info.path ++ ["README.md"] <+: Path.parts other.path

def places (catalog : Catalog) : List (List String) :=
  ["README.md"] :: ["INDEX.md"] :: catalog.index.visits.map fun info => pageAt info.path

variable {catalog : Catalog}

theorem exists_concat_of_mem_places (member : place ∈ catalog.places) :
    ∃ above name, place = above ++ [name] := by
  simp only [places, mem_cons, mem_map] at member
  rcases member with rfl | rfl | ⟨info, _, rfl⟩
  · exact ⟨[], "README.md", rfl⟩
  · exact ⟨[], "INDEX.md", rfl⟩
  · exact ⟨"modules" :: Path.parts info.path, "README.md", rfl⟩

theorem ne_nil_of_mem_places (member : place ∈ catalog.places) :
    place ≠ [] := by
  rcases exists_concat_of_mem_places member with ⟨above, name, rfl⟩
  exact concat_ne_nil name above

theorem pageAt_mem_places (visited : info ∈ catalog.index.visits) :
    pageAt info.path ∈ catalog.places := by
  simp only [places, mem_cons, mem_map]
  exact .inr (.inr ⟨info, visited, rfl⟩)

namespace Placed

variable (placed : catalog.Placed)

include placed

theorem names : (catalog.index.visits.map (·.path)).Nodup := by
  apply List.Nodup.of_map Path.parts
  rw [map_map]
  exact placed.distinct

theorem named_of_mem_places (member : place ∈ catalog.places) :
    ∀ part ∈ place, Path.IsName part := by
  simp only [places, mem_cons, mem_map] at member
  rcases member with rfl | rfl | ⟨info, visited, rfl⟩
  · decide
  · decide
  · intro part inside
    simp only [pageAt, cons_append, mem_cons, mem_append, not_mem_nil, or_false] at inside
    rcases inside with rfl | among | rfl
    · decide
    · exact placed.named info visited part among
    · decide

theorem eq_of_prefix {first second : List String} (member : first ∈ catalog.places)
    (other : second ∈ catalog.places) (starts : first <+: second) : first = second := by
  simp only [places, mem_cons, mem_map] at member other
  rcases member with rfl | rfl | ⟨info, visited, rfl⟩
  all_goals rcases other with rfl | rfl | ⟨next, present, rfl⟩
  · rfl
  · exact absurd starts (by decide)
  · exact absurd (cons_prefix_cons.mp starts).1 (by decide)
  · exact absurd starts (by decide)
  · rfl
  · exact absurd (cons_prefix_cons.mp starts).1 (by decide)
  · exact absurd (cons_prefix_cons.mp starts).1 (by decide)
  · exact absurd (cons_prefix_cons.mp starts).1 (by decide)
  · have inner := (cons_prefix_cons.mp starts).2
    rcases prefix_concat_iff.mp inner with same | shorter
    · exact congrArg ("modules" :: ·) same
    · exact absurd shorter (placed.apart info visited next present)

theorem eq_of_pageAt {other : ModuleInfo} (visited : info ∈ catalog.index.visits)
    (present : other ∈ catalog.index.visits) (same : pageAt info.path = pageAt other.path) :
    info = other := by
  have parts := append_cancel_right (List.cons.inj same).2
  exact inj_on_of_nodup_map placed.distinct visited present parts

theorem get?_modules (sound : catalog.Sound) (visited : info ∈ catalog.index.visits) :
    catalog.modules.get? info.path = some info :=
  (get?_modules_eq_some_iff sound placed.names info.path info).mpr ⟨visited, rfl⟩

end Placed

end Catalog

/-! ## Writing pages one by one -/

/-- The modules of some names have their pages, and all pages can be written. -/
structure Written (catalog : Catalog) (folder : String) (base : List String)
    (document : ModuleInfo → String → Prop) (done : List String) (disk : Disk) : Prop where
  free : disk.LinkFree folder base
  isOpen : ∀ place ∈ catalog.places, Disk.IsOpen disk.root base place
  page : ∀ info ∈ catalog.index.visits, info.path ∈ done →
    ∃ text, disk.root.view (base ++ pageAt info.path) = some (.file text) ∧ document info text

section Writing

variable {catalog : Catalog} {folder : String} {base : List String}
  {document : ModuleInfo → String → Prop} {done : List String} {disk later : Disk}

theorem Written.get?_page (written : Written catalog folder base document done disk)
    (placed : catalog.Placed) (visited : info ∈ catalog.index.visits) (member : info.path ∈ done) :
    ∃ text, disk.get? (pagePath folder info.path) = some (.file text) ∧ document info text := by
  rcases written.page info visited member with ⟨text, seen, holds⟩
  have noUp : ∀ part ∈ pageAt info.path, part ≠ ".." := fun part inside =>
    (placed.named_of_mem_places (Catalog.pageAt_mem_places visited) part inside).notUp
  have found := written.free.get?_eq (isBelow_pagePath written.free.filled info.path) noUp
  rw [(FileTree.view_eq_some_iff rfl).mp seen] at found
  exact ⟨text, found, holds⟩

theorem Written.read (written : Written catalog folder base document done disk)
    (placed : catalog.Placed) (visited : info ∈ catalog.index.visits) (member : info.path ∈ done) :
    ∃ text, disk.read (pagePath folder info.path) = .ok text := by
  rcases written.get?_page placed visited member with ⟨text, found, _⟩
  exact ⟨text, Disk.read_eq_ok_iff.mpr (by rw [found]; rfl)⟩

theorem Written.saved (written : Written catalog folder base document done disk)
    (placed : catalog.Placed) (member : place ∈ catalog.places)
    (fresh : ∀ info ∈ catalog.index.visits, info.path ∈ done → pageAt info.path ≠ place)
    (free : later.LinkFree folder base) (saved : Disk.Saved disk.root later.root base place text) :
    Written catalog folder base document done later := by
  refine ⟨free, fun other present => ?_, fun info visited among => ?_⟩
  · exact saved.isOpen (written.isOpen other present) (placed.eq_of_prefix present member)
      (placed.eq_of_prefix member present)
  · rw [saved.same]
    · exact written.page info visited among
    · intro starts
      exact fresh info visited among
        (placed.eq_of_prefix (Catalog.pageAt_mem_places visited) member starts)

theorem Written.add (written : Written catalog folder base document done disk)
    (placed : catalog.Placed) (visited : info ∈ catalog.index.visits)
    (seen : disk.root.view (base ++ pageAt info.path) = some (.file text))
    (holds : document info text) :
    Written catalog folder base document (done ++ [info.path]) disk := by
  refine ⟨written.free, written.isOpen, fun other present member => ?_⟩
  rcases mem_append.mp member with before | here
  · exact written.page other present before
  · cases inj_on_of_nodup_map placed.names present visited (mem_singleton.mp here)
    exact ⟨text, seen, holds⟩

theorem Written.succeeds_savePage (written : Written catalog folder base document done disk)
    (placed : catalog.Placed) {target : String} (member : place ∈ catalog.places)
    (fresh : ∀ info ∈ catalog.index.visits, info.path ∈ done → pageAt info.path ≠ place)
    (isBelow : Path.IsBelow folder target place) (text : String) :
    (savePage target text).Succeeds disk fun _ later =>
      Written catalog folder base document done later := by
  have named := placed.named_of_mem_places member
  have isOpen := written.isOpen place member
  rcases Catalog.exists_concat_of_mem_places member with ⟨above, name, rfl⟩
  rcases written.free.exists_save isBelow named isOpen text with
    ⟨made, after, ran, wrote, free, saved⟩
  apply Succeeds.after (ends_makeDirectories ran)
  exact ⟨(), after, ends_writeText wrote, written.saved placed member fresh free saved⟩

theorem Written.succeeds_page (written : Written catalog folder base document done disk)
    (placed : catalog.Placed) (visited : info ∈ catalog.index.visits) (fresh : info.path ∉ done)
    (holds : document info text) (pages : Pages) :
    Succeeds (do
      let place ← pagePlace folder info.path
      savePage place text
      return pages.insert info.path place) disk fun noted later =>
        Written catalog folder base document (done ++ [info.path]) later ∧
          noted = pages.insert info.path (pagePath folder info.path) := by
  have member := Catalog.pageAt_mem_places visited
  have named := placed.named_of_mem_places member
  have isBelow := isBelow_pagePath written.free.filled info.path
  have folderBelow := isBelow_pageFolder written.free.filled info.path
  have namedFolder : ∀ part ∈ "modules" :: Path.parts info.path, Path.IsName part :=
    fun part inside => named part (mem_append_left _ inside)
  rcases written.free.exists_save isBelow named (written.isOpen _ member) text with
    ⟨made, after, ran, wrote, free, saved⟩
  -- The directory is made twice, the second time in vain.
  have first : disk.makeDirectories (pageFolder folder info.path) = .ok made :=
    (written.free.makeDirectories_congr folderBelow isBelow.parent namedFolder).trans ran
  have second : made.makeDirectories (Path.parent (pagePath folder info.path)) = .ok made :=
    Disk.makeDirectories_again written.free.sound.current ran (.refl made)
  have apart : ∀ other ∈ catalog.index.visits, other.path ∈ done →
      pageAt other.path ≠ pageAt info.path := by
    intro other present among same
    exact fresh (placed.eq_of_pageAt present visited same ▸ among)
  have result := (written.saved placed member apart free saved).add placed visited saved.here holds
  have place : (pagePlace folder info.path).Ends disk (.ok (pagePath folder info.path)) made :=
    (ends_makeDirectories first).bind (ends_pure _)
  have page : (savePage (pagePath folder info.path) text).Ends made (.ok ()) after :=
    (ends_makeDirectories second).bind (ends_writeText wrote)
  apply Succeeds.after place
  apply Succeeds.after page
  exact succeeds_pure ⟨result, rfl⟩

end Writing

/-! ## The run -/

/-- The modules of some names have their pages, which are noted in this order. -/
structure Progress (catalog : Catalog) (folder : String) (base : List String)
    (document : ModuleInfo → String → Prop) (done : List String) (pages : Pages) (disk : Disk) :
    Prop where
  written : Written catalog folder base document done disk
  noted : pages.entries = done.map fun path => (path, pagePath folder path)

section Run

variable {catalog : Catalog} {folder : String} {base : List String}
  {document : ModuleInfo → String → Prop} {done : List String} {pages : Pages} {disk : Disk}
  (sound : catalog.Sound) (placed : catalog.Placed)

theorem Progress.get?_pages (progress : Progress catalog folder base document done pages disk)
    (member : path ∈ done) : pages.get? path = some (pagePath folder path) := by
  rw [get?_eq_some_iff, progress.noted]
  exact mem_map_of_mem member

include placed in
theorem Progress.succeeds_readSummaries
    (progress : Progress catalog folder base document done pages disk) {paths : List String}
    (known : ∀ path ∈ paths, path ∈ done ∧ ∃ info ∈ catalog.index.visits, info.path = path) :
    (readSummaries .plain pages paths).Succeeds disk fun found later =>
      disk = later ∧ found.map (fun item => (item.1, item.2.1.isSome)) =
        paths.map fun path => (path, true) := by
  have noted : (paths.filterMap fun path => (pages.get? path).map fun place => (path, place)) =
      paths.map fun path => (path, pagePath folder path) := by
    rw [← filterMap_eq_map]
    apply filterMap_congr
    intro path member
    rw [progress.get?_pages (known path member).1]
    rfl
  have label : (paths.map fun path => (path, true)) =
      (paths.map fun path => (path, pagePath folder path)).map fun pair => (pair.1, true) := by
    rw [map_map]
    rfl
  rw [readSummaries, noted, label]
  apply succeeds_mapM
  intro pair member
  rcases mem_map.mp member with ⟨path, among, rfl⟩
  rcases known path among with ⟨present, info, visited, rfl⟩
  rcases progress.written.read placed visited present with ⟨text, read⟩
  apply Succeeds.after (ends_readText read)
  exact succeeds_pure ⟨rfl, rfl⟩

include sound placed in
theorem ends_findModule (visited : info ∈ catalog.index.visits) :
    (findModule catalog info.path).Ends disk (.ok info) disk := by
  rw [findModule, placed.get?_modules sound visited]
  exact ends_pure info

theorem exists_linkBetween (disk : Disk) (page other : String) :
    ∃ link, (linkBetween page other).Ends disk (.ok link) disk :=
  ⟨_, ends_disk.bind (ends_pure _)⟩

theorem Progress.insert {noted : Pages}
    (progress : Progress catalog folder base document done pages disk) (fresh : path ∉ done)
    {later : Disk} (written : Written catalog folder base document (done ++ [path]) later)
    (inserted : noted = pages.insert path (pagePath folder path)) :
    Progress catalog folder base document (done ++ [path]) noted later := by
  subst inserted
  refine ⟨written, ?_⟩
  have absent : path ∉ pages.entries.map Prod.fst := by
    rw [progress.noted, map_map]
    simpa using fresh
  apply (insertEntry_of_not_mem absent _).trans
  rw [progress.noted, map_append]
  rfl

include sound placed

theorem Progress.succeeds_writeModulePage (named : catalog.HasNames)
    (progress : Progress catalog folder base document done pages disk)
    (visited : info ∈ catalog.index.visits) (fresh : info.path ∉ done)
    (holds : ∀ text, IsComponentPage catalog info text → document info text) :
    (writeModulePage .plain catalog folder pages info.path).Succeeds disk fun noted later =>
      Progress catalog folder base document (done ++ [info.path]) noted later := by
  apply Succeeds.after (ends_findModule sound placed visited)
  rcases named.exists_report info with ⟨report, reported⟩
  apply Succeeds.after (ends_ofExcept_of_ok reported)
  have page := holds _ (isComponentPage_modulePage sound reported)
  apply (progress.written.succeeds_page placed visited fresh page pages).mono
  rintro noted later ⟨written, inserted⟩
  exact progress.insert fresh written inserted

omit sound placed in
theorem exists_parentPage {children : List String} {documented : List Child}
    (each : ∀ child ∈ documented, child.summary.isSome = true) :
    ∃ text, parentPage path children documented = .ok text := by
  have described : ∀ child ∈ documented, ∃ line, child.line = .ok line := by
    intro child member
    rcases Option.isSome_iff_exists.mp (each child member) with ⟨summary, given⟩
    rw [Child.line, given]
    exact ⟨_, rfl⟩
  rcases exists_mapM described with ⟨lines, all⟩
  exact ⟨_, bind_eq_ok_iff.mpr ⟨lines, all, rfl⟩⟩

theorem Progress.succeeds_writeParentPage
    (progress : Progress catalog folder base document done pages disk)
    (visited : info ∈ catalog.index.visits) (fresh : info.path ∉ done)
    {children : List (String × Json)} (given : info.children = .object children)
    (earlier : ∀ pair ∈ children, pair.1 ∈ done ∧ ∃ child ∈ catalog.index.visits, child.path = pair.1)
    (holds : ∀ text, IsParentPage info text → document info text) :
    (writeParentPage .plain catalog folder pages info.path).Succeeds disk fun noted later =>
      Progress catalog folder base document (done ++ [info.path]) noted later := by
  have childNames : info.childNames = .ok (children.map Prod.fst) := by
    rw [ModuleInfo.childNames, given]
    rfl
  apply Succeeds.after (ends_findModule sound placed visited)
  apply Succeeds.after (ends_ofExcept_of_ok childNames)
  have known : ∀ path ∈ children.map Prod.fst,
      path ∈ done ∧ ∃ child ∈ catalog.index.visits, child.path = path := by
    intro path member
    rcases mem_map.mp member with ⟨pair, among, rfl⟩
    exact earlier pair among
  apply (progress.succeeds_readSummaries placed known).bind
  rintro found _ ⟨rfl, summaries⟩
  apply Succeeds.bind (succeeds_mapM (fun item => (item.1, item.2.1.isSome))
    (fun child : Child => (child.path, child.summary.isSome)) fun item _ => ?_)
  · rintro documented _ ⟨rfl, labels⟩
    rw [summaries] at labels
    have described : ∀ child ∈ documented, child.summary.isSome = true := by
      intro child member
      have inside := mem_map_of_mem
        (f := fun child : Child => (child.path, child.summary.isSome)) member
      rw [labels] at inside
      rcases mem_map.mp inside with ⟨path, _, same⟩
      exact (Prod.mk.inj same).2.symm
    have paths : documented.map Child.path = children.map Prod.fst := by
      have first := congrArg (List.map Prod.fst) labels
      simpa [map_map, Function.comp_def] using first
    rcases exists_parentPage described with ⟨text, written⟩
    have page := holds text ⟨_, documented, childNames, paths, written⟩
    apply Succeeds.after (ends_ofExcept_of_ok written)
    apply (progress.written.succeeds_page placed visited fresh page pages).mono
    rintro noted later ⟨written, inserted⟩
    exact progress.insert fresh written inserted
  · rcases item with ⟨child, summary, place⟩
    rcases exists_linkBetween disk (pagePath folder info.path) place with ⟨link, linked⟩
    apply Succeeds.after linked
    exact succeeds_pure ⟨rfl, rfl⟩

theorem Progress.succeeds_writeDeepest (named : catalog.HasNames)
    (progress : Progress catalog folder base document [] pages disk) {paths : List String}
    (distinct : paths.Nodup)
    (each : ∀ path ∈ paths, ∃ info ∈ catalog.index.visits, info.path = path ∧
      ∀ text, IsComponentPage catalog info text → document info text) :
    (writeDeepest .plain catalog folder paths pages).Succeeds disk fun noted later =>
      Progress catalog folder base document paths noted later := by
  have whole : paths.zipIdx.map Prod.fst = paths := zipIdx_map_fst 0 paths
  have run : (writeDeepest .plain catalog folder paths pages).Succeeds disk fun noted later =>
      Progress catalog folder base document (paths.zipIdx.map Prod.fst) noted later := by
    apply succeeds_foldlM (fun before noted later =>
      Progress catalog folder base document (before.map Prod.fst) noted later) progress
    rintro before ⟨path, number⟩ after split noted between reached
    rw [split, map_append, map_cons] at whole
    rw [← whole] at distinct each
    have fresh : path ∉ before.map Prod.fst := fun inside =>
      (nodup_append.mp distinct).2.2 path inside path mem_cons_self rfl
    rcases each path (by simp) with ⟨info, visited, rfl, holds⟩
    apply (reached.succeeds_writeModulePage sound placed named visited fresh holds).bind
    intro further later reached
    apply Succeeds.printed
    apply succeeds_pure
    rw [map_append]
    exact reached
  rwa [whole] at run

theorem Progress.succeeds_writeAbove
    (progress : Progress catalog folder base document done pages disk)
    {levels : List (List String)}
    (distinct : (done ++ levels.flatten).Nodup)
    (each : ∀ before path after, levels.flatten = before ++ path :: after →
      ∃ info ∈ catalog.index.visits, info.path = path ∧
        (∀ children, info.children = .object children → ∀ pair ∈ children,
          pair.1 ∈ done ++ before ∧ ∃ child ∈ catalog.index.visits, child.path = pair.1) ∧
        ∀ text, IsParentPage info text → document info text) :
    (writeAbove .plain catalog folder levels pages).Succeeds disk fun noted later =>
      Progress catalog folder base document (done ++ levels.flatten) noted later := by
  unfold writeAbove
  dsimp only
  have whole : (levelRows levels).zipIdx.map (·.1.2) = levels.flatten := by
    have inner : (levelRows levels).zipIdx.map (·.1.2) =
        ((levelRows levels).zipIdx.map Prod.fst).map Prod.snd := by
      rw [map_map]
      rfl
    have outer : levels.zipIdx.map Prod.fst = levels := zipIdx_map_fst 0 levels
    rw [inner, zipIdx_map_fst, levelRows, map_flatMap]
    simp only [map_map, Function.comp_def, map_id']
    rw [flatMap_def, outer]
  rw [← whole] at distinct each ⊢
  apply succeeds_foldlM (fun (before : List ((Nat × String) × Nat)) noted later =>
    Progress catalog folder base document (done ++ before.map (·.1.2)) noted later)
  · rwa [map_nil, append_nil]
  · rintro before ⟨⟨level, path⟩, number⟩ after split noted between reached
    rw [split, map_append, map_cons] at distinct each
    rcases each _ path _ rfl with ⟨info, visited, rfl, earlier, holds⟩
    have fresh : info.path ∉ done ++ before.map (·.1.2) := by
      rw [← append_assoc] at distinct
      intro inside
      exact (nodup_append.mp distinct).2.2 info.path inside info.path mem_cons_self rfl
    rcases placed.nested info visited with ⟨children, given⟩
    apply (reached.succeeds_writeParentPage sound placed visited fresh given
      (earlier children given) holds).bind
    intro further later reached
    apply Succeeds.printed
    apply succeeds_pure
    rw [map_append, ← append_assoc]
    exact reached

omit sound in
theorem exists_summary {depth : Nat} (found : catalog.index.depth = .ok depth) :
    ∃ summary, catalog.summary = .ok summary := by
  rcases ModuleIndex.exists_levels placed.names found with ⟨above, levels, _⟩
  rw [Catalog.summary, found, levels]
  exact ⟨_, rfl⟩

omit sound in
theorem Progress.succeeds_writeOverview
    (progress : Progress catalog folder base document done pages disk)
    (complete : ∀ info ∈ catalog.index.visits, info.path ∈ done) {depth : Nat}
    (found : catalog.index.depth = .ok depth) :
    (writeOverview .plain catalog folder pages).Succeeds disk fun noted later =>
      Written catalog folder base document done later ∧
        ∃ place, noted = pages.insert overviewKey place := by
  rcases exists_summary placed found with ⟨summary, summed⟩
  apply Succeeds.after (ends_ofExcept_of_ok summed)
  have known : ∀ path ∈ catalog.index.roots,
      path ∈ done ∧ ∃ info ∈ catalog.index.visits, info.path = path := by
    intro path member
    rcases mem_map.mp member with ⟨info, root, rfl⟩
    have visited := (mem_filter.mp root).1
    exact ⟨complete info visited, info, visited, rfl⟩
  apply (progress.succeeds_readSummaries placed known).bind
  rintro found _ ⟨rfl, _⟩
  apply Succeeds.bind (succeeds_mapM (fun _ => ()) (fun _ => ()) fun item _ => ?_)
  · rintro roots _ ⟨rfl, _⟩
    have isBelow : Path.IsBelow folder (Path.below folder "README.md") ["README.md"] :=
      (Path.isBelow_self progress.written.free.filled).concat (by decide)
    apply (progress.written.succeeds_savePage placed (by simp [Catalog.places])
      (fun info _ _ => by simp [pageAt]) isBelow _).bind
    intro _ later written
    exact succeeds_pure ⟨written, _, rfl⟩
  · rcases item with ⟨path, summary, page⟩
    rcases exists_linkBetween disk (Path.below folder "README.md") page with ⟨link, linked⟩
    apply Succeeds.after linked
    exact succeeds_pure ⟨rfl, rfl⟩

theorem Written.succeeds_writeIndex
    (written : Written catalog folder base document done disk)
    (visited : ∀ path ∈ done, ∃ info ∈ catalog.index.visits, info.path = path)
    (noted : ∀ path ∈ pages.keys, path = overviewKey ∨ path ∈ done) :
    (writeIndex .plain catalog folder pages).Succeeds disk fun _ later =>
      Written catalog folder base document done later := by
  apply Succeeds.bind (succeeds_mapM (fun _ => ()) (fun _ => ()) fun path member => ?_)
  · rintro rows _ ⟨rfl, _⟩
    have isBelow : Path.IsBelow folder (Path.below folder "INDEX.md") ["INDEX.md"] :=
      (Path.isBelow_self written.free.filled).concat (by decide)
    exact written.succeeds_savePage placed (by simp [Catalog.places])
      (fun info _ _ => by simp [pageAt]) isBelow _
  · rcases mem_filter.mp member with ⟨among, shown⟩
    have present : path ∈ pages.keys := Graph.mem_sorted.mp among
    have inDone : path ∈ done := by
      rcases noted path present with rfl | inside
      · exact absurd shown (by decide)
      · exact inside
    rcases visited path inDone with ⟨info, inVisits, rfl⟩
    rcases exists_linkBetween disk (Path.below folder "INDEX.md") (pages.getD info.path "") with
      ⟨link, linked⟩
    apply Succeeds.after (ends_findModule sound placed inVisits)
    apply Succeeds.after linked
    exact succeeds_pure ⟨rfl, rfl⟩

end Run

/-- What the page of a module has to be, by its level. -/
def PageByLevel (catalog : Catalog) (depth : Nat) (info : ModuleInfo) (text : String) : Prop :=
  if info.level = depth then IsComponentPage catalog info text else IsParentPage info text

section Generation

variable {catalog : Catalog} {folder : String} {base : List String} {depth : Nat} {disk : Disk}

/-- A module above the deepest level comes after its children, which are one level deeper. -/
theorem exists_after_children (children : HasChildren catalog.index.visits)
    (names : (catalog.index.visits.map (·.path)).Nodup) (found : catalog.index.depth = .ok depth)
    {before after : List String} {path : String}
    (order : (catalog.index.bottomUp depth).map (·.path) =
      (catalog.index.atLevel depth ++ before) ++ path :: after) :
    ∃ info ∈ catalog.index.visits, info.path = path ∧
      (∀ children, info.children = .object children → ∀ pair ∈ children,
        pair.1 ∈ catalog.index.atLevel depth ++ before ∧
          ∃ child ∈ catalog.index.visits, child.path = pair.1) ∧
      ∀ text, IsParentPage info text → PageByLevel catalog depth info text := by
  have member : path ∈ (catalog.index.bottomUp depth).map (·.path) := by
    rw [order]
    exact mem_append_right _ mem_cons_self
  rcases mem_map.mp member with ⟨info, inOrder, rfl⟩
  have visited := (ModuleIndex.mem_bottomUp_iff names found info).mp inOrder
  refine ⟨info, visited, rfl, ?_, fun text page => ?_⟩
  · intro given isObject pair among
    rcases children info visited given isObject pair among with ⟨child, present, same, deeper⟩
    have lower : info.level < child.level := by omega
    rw [← same]
    exact ⟨ModuleIndex.mem_before_of_level_lt names found order visited present lower,
      child, present, rfl⟩
  · have higher : info.level ≠ depth := by
      intro level
      have inDeepest := (ModuleIndex.mem_atLevel_iff names).mpr ⟨info, visited, level, rfl⟩
      have distinct := ModuleIndex.nodup_bottomUp names found
      rw [order] at distinct
      exact (nodup_append.mp distinct).2.2 info.path (mem_append_left _ inDeepest) info.path
        mem_cons_self rfl
    rwa [PageByLevel, if_neg higher]

theorem succeeds_writeModules (sound : catalog.Sound) (children : HasChildren catalog.index.visits)
    (placed : catalog.Placed) (named : catalog.HasNames)
    (found : catalog.index.depth = .ok depth) {levels : List (List String)}
    (listed : catalog.index.levels = .ok levels)
    (start : Progress catalog folder base (PageByLevel catalog depth) [] .empty disk) :
    (writeModules .plain catalog folder levels).Succeeds disk fun pages later =>
      Progress catalog folder base (PageByLevel catalog depth)
        ((catalog.index.bottomUp depth).map (·.path)) pages later := by
  have names := placed.names
  rcases ModuleIndex.exists_levels names found with ⟨above, same, order⟩
  cases listed.symm.trans same
  have distinct := ModuleIndex.nodup_bottomUp names found
  rw [order] at distinct
  have deepest : ∀ path ∈ catalog.index.atLevel depth, ∃ info ∈ catalog.index.visits,
      info.path = path ∧
        ∀ text, IsComponentPage catalog info text → PageByLevel catalog depth info text := by
    intro path member
    rcases (ModuleIndex.mem_atLevel_iff names).mp member with ⟨info, visited, level, samePath⟩
    refine ⟨info, visited, samePath, fun text page => ?_⟩
    rwa [PageByLevel, if_pos level]
  unfold writeModules
  dsimp only [announce]
  apply Succeeds.printed
  apply (start.succeeds_writeDeepest sound placed named (nodup_append.mp distinct).1 deepest).bind
  intro pages later progress
  rw [order]
  cases above with
  | nil =>
    apply succeeds_pure
    rwa [flatten_nil, append_nil]
  | cons next rest =>
    apply Succeeds.printed
    apply progress.succeeds_writeAbove sound placed distinct
    intro before path after split
    apply exists_after_children children names found
    rw [order, split, append_assoc]

/-- The whole run succeeds, and each module has the page that its level asks for. -/
theorem succeeds_generate (sound : catalog.Sound) (children : HasChildren catalog.index.visits)
    (placed : catalog.Placed) (named : catalog.HasNames) (found : catalog.index.depth = .ok depth)
    (free : disk.LinkFree folder base)
    (isOpen : ∀ place ∈ catalog.places, Disk.IsOpen disk.root base place) :
    (generate .plain catalog folder).Succeeds disk fun _ later =>
      Written catalog folder base (PageByLevel catalog depth)
        ((catalog.index.bottomUp depth).map (·.path)) later := by
  have plain : (Edition.plain == Edition.illustrated) = false := by decide
  have start : Progress catalog folder base (PageByLevel catalog depth) [] .empty disk :=
    ⟨⟨free, isOpen, fun _ _ absent => absurd absent not_mem_nil⟩, rfl⟩
  have complete : ∀ info ∈ catalog.index.visits,
      info.path ∈ (catalog.index.bottomUp depth).map (·.path) := fun info visited =>
    mem_map_of_mem ((ModuleIndex.mem_bottomUp_iff placed.names found info).mpr visited)
  have visited : ∀ path ∈ (catalog.index.bottomUp depth).map (·.path),
      ∃ info ∈ catalog.index.visits, info.path = path := by
    intro path member
    rcases mem_map.mp member with ⟨info, inside, rfl⟩
    exact ⟨info, (ModuleIndex.mem_bottomUp_iff placed.names found info).mp inside, rfl⟩
  rcases exists_summary placed found with ⟨summary, summed⟩
  rcases ModuleIndex.exists_levels placed.names found with ⟨above, listed, _⟩
  unfold generate
  simp only [plain, Bool.false_eq_true, if_false, announce]
  iterate 2 apply Succeeds.printed
  apply Succeeds.after (ends_ofExcept_of_ok summed)
  iterate 4 apply Succeeds.printed
  apply Succeeds.after (ends_ofExcept_of_ok listed)
  apply Succeeds.printed
  apply (succeeds_writeModules sound children placed named found listed start).bind
  intro pages later progress
  unfold writeClosing
  simp only [plain, Bool.false_eq_true, if_false, announce]
  apply Succeeds.printed
  apply (progress.succeeds_writeOverview placed complete found).bind
  rintro noted last ⟨written, place, rfl⟩
  iterate 2 apply Succeeds.printed
  have keys : ∀ path ∈ (pages.insert overviewKey place).keys,
      path = overviewKey ∨ path ∈ (catalog.index.bottomUp depth).map (·.path) := by
    intro path member
    rw [mem_keys_insert, OrderedMap.keys, progress.noted, map_map] at member
    simpa [Function.comp_def] using member
  apply (written.succeeds_writeIndex sound placed visited keys).bind
  intro _ final reached
  iterate 5 apply Succeeds.printed
  exact succeeds_pure reached

theorem level_ne_depth (children : HasChildren catalog.index.visits) (placed : catalog.Placed)
    (found : catalog.index.depth = .ok depth) (visited : info ∈ catalog.index.visits)
    (above : info.childNames ≠ .ok []) :
    info.level ≠ depth := by
  rcases placed.nested info visited with ⟨given, isObject⟩
  rw [ModuleInfo.childNames, isObject] at above
  cases given with
  | nil => exact absurd rfl above
  | cons pair rest =>
    rcases children info visited _ isObject pair mem_cons_self with ⟨child, present, _, deeper⟩
    have bound := (ModuleIndex.depth_spec placed.names found).2 child present
    omega

end Generation

/-- What the page of a module should be, by its children. -/
structure PageByChildren (catalog : Catalog) (info : ModuleInfo) (text : String) : Prop where
  leaf : info.childNames = .ok [] → IsComponentPage catalog info text
  parent : info.childNames ≠ .ok [] → IsParentPage info text

/-- A run on the catalog of a tree with modules and of a graph whose components have texts as names,
in a folder in which all pages can be written, ends well and gives every module a page: one with its
components on the deepest level, one with its children on the levels above. So a module has the page
that its children ask for if and only if all modules without children are on the deepest level. -/
theorem generate_page_by_level {tree graph : Json} {catalog : Catalog} {folder : String}
    {base : List String} {workspace : Workspace} (made : Catalog.ofJson tree graph = .ok catalog)
    (filled : catalog.index.visits ≠ []) (placed : catalog.Placed) (named : catalog.HasNames)
    (free : workspace.disk.LinkFree folder base)
    (isOpen : ∀ place ∈ catalog.places, Disk.IsOpen workspace.disk.root base place) :
    ∃ depth pages later, catalog.index.depth = .ok depth ∧
      (generate .plain catalog folder).start workspace = (.ok pages, later) ∧
      (∀ info ∈ catalog.index.visits, ∃ text,
        later.disk.get? (pagePath folder info.path) = some (.file text) ∧
          PageByLevel catalog depth info text) ∧
      ((∀ info ∈ catalog.index.visits, ∃ text,
          later.disk.get? (pagePath folder info.path) = some (.file text) ∧
            PageByChildren catalog info text) ↔
        ∀ info ∈ catalog.index.visits, info.childNames = .ok [] → info.level = depth) := by
  have children := hasChildren_of_ofJson made
  rcases ModuleIndex.exists_depth placed.names filled with ⟨depth, found⟩
  rcases succeeds_generate (Catalog.ofJson_spec made).2 children placed named found free isOpen with
    ⟨pages, disk, ends, written⟩
  rcases ends.exists_start with ⟨later, ran, rfl⟩
  have byLevel : ∀ info ∈ catalog.index.visits, ∃ text,
      later.disk.get? (pagePath folder info.path) = some (.file text) ∧
        PageByLevel catalog depth info text := by
    intro info visited
    have inOrder := (ModuleIndex.mem_bottomUp_iff placed.names found info).mpr visited
    exact written.get?_page placed visited (List.mem_map_of_mem inOrder)
  refine ⟨depth, pages, later, found, ran, byLevel, ?_⟩
  constructor
  · intro byChildren info visited childless
    rcases byLevel info visited with ⟨text, there, level⟩
    rcases byChildren info visited with ⟨other, same, page⟩
    cases there.symm.trans same
    by_contra higher
    rw [PageByLevel, if_neg higher] at level
    exact (page.leaf childless).not_isParentPage level
  · intro deepest info visited
    rcases byLevel info visited with ⟨text, there, level⟩
    refine ⟨text, there, fun childless => ?_, fun above => ?_⟩
    · rwa [PageByLevel, if_pos (deepest info visited childless)] at level
    · rwa [PageByLevel, if_neg (level_ne_depth children placed found visited above)] at level

/-- A workspace with an empty folder for a wiki. -/
def docsWorkspace : Workspace where
  disk := ⟨.directory [("docs", .directory [])], []⟩

theorem docs_linkFree : docsWorkspace.disk.LinkFree "docs" ["docs"] := by
  have resolved : docsWorkspace.disk.resolve true "docs" = .ok ["docs"] := by
    rw [Disk.resolve_eq_ok_iff]
    exact ⟨by decide, .down (fun _ => ⟨_, rfl⟩) (by decide) (fun _ found => by cases found) .arrived⟩
  exact Disk.linkFree_of_isUnlinked ⟨by decide, _, rfl⟩ resolved rfl rfl

theorem docs_isOpen (filled : place ≠ []) :
    Disk.IsOpen docsWorkspace.disk.root ["docs"] place := by
  constructor
  · intro upper _ _
    cases upper with
    | nil => exact .inr rfl
    | cons name upper => exact .inl rfl
  · cases place with
    | nil => exact absurd rfl filled
    | cons name place => intro found; cases found

theorem core_placed : Catalog.coreCatalog.Placed := by
  refine ⟨?_, by decide, by decide, by decide⟩
  intro info visited
  simp only [Catalog.coreCatalog, Catalog.coreIndex, mem_cons, not_mem_nil, or_false] at visited
  rcases visited with rfl | rfl
  · exact ⟨_, rfl⟩
  · exact ⟨_, rfl⟩

theorem core_page_by_level :
    Catalog.ofJson Catalog.coreTree Catalog.coreGraph = .ok Catalog.coreCatalog ∧
      Catalog.coreCatalog.index.visits ≠ [] ∧ Catalog.coreCatalog.Placed ∧
      Catalog.coreCatalog.HasNames ∧
      docsWorkspace.disk.LinkFree "docs" ["docs"] ∧
      (∀ place ∈ Catalog.coreCatalog.places, Disk.IsOpen docsWorkspace.disk.root ["docs"] place) ∧
      ∃ pages later,
        (generate .plain Catalog.coreCatalog "docs").start docsWorkspace = (.ok pages, later) ∧
        ∀ info ∈ [Catalog.coreModule, Catalog.uiModule], ∃ text,
          later.disk.get? (pagePath "docs" info.path) = some (.file text) ∧
            PageByChildren Catalog.coreCatalog info text := by
  have made : Catalog.ofJson Catalog.coreTree Catalog.coreGraph = .ok Catalog.coreCatalog := by rfl
  have isOpen : ∀ place ∈ Catalog.coreCatalog.places,
      Disk.IsOpen docsWorkspace.disk.root ["docs"] place := fun place member =>
    docs_isOpen (Catalog.ne_nil_of_mem_places member)
  have named : Catalog.coreCatalog.HasNames := by decide +kernel
  rcases generate_page_by_level made (List.cons_ne_nil _ _) core_placed named docs_linkFree isOpen
    with ⟨depth, pages, later, found, ran, _, balanced⟩
  have depthOne : depth = 1 := (Except.ok.inj (found.symm.trans rfl))
  subst depthOne
  refine ⟨made, List.cons_ne_nil _ _, core_placed, named, docs_linkFree, isOpen, pages, later, ran, ?_⟩
  apply balanced.mpr
  intro info visited childless
  rcases List.mem_pair.mp visited with rfl | rfl
  · cases childless
  · rfl

/-- A module with a component beside a module with a child. -/
def unevenTree : Json :=
  .object [("a", .object [("components", .ofStrings ["a.f"]), ("children", .object [])]),
    ("b", .object [("components", .list []), ("children",
      .object [("c", .object [("components", .list []), ("children", .object [])])])])]

def unevenGraph : Json :=
  .object [("a.f", .object [("name", .text "f"), ("relative_path", .text "a.py")])]

def loneModule : ModuleInfo := ⟨"a", .ofStrings ["a.f"], .object [], none, true, 0⟩

def unevenIndex : ModuleIndex :=
  ⟨[loneModule,
    ⟨"b", .list [], .object [("c", .object [("components", .list []), ("children", .object [])])],
      none, false, 0⟩,
    ⟨"c", .list [], .object [], some "b", true, 1⟩]⟩

def unevenCatalog : Catalog :=
  ⟨unevenIndex, unevenIndex.modules, unevenIndex.owners,
    .ofList [("a.f", ⟨"a.f", [("name", .text "f"), ("relative_path", .text "a.py")]⟩)]⟩

theorem uneven_placed : unevenCatalog.Placed := by
  refine ⟨?_, by decide, by decide, by decide⟩
  intro info visited
  simp only [unevenCatalog, unevenIndex, mem_cons, not_mem_nil, or_false] at visited
  rcases visited with rfl | rfl | rfl
  · exact ⟨_, rfl⟩
  · exact ⟨_, rfl⟩
  · exact ⟨_, rfl⟩

/-- A module without children beside one with a child: its page says that it is a parent module, and
its component is nowhere described. -/
theorem lone_page_is_parent_page :
    Catalog.ofJson unevenTree unevenGraph = .ok unevenCatalog ∧
      loneModule ∈ unevenCatalog.index.visits ∧ loneModule.childNames = .ok [] ∧
      ∃ pages later text,
        (generate .plain unevenCatalog "docs").start docsWorkspace = (.ok pages, later) ∧
        later.disk.get? "docs/modules/a/README.md" = some (.file text) ∧
        IsParentPage loneModule text ∧ ¬ IsComponentPage unevenCatalog loneModule text := by
  have made : Catalog.ofJson unevenTree unevenGraph = .ok unevenCatalog := by rfl
  have found : unevenCatalog.index.depth = .ok 1 := by rfl
  have visited : loneModule ∈ unevenCatalog.index.visits := List.mem_cons_self
  refine ⟨made, visited, rfl, ?_⟩
  rcases succeeds_generate (Catalog.ofJson_spec made).2 (hasChildren_of_ofJson made) uneven_placed
    (by decide +kernel) found docs_linkFree
    (fun _ member => docs_isOpen (Catalog.ne_nil_of_mem_places member)) with
    ⟨pages, disk, ends, written⟩
  rcases ends.exists_start with ⟨later, ran, rfl⟩
  have inOrder := (ModuleIndex.mem_bottomUp_iff uneven_placed.names found loneModule).mpr visited
  rcases written.get?_page uneven_placed visited (List.mem_map_of_mem inOrder) with
    ⟨text, there, page⟩
  have path : pagePath "docs" loneModule.path = "docs/modules/a/README.md" := by decide +kernel
  rw [path] at there
  exact ⟨pages, later, text, ran, there, page, fun other => other.not_isParentPage page⟩

end CodeAtlas.Wiki
