import CodeAtlas.Proofs.Wiki.Pages
import CodeAtlas.Repository.ModuleFiles
import CodeAtlas.Wiki.Illustration

/-!
The two ways in which a tree of modules is read. For the catalog the modules are the members of an
object, level by level, and this is the form in which an analysis writes its tree. The diagram tool
looks for a list under the name `children` instead. So in a tree that suits the catalog it finds no
module, or it fails at a module that happens to have that name. Main statement: both find equally
many modules in the empty tree only.
-/

namespace CodeAtlas.Wiki

/-! ## What the catalog finds -/

theorem ModuleIndex.exists_members {tree : Json} {index : ModuleIndex}
    (read : ModuleIndex.ofJson tree = .ok index) :
    ∃ members, tree = .object members ∧ index.roots = members.map Prod.fst ∧
      ∀ pair ∈ members, ∃ inner, pair.2 = .object inner := by
  rcases exists_listing read with ⟨members, rfl, listing⟩
  exact ⟨members, rfl, listing.roots rfl, listing.isObject⟩

/-! ## What the diagram tool finds -/

/-- A tree with a module that has the name under which the diagram tool looks for a list, and that
is not quite empty. -/
def NamesChildren (tree : Json) : Prop :=
  ∃ member rest, tree.member? "children" = some (.object (member :: rest))

/-- In an object of objects there is no list of modules to go through. -/
theorem TreeIndex.ofJson_of_objects {members : Json.Members}
    (objects : ∀ pair ∈ members, ∃ inner, pair.2 = .object inner) :
    ofJson (.object members) = .ok .empty ∧ ¬ NamesChildren (.object members) ∨
      ofJson (.object members) = .error .wrongKind ∧ NamesChildren (.object members) := by
  have opened : ofJson (.object members) =
      ((members.lookup "children").getD (.list [])).items >>= visitRoots empty := rfl
  cases found : members.lookup "children" with
  | none =>
    rw [opened, found]
    refine .inl ⟨rfl, ?_⟩
    rintro ⟨member, rest, named⟩
    cases found.symm.trans named
  | some value =>
    rcases List.lookup_eq_some_iff.mp found with ⟨before, after, rfl, _⟩
    rcases objects ("children", value)
      (List.mem_append_right before List.mem_cons_self) with ⟨inner, rfl⟩
    rw [opened, found]
    cases inner with
    | nil =>
      refine .inl ⟨rfl, ?_⟩
      rintro ⟨member, rest, named⟩
      cases found.symm.trans named
    | cons member rest => exact .inr ⟨rfl, member, rest, found⟩

/-! ## Agreement -/

/-- Two readings of a tree find equally many modules and equally many without a parent. -/
def SameCounts (index : ModuleIndex) (drawn : TreeIndex) : Prop :=
  drawn.modules.size = index.modules.size ∧ drawn.roots.length = index.roots.length

/-- A tree that suits the catalog holds nothing for the diagram tool, so both agree on it only if
the tree is empty. -/
theorem agree_iff_eq_empty {tree : Json} {index : ModuleIndex}
    (read : ModuleIndex.ofJson tree = .ok index) :
    (∃ drawn, TreeIndex.ofJson tree = .ok drawn ∧ SameCounts index drawn) ↔ tree = .object [] := by
  constructor
  · rintro ⟨drawn, made, _, sameRoots⟩
    rcases ModuleIndex.exists_members read with ⟨members, rfl, roots, objects⟩
    rcases TreeIndex.ofJson_of_objects objects with ⟨empty, _⟩ | ⟨failed, _⟩
    · cases empty.symm.trans made
      rw [roots, List.length_map] at sameRoots
      rw [List.length_eq_zero_iff.mp sameRoots.symm]
    · cases failed.symm.trans made
  · rintro rfl
    cases read
    exact ⟨.empty, rfl, rfl, rfl⟩

/-- In a tree that the catalog reads, its roots are the members of the tree, whereas the diagram
tool finds nothing, or fails where a member is called `children` and not empty. Both find equally
many modules and roots only if there is none. -/
theorem tree_readers_agree_iff_empty (tree : Json) (index : ModuleIndex)
    (read : ModuleIndex.ofJson tree = .ok index) :
    (∃ members, tree = .object members ∧ index.roots = members.map Prod.fst) ∧
      (TreeIndex.ofJson tree = .ok .empty ∧ ¬ NamesChildren tree ∨
        TreeIndex.ofJson tree = .error .wrongKind ∧ NamesChildren tree) ∧
      ((∃ drawn, TreeIndex.ofJson tree = .ok drawn ∧ SameCounts index drawn) ↔
        tree = .object []) := by
  rcases ModuleIndex.exists_members read with ⟨members, rfl, roots, objects⟩
  exact ⟨⟨members, rfl, roots⟩, TreeIndex.ofJson_of_objects objects, agree_iff_eq_empty read⟩

/-- A tree of a module with a child, in which the diagram tool finds neither. -/
theorem core_tree_not_drawn :
    ModuleIndex.ofJson Catalog.coreTree = .ok Catalog.coreIndex ∧
      (Catalog.coreIndex.visits.map (·.path)).Nodup ∧
      Catalog.coreIndex.modules.size = 2 ∧ Catalog.coreIndex.roots.length = 1 ∧
      ∃ drawn, TreeIndex.ofJson Catalog.coreTree = .ok drawn ∧
        drawn.modules.size = 0 ∧ drawn.roots.length = 0 :=
  ⟨rfl, by decide, by decide, by decide, .empty, rfl, rfl, rfl⟩

/-- A tree of a module that has the name of the list. -/
def childrenTree : Json :=
  .object [("children", .object [("components", .ofStrings ["children.a"])])]

def childrenIndex : ModuleIndex :=
  ⟨[⟨"children", .ofStrings ["children.a"], .object [], none, true, 0⟩]⟩

theorem childrenTree_fails :
    ModuleIndex.ofJson childrenTree = .ok childrenIndex ∧
      TreeIndex.ofJson childrenTree = .error .wrongKind := by
  have read : ModuleIndex.ofJson childrenTree = .ok childrenIndex := rfl
  refine ⟨read, ?_⟩
  rcases (tree_readers_agree_iff_empty childrenTree childrenIndex read).2.1 with
    ⟨_, unnamed⟩ | ⟨failed, _⟩
  · exact absurd ⟨_, _, rfl⟩ unnamed
  · exact failed

/-! ## The tree of an analysis -/

theorem mapM_key_texts (ids : List String) :
    (ids.map Json.text).mapM Json.key = .ok (ids.map Json.text) := by
  induction ids with
  | nil => rfl
  | cons id rest induction =>
    rw [List.map_cons, List.mapM_cons, induction]
    rfl

theorem listModule_entry (name : String) (entry : ModuleEntry) :
    listModule none 0 name entry.toJson =
      .ok [⟨name, .ofStrings entry.components, .object [], none, true, 0⟩] := by
  have components : componentsOf [("components", .ofStrings entry.components),
      ("path", .text entry.path), ("children", .object [])] = .ok (.ofStrings entry.components) :=
    bind_eq_ok_iff.mpr ⟨_, rfl, bind_eq_ok_iff.mpr ⟨_, mapM_key_texts entry.components, rfl⟩⟩
  rw [ModuleEntry.toJson, listModule, moduleInfo, components]
  rfl

theorem listModules_entries (entries : List (String × ModuleEntry)) :
    listModules none 0 (entries.map fun (name, entry) => (name, entry.toJson)) =
      .ok (entries.map fun (name, entry) =>
        ⟨name, .ofStrings entry.components, .object [], none, true, 0⟩) := by
  induction entries with
  | nil => rfl
  | cons pair rest induction =>
    rw [List.map_cons, listModules, listModule_entry, induction]
    rfl

theorem written_tree_agreed_iff (components : Components) (leaves : List String) :
    ∃ index, ModuleIndex.ofJson (Repository.moduleTree components leaves) = .ok index ∧
      ((∃ drawn, TreeIndex.ofJson (Repository.moduleTree components leaves) = .ok drawn ∧
          SameCounts index drawn) ↔
        Repository.moduleTree components leaves = .object []) := by
  have listed := listModules_entries (Clustering.cluster leaves
    (components.mapValues fun _ component => component.relativePath)).entries
  have read : ModuleIndex.ofJson (Repository.moduleTree components leaves) = .ok _ :=
    bind_eq_ok_iff.mpr ⟨_, listed, rfl⟩
  exact ⟨_, read, agree_iff_eq_empty read⟩

end CodeAtlas.Wiki
