import CodeAtlas.Proofs.Wiki.Insertion
import CodeAtlas.Proofs.Wiki.Pages
import CodeAtlas.Proofs.Workspace.Settled

/-!
Diagrams are added once. A change of a page leaves the page as it is, or puts something into it by
which the page is known when it is to be changed again. No part of the diagram tool writes what an
earlier part has read. So after a run, however it ended and whatever the wiki holds, a second run
changes nothing.
-/

namespace CodeAtlas.Wiki

open Work List

variable {name : String} {index : TreeIndex} {sketch : Sketch}

/-! ## Changing a page -/

namespace Revision

section Views

variable (revision : Revision)

/-- The text of a page before the change, by what is seen at its place: a page that is missing may
have none, and some pages cannot be read. -/
def reading : Option FileTree → Option (Option String)
  | none => some revision.start
  | some tree => tree.content?.map fun text => some (Text.unifyBreaks text)

def after (view : Option FileTree) : Option FileTree :=
  match (revision.reading view).join.bind revision.change with
  | none => view
  | some page => some (.file page)

/-- A change that is made once, also in a page that begins with it. -/
structure IsSteady : Prop where
  steady : Steady revision.change
  begins : ∀ page, revision.start = some page → Text.unifyBreaks page = page

end Views

variable {revision : Revision}

theorem isSteady_ofModule (path : String) : (ofModule path).IsSteady :=
  ⟨Insertion.steady_intoModulePage? path, fun _ begun => by cases begun⟩

theorem isSteady_ofIndex : ofIndex.IsSteady :=
  ⟨Insertion.steady_intoIndex?, fun _ begun => by cases begun; decide +kernel⟩

theorem isSteady_ofOverview : ofOverview.IsSteady :=
  ⟨Insertion.steady_intoOverview?, fun _ begun => by cases begun⟩

theorem IsSteady.unifyBreaks_reading (isSteady : revision.IsSteady) {view : Option FileTree}
    {page : String} (found : revision.reading view = some (some page)) :
    Text.unifyBreaks page = page := by
  cases view with
  | none => exact isSteady.begins page (Option.some.inj found)
  | some tree =>
    rcases Option.map_eq_some_iff.mp found with ⟨text, _, same⟩
    rw [← Option.some.inj same]
    exact Text.unifyBreaks_unifyBreaks text

theorem IsSteady.after_after (isSteady : revision.IsSteady) (view : Option FileTree) :
    revision.after (revision.after view) = revision.after view ∧
      (revision.reading (revision.after view)).map Option.isSome =
        (revision.reading view).map Option.isSome := by
  cases changes : (revision.reading view).join.bind revision.change with
  | none => simp only [after, changes, and_self]
  | some changed =>
    have here : revision.after view = some (.file changed) := by rw [after, changes]
    have again : revision.reading (some (.file changed)) = some (some (Text.unifyBreaks changed)) := rfl
    rcases Option.bind_eq_some_iff.mp changes with ⟨page, joined, made⟩
    have found : revision.reading view = some (some page) := Option.join_eq_some_iff.mp joined
    rw [here, again, found]
    refine ⟨?_, rfl⟩
    rw [after, again, Option.join_some, Option.bind_some]
    rcases isSteady.steady page changed made with same | nothing
    · rw [same, isSteady.unifyBreaks_reading found, made, same]
    · rw [nothing]

section Places

variable {docs path : String} {base above : List String} {name : String} {disk : Disk}
  (free : disk.LinkFree docs base) (isBelow : Path.IsBelow docs path (above ++ [name]))
  (noUp : ∀ part ∈ above ++ [name], part ≠ "..")

include free isBelow noUp

variable (revision) in
theorem gives_read :
    (revision.read path).Gives disk
      (revision.reading (disk.root.view (base ++ (above ++ [name])))) disk := by
  apply (gives_exists? free isBelow noUp).bind
  have read := gives_readText free isBelow noUp
  cases seen : disk.root.view (base ++ (above ++ [name])) with
  | none =>
    have start : (pure revision.start : Work (Option String)).Gives disk (some revision.start) disk :=
      gives_pure revision.start
    simp only [Option.isSome_none, Bool.false_eq_true, if_false]
    cases revision.missing with
    | none => exact start
    | some text => exact (gives_printLine text).bind start
  | some tree =>
    rw [seen, Option.bind_some] at read
    simp only [Option.isSome_some, if_true, reading]
    cases content : tree.content? with
    | none =>
      rw [content] at read
      exact read.stop _
    | some text =>
      rw [content] at read
      exact read.bind (gives_pure _)

omit noUp in
theorem exists_write (begins : revision.start = none ∨ above = [] ∧ Path.IsName name) {page : String}
    (found : revision.reading (disk.root.view (base ++ (above ++ [name]))) = some (some page))
    (text : String) : ∃ later, disk.write path text = .ok later := by
  cases seen : disk.root.view (base ++ (above ++ [name])) with
  | none =>
    rw [seen] at found
    rcases begins with missing | ⟨rfl, isName⟩
    · cases missing.symm.trans (Option.some.inj found)
    · have named : ∀ part ∈ [] ++ [name], Path.IsName part := by
        intro part member
        rwa [mem_singleton.mp member]
      have inside : disk.root.view (base ++ []) = some (.directory []) := by
        rw [append_nil]
        exact free.view_base
      rw [← append_assoc] at seen
      exact ⟨_, free.write_eq isBelow named inside (by rw [seen]; simp) text⟩
  | some tree =>
    rw [seen] at found
    have plain : disk.root.view (base ++ (above ++ [name])) ≠ some (.directory []) := by
      rw [seen]
      intro same
      cases same
      cases found
    exact ⟨_, free.write_over isBelow (by simp [seen]) plain text⟩

theorem exists_gives_apply (begins : revision.start = none ∨ above = [] ∧ Path.IsName name)
    {view : Option FileTree} (seen : disk.root.view (base ++ (above ++ [name])) = view) :
    ∃ later, (revision.apply path).Gives disk ((revision.reading view).map Option.isSome) later ∧
      later.LinkFree docs base ∧ disk.SameBut base [above ++ [name]] later ∧
      later.root.view (base ++ (above ++ [name])) = revision.after view ∧
      (revision.after view = view → later = disk) := by
  have read := gives_read revision free isBelow noUp
  have same (nothing : (revision.reading view).join.bind revision.change = none) :
      revision.after view = view := by rw [after, nothing]
  rw [seen] at read
  cases found : revision.reading view with
  | none =>
    rw [found] at read same
    exact ⟨disk, read.stop _, free, fun _ _ => rfl, seen.trans (same rfl).symm, fun _ => rfl⟩
  | some page? =>
    cases page? with
    | none =>
      rw [found] at read same
      exact ⟨disk, read.bind (gives_pure false), free, fun _ _ => rfl,
        seen.trans (same rfl).symm, fun _ => rfl⟩
    | some page =>
      rw [found] at read same
      cases change : revision.change page with
      | none =>
        have write : (revision.write path page).Gives disk (some ()) disk := by
          rw [write, change]
          exact gives_printLine revision.kept
        exact ⟨disk, read.bind (write.bind (gives_pure true)), free, fun _ _ => rfl,
          seen.trans (same change).symm, fun _ => rfl⟩
      | some changed =>
        have new : revision.after view = some (.file changed) := by
          rw [after, found, Option.join_some, Option.bind_some, change]
        rcases exists_write free isBelow begins (seen ▸ found) changed with ⟨later, wrote⟩
        have views := free.view_write isBelow noUp wrote
        have write : (revision.write path page).Gives disk (some ()) later := by
          rw [write, change]
          exact Work.Gives.bind ⟨_, ends_writeText wrote, rfl⟩
            (gives_printLine revision.changed)
        refine ⟨later, read.bind (write.bind (gives_pure true)), free.write wrote, ?_, ?_, ?_⟩
        · intro place absent
          rw [views, if_neg]
          rw [append_assoc]
          exact fun equal => absent (mem_singleton.mpr (append_cancel_left equal))
        · rw [views, ← append_assoc, if_pos rfl, new]
        · intro unchanged
          rw [new] at unchanged
          have again := free.write_self isBelow (seen.trans unchanged.symm)
          exact Except.ok.inj (wrote.symm.trans again)

end Places

theorem IsSteady.exists_settles (isSteady : revision.IsSteady) {docs path : String}
    {base above : List String} {disk : Disk} (free : disk.LinkFree docs base)
    (isBelow : Path.IsBelow docs path (above ++ [name]))
    (noUp : ∀ part ∈ above ++ [name], part ≠ "..")
    (begins : revision.start = none ∨ above = [] ∧ Path.IsName name) :
    ∃ value later, Work.Settles docs base (revision.apply path) disk [above ++ [name]] value later ∧
      disk.SameBut base [above ++ [name]] later ∧
      later.root.view (base ++ (above ++ [name])) =
        revision.after (disk.root.view (base ++ (above ++ [name]))) := by
  rcases exists_gives_apply free isBelow noUp begins rfl with ⟨later, gives, laterFree, same, new, _⟩
  refine ⟨_, later, ⟨gives, laterFree, fun other otherFree alike => ?_⟩, same, new⟩
  have seen := (alike _ mem_cons_self).trans new
  rcases exists_gives_apply otherFree isBelow noUp begins seen with ⟨last, again, _, _, _, unchanged⟩
  have steady := isSteady.after_after (disk.root.view (base ++ (above ++ [name])))
  rw [unchanged steady.1, steady.2] at again
  exact again

end Revision

/-! ## Names of modules -/

/-- A value is a child in a tree of modules, or a child of one. -/
inductive IsModule : Json → Json → Prop
  | child {members : Json.Members} {children : List Json} {value : Json}
      (listed : members.lookup "children" = some (.list children)) (member : value ∈ children) :
      IsModule (.object members) value
  | deeper {members : Json.Members} {children : List Json} {child value : Json}
      (listed : members.lookup "children" = some (.list children)) (member : child ∈ children)
      (further : IsModule child value) : IsModule (.object members) value

/-- A name that leads one step down, if it leads anywhere. -/
structure IsPlain (name : String) : Prop where
  noSlash : '/' ∉ name.toList
  notHere : name ≠ "."
  notUp : name ≠ ".."

/-- All modules of a tree have plain names. -/
def PlainNames (tree : Json) : Prop :=
  ∀ members name, IsModule tree (.object members) →
    members.lookup "name" = some (.text name) → IsPlain name

/-- A path that does not lead up. -/
def LeadsDown (path : String) : Prop := ∀ part ∈ Path.parts path, part ≠ ".."

namespace TreeIndex

theorem leadsDown_pathBelow {above : String} (down : LeadsDown above) (plain : IsPlain name) :
    LeadsDown (pathBelow above name) := by
  have last : LeadsDown name := by
    intro part member
    have inside := (Path.mem_parts_iff.mp member).1
    rw [Text.split_of_free plain.noSlash, mem_singleton] at inside
    rw [inside]
    exact plain.notUp
  rw [pathBelow]
  split
  · exact last
  · intro part member
    rw [Path.parts_append, mem_append] at member
    rcases member with inAbove | inName
    · exact down part inAbove
    · exact last part inName

/-- All modules that are entered lead down. -/
def AllDown (index : TreeIndex) : Prop := ∀ path ∈ index.modules.keys, LeadsDown path

theorem AllDown.enter {path : String} (allDown : index.AllDown) (down : LeadsDown path)
    (parent : Option String) : (index.enter path parent).AllDown := by
  intro other member
  rcases (OrderedMap.mem_keys_insert _ _ _ _).mp member with rfl | before
  · exact down
  · exact allDown other before

theorem AllDown.addChild (allDown : index.AllDown) (path child : String) :
    (index.addChild path child).AllDown := by
  intro other member
  rw [TreeIndex.addChild, OrderedMap.keys_modify] at member
  exact allDown other member

/-- A module with a plain name, and all modules below it have plain names. -/
structure IsPlainModule (value : Json) : Prop where
  own : ∀ members name, value = .object members → members.lookup "name" = some (.text name) →
    IsPlain name
  below : PlainNames value

theorem isPlainModule_of_mem {members : Json.Members} {children : List Json} {child : Json}
    (plain : PlainNames (.object members))
    (listed : members.lookup "children" = some (.list children)) (member : child ∈ children) :
    IsPlainModule child := by
  constructor
  · rintro inner name rfl named
    exact plain inner name (.child listed member) named
  · intro inner name further named
    exact plain inner name (.deeper listed member further) named

mutual

theorem allDown_visit (above : String) (parent : Option String) (index : TreeIndex) :
    (value : Json) → ∀ visited path, visit above parent index value = .ok (visited, path) →
      IsPlainModule value → LeadsDown above → index.AllDown → LeadsDown path ∧ visited.AllDown
  | .object members, visited, path, run, plain, down, allDown => by
    rw [visit] at run
    rcases bind_eq_ok_iff.mp run with ⟨value, needed, run⟩
    rcases bind_eq_ok_iff.mp run with ⟨name, isText, run⟩
    rcases bind_eq_ok_iff.mp run with ⟨_, entered, whole⟩
    cases whole
    have named : members.lookup "name" = some (.text name) := by
      cases found : members.lookup "name" with
      | none =>
        simp only [Json.need, found] at needed
        cases needed
      | some given =>
        simp only [Json.need, found] at needed
        cases needed
        cases value with
        | text written =>
          cases isText
          rfl
        | _ => cases isText
    have here := leadsDown_pathBelow down (plain.own members name rfl named)
    refine ⟨here, ?_⟩
    apply allDown_visitMembers _ _ members visited entered here (allDown.enter here parent)
    exact fun children listed child member => isPlainModule_of_mem plain.below listed member
  | .null, _, _, run, _, _, _ => by cases run
  | .bool _, _, _, run, _, _, _ => by cases run
  | .int _, _, _, run, _, _, _ => by cases run
  | .float _, _, _, run, _, _, _ => by cases run
  | .text _, _, _, run, _, _, _ => by cases run
  | .list _, _, _, run, _, _, _ => by cases run

theorem allDown_visitMembers (path : String) (index : TreeIndex) :
    (members : List (String × Json)) → ∀ visited, visitMembers path index members = .ok visited →
      LeadsDown path → index.AllDown →
      (∀ children, members.lookup "children" = some (.list children) →
        ∀ child ∈ children, IsPlainModule child) → visited.AllDown
  | [], visited, run, _, allDown, _ => by
    cases run
    exact allDown
  | (name, value) :: rest, visited, run, down, allDown, plain => by
    by_cases same : name = "children"
    · subst same
      cases value with
      | list children =>
        rw [visitMembers] at run
        exact allDown_visitChildren path index children visited run down allDown
          (plain children lookup_cons_self)
      | object children =>
        rw [visitMembers] at run
        split at run
        · cases run
          exact allDown
        · cases run
      | text written =>
        by_cases empty : written = ""
        · subst empty
          cases run
          exact allDown
        · rw [visitMembers] at run
          · cases run
          all_goals simp [empty]
      | _ => cases run
    · rw [visitMembers] at run
      · apply allDown_visitMembers path index rest visited run down allDown
        intro children found
        apply plain children
        rwa [OrderedMap.lookup_cons_of_ne (Ne.symm same)]
      all_goals simp [same]

theorem allDown_visitChildren (path : String) (index : TreeIndex) :
    (children : List Json) → ∀ visited, visitChildren path index children = .ok visited →
      LeadsDown path → index.AllDown → (∀ child ∈ children, IsPlainModule child) → visited.AllDown
  | [], visited, run, _, allDown, _ => by
    cases run
    exact allDown
  | child :: rest, visited, run, down, allDown, plain => by
    rw [visitChildren] at run
    rcases bind_eq_ok_iff.mp run with ⟨⟨between, childPath⟩, first, run⟩
    have entered := allDown_visit path (some path) index child between childPath first
      (plain child mem_cons_self) down allDown
    exact allDown_visitChildren path _ rest visited run down (entered.2.addChild path childPath)
      fun other member => plain other (mem_cons_of_mem child member)

end

theorem allDown_visitRoots {visited : TreeIndex} {roots : List Json}
    (run : visitRoots index roots = .ok visited) (allDown : index.AllDown)
    (plain : ∀ root ∈ roots, IsPlainModule root) : visited.AllDown := by
  induction roots generalizing index with
  | nil =>
    cases run
    exact allDown
  | cons root rest induction =>
    rw [visitRoots] at run
    rcases bind_eq_ok_iff.mp run with ⟨⟨between, path⟩, first, run⟩
    have top : LeadsDown "" := by
      intro part member
      rw [Path.parts_empty] at member
      exact absurd member not_mem_nil
    have entered := allDown_visit "" none index root between path first
      (plain root mem_cons_self) top allDown
    exact induction run entered.2 fun other member => plain other (mem_cons_of_mem root member)

theorem isPlainModule_text (written : String) : IsPlainModule (.text written) := by
  constructor
  · intro _ _ same
    cases same
  · intro _ _ isModule
    cases isModule

theorem allDown_ofJson {tree : Json} (plain : PlainNames tree) (made : ofJson tree = .ok index) :
    index.AllDown := by
  rcases bind_eq_ok_iff.mp made with ⟨children, given, made⟩
  rcases bind_eq_ok_iff.mp made with ⟨roots, listed, run⟩
  apply allDown_visitRoots run (forall_mem_nil _)
  cases tree with
  | object members =>
    cases Except.ok.inj given
    intro root member
    cases found : members.lookup "children" with
    | none =>
      rw [found] at listed
      cases listed
      exact absurd member not_mem_nil
    | some value =>
      rw [found, Option.getD_some] at listed
      cases value with
      | list items =>
        cases listed
        exact isPlainModule_of_mem plain found member
      | object inner =>
        cases listed
        rcases mem_map.mp member with ⟨pair, _, rfl⟩
        exact isPlainModule_text pair.1
      | text written =>
        cases listed
        rcases mem_map.mp member with ⟨char, _, rfl⟩
        exact isPlainModule_text _
      | _ => cases listed
  | _ => cases given

end TreeIndex

/-! ## Pages of modules -/

/-- No diagram goes into a page. -/
def IsFull (view : Option FileTree) : Prop := ∀ path, (Revision.ofModule path).after view = view

theorem change_ofModule (path : String) :
    (Revision.ofModule path).change = Insertion.intoModulePage? (Figure.loneModule path) :=
  rfl

theorem reading_ofModule (path other : String) (view : Option FileTree) :
    (Revision.ofModule other).reading view = (Revision.ofModule path).reading view := by
  cases view with
  | none => simp only [Revision.reading, Revision.ofModule]
  | some tree => simp only [Revision.reading]

theorem isFull_after (path : String) (view : Option FileTree) :
    IsFull ((Revision.ofModule path).after view) := by
  intro other
  cases changes : ((Revision.ofModule path).reading view).join.bind (Revision.ofModule path).change with
  | none =>
    have same : (Revision.ofModule path).after view = view := by rw [Revision.after, changes]
    have nothing : ((Revision.ofModule other).reading view).join.bind
        (Revision.ofModule other).change = none := by
      rw [reading_ofModule path other]
      cases found : ((Revision.ofModule path).reading view).join with
      | none => rfl
      | some page =>
        rw [found, Option.bind_some, change_ofModule] at changes
        rw [Option.bind_some, change_ofModule]
        exact Insertion.intoModulePage?_eq_none_of changes _
    rw [same, Revision.after, nothing]
  | some changed =>
    have here : (Revision.ofModule path).after view = some (.file changed) := by
      rw [Revision.after, changes]
    rcases Option.bind_eq_some_iff.mp changes with ⟨page, _, made⟩
    rw [change_ofModule] at made
    have known := Text.contains_unifyBreaks (by decide) (by decide)
      (Insertion.contains_of_intoModulePage? made)
    have again : (Revision.ofModule other).reading (some (.file changed)) =
        some (some (Text.unifyBreaks changed)) := by rw [Revision.reading]; rfl
    rw [here, Revision.after, again, Option.join_some, Option.bind_some, change_ofModule,
      Insertion.intoModulePage?_of_contains _ known]

section Run

variable {docs : String} {base : List String}

/-- The page of a module comes to rest, with all diagrams that go into it. -/
theorem exists_settles_page {path : String} (down : LeadsDown path) {disk : Disk}
    (free : disk.LinkFree docs base) :
    ∃ value later, Work.Settles docs base
        ((Revision.ofModule path).apply (pagePath docs path)) disk [pageAt path] value later ∧
      disk.SameBut base [pageAt path] later ∧ IsFull (later.root.view (base ++ pageAt path)) ∧
      ∀ place, IsFull (disk.root.view (base ++ place)) →
        later.root.view (base ++ place) = disk.root.view (base ++ place) := by
  have noUp : ∀ part ∈ ("modules" :: Path.parts path) ++ ["README.md"], part ≠ ".." := by
    intro part member
    simp only [cons_append, mem_cons, mem_append, not_mem_nil, or_false] at member
    rcases member with rfl | inPath | rfl
    · decide
    · exact down part inPath
    · decide
  rcases (Revision.isSteady_ofModule path).exists_settles free (isBelow_pagePath free.filled path)
    noUp (.inl rfl) with ⟨value, later, settles, same, new⟩
  refine ⟨value, later, settles, same, ?_, fun place full => ?_⟩
  · rw [show later.root.view (base ++ pageAt path) = _ from new]
    exact isFull_after path _
  · by_cases here : place = pageAt path
    · rw [here] at full ⊢
      exact new.trans (full path)
    · exact same place fun member => here (mem_singleton.mp member)

/-- The pages of some modules come to rest. Two modules may share a page, but it is changed once. -/
theorem exists_settles_pages (paths : List String) (down : ∀ path ∈ paths, LeadsDown path)
    {disk : Disk} (free : disk.LinkFree docs base) :
    ∃ value later, Work.Settles docs base
        (paths.mapM fun path => (Revision.ofModule path).apply (pagePath docs path)) disk
        (paths.map pageAt) value later ∧
      disk.SameBut base (paths.map pageAt) later ∧
      ∀ place, IsFull (disk.root.view (base ++ place)) →
        later.root.view (base ++ place) = disk.root.view (base ++ place) := by
  induction paths generalizing disk with
  | nil =>
    refine ⟨some [], disk, ⟨gives_pure [], free, fun other _ _ => gives_pure []⟩, ?_, ?_⟩
    · exact fun _ _ => rfl
    · exact fun _ _ => rfl
  | cons path rest induction =>
    rcases exists_settles_page (down path mem_cons_self) free with
      ⟨value, middle, first, same, full, kept⟩
    rw [mapM_cons, map_cons]
    cases value with
    | none =>
      refine ⟨none, middle, (first.stop _).mono ?_, ?_, kept⟩
      · exact cons_subset_cons _ (nil_subset _)
      · exact fun place absent => same place fun member =>
          absent (mem_cons.mpr (.inl (mem_singleton.mp member)))
    | some found =>
      rcases induction (fun other member => down other (mem_cons_of_mem path member))
        first.free with ⟨result, later, further, sameLater, keptLater⟩
      have closing : ∃ value, Work.Settles docs base (do
          let others ← rest.mapM fun path => (Revision.ofModule path).apply (pagePath docs path)
          return found :: others) middle (rest.map pageAt) value later := by
        cases result with
        | none => exact ⟨none, further.stop _⟩
        | some others => exact ⟨_, further.silent fun _ => gives_pure (found :: others)⟩
      rcases closing with ⟨value, closing⟩
      have untouched : middle.SameAt base [pageAt path] later := by
        intro place member
        rw [mem_singleton.mp member]
        exact keptLater _ full
      refine ⟨value, later, first.bind closing untouched, ?_, ?_⟩
      · intro place absent
        rw [mem_cons, not_or] at absent
        rw [sameLater place absent.2]
        exact same place fun member => absent.1 (mem_singleton.mp member)
      · intro place isFull
        rw [keptLater place (kept place isFull ▸ isFull), kept place isFull]

/-! ## The tool -/

def figureAt (name : String) : List String := ["architecture", "diagrams"] ++ [name]

theorem isBelow_figureFolder (filled : docs ≠ "") :
    Path.IsBelow docs (figureFolder docs) ["architecture", "diagrams"] :=
  ((Path.isBelow_self filled).concat (by decide)).concat (by decide)

variable (filled : docs ≠ "") {name : String} (isName : Path.IsName name)

include filled isName

theorem isBelow_figure :
    Path.IsBelow docs (Path.below (figureFolder docs) name) (figureAt name) :=
  (isBelow_figureFolder filled).concat isName

omit filled in
theorem isName_figureAt : ∀ part ∈ figureAt name, Path.IsName part := by
  intro part member
  simp only [figureAt, cons_append, nil_append, mem_cons, not_mem_nil, or_false]
    at member
  rcases member with rfl | rfl | rfl
  · decide
  · decide
  · exact isName

theorem repeatable_draw (same : sketch.docs = docs) (number title : String)
    (text : Except Fault String) :
    Work.Repeatable docs base (sketch.draw number title name text)
      [["architecture", "diagrams"], figureAt name] [figureAt name] := by
  subst same
  apply Work.Repeatable.printed
  apply Work.Repeatable.known
  intro drawn _
  exact (repeatable_writeText (isBelow_figure filled isName) (isName_figureAt isName) drawn).silent
    fun _ => repeatable_printLine _

theorem repeatable_readFigure : Work.Repeatable docs base (readFigure docs name) [figureAt name] [] :=
  (repeatable_readText (isBelow_figure filled isName) fun part member =>
    (isName_figureAt isName part member).notUp).orElse _

omit isName

def figurePlaces : List (List String) :=
  [figureAt "system-architecture.mmd", figureAt "module-dependencies.mmd",
    figureAt "component-overview.mmd", figureAt "data-flow.mmd"]

theorem repeatable_readFigures : Work.Repeatable docs base (readFigures docs) figurePlaces [] := by
  have read (name : String) (isName : Path.IsName name) :
      Work.Repeatable docs base (readFigure docs name) [figureAt name] [] :=
    repeatable_readFigure filled isName
  have apart (name : String) : ∀ place ∈ [figureAt name], place ∉ ([] : List (List String)) :=
    fun _ _ => not_mem_nil
  have fourth (text : String → String) := (read "data-flow.mmd" (by decide)).silent
    fun drawn => repeatable_pure (text drawn)
  exact (read "system-architecture.mmd" (by decide)).bind (fun _ =>
    (read "module-dependencies.mmd" (by decide)).bind (fun _ =>
      (read "component-overview.mmd" (by decide)).bind (fun _ => fourth _) (apart _)) (apart _)) (apart _)

/-- The places of all that is drawn: the diagrams and the page that shows them. -/
def drawnPlaces : List (List String) := (["architecture"] ++ ["overview.md"]) :: figurePlaces

theorem repeatable_drawAll (same : sketch.docs = docs) :
    Work.Repeatable docs base sketch.drawAll
      (["architecture"] :: ["architecture", "diagrams"] :: drawnPlaces) drawnPlaces := by
  subst same
  have draw (number title name : String) (text : Except Fault String) (isName : Path.IsName name)
      {next : Unit → Work Unit} {reads writes : List (List String)}
      (onward : Work.Repeatable sketch.docs base (next ()) reads writes)
      (apart : ∀ place ∈ [["architecture", "diagrams"], figureAt name], place ∉ writes) :
      Work.Repeatable sketch.docs base (sketch.draw number title name text >>= next)
        ([["architecture", "diagrams"], figureAt name] ++ reads) ([figureAt name] ++ writes) :=
    (repeatable_draw filled isName rfl number title text).bind (fun _ => onward) apart
  have isBelow : Path.IsBelow sketch.docs (architecturePlace sketch.docs)
      (["architecture"] ++ ["overview.md"]) :=
    ((Path.isBelow_self filled).concat (by decide)).concat (by decide)
  have closing : Work.Repeatable sketch.docs base (do
      let figures ← readFigures sketch.docs
      Work.writeText (architecturePlace sketch.docs) figures
      Work.printLine "   ✓ architecture/overview.md"
      Work.printLine "\n✓ All architecture diagrams generated!")
      (figurePlaces ++ [["architecture"], ["architecture"] ++ ["overview.md"]])
      ([] ++ [["architecture"] ++ ["overview.md"]]) := by
    apply (repeatable_readFigures filled).bind _ (by decide)
    intro figures
    apply (repeatable_writeText isBelow (by decide) figures).silent
    intro _
    exact (repeatable_printLine _).printed
  apply Work.Repeatable.printed
  exact Work.Repeatable.mono
    (draw _ _ _ _ (by decide) (draw _ _ _ _ (by decide) (draw _ _ _ _ (by decide)
      (draw _ _ _ _ (by decide) closing.printed (by decide)) (by decide)) (by decide)) (by decide))
    (by decide) (by decide)

theorem repeatable_illustratePages (same : sketch.docs = docs) (allDown : sketch.index.AllDown) :
    Work.Repeatable docs base sketch.illustratePages
      (["modules"] :: sketch.index.modules.keys.map pageAt) (sketch.index.modules.keys.map pageAt) := by
  subst same
  have isBelow : Path.IsBelow sketch.docs (Path.below sketch.docs "modules") ["modules"] :=
    (Path.isBelow_self filled).concat (by decide)
  apply Work.Repeatable.printed
  apply (repeatable_exists? isBelow (by decide)).bind
  · intro there
    cases there with
    | false =>
      exact (repeatable_printLine _).mono (nil_subset _) (nil_subset _)
    | true =>
      have pages : Work.Repeatable sketch.docs base (sketch.index.modules.keys.mapM fun path =>
          (Revision.ofModule path).apply (pagePath sketch.docs path))
          (sketch.index.modules.keys.map pageAt) (sketch.index.modules.keys.map pageAt) := by
        intro disk free
        rcases exists_settles_pages _ allDown free with ⟨value, later, settles, same, _⟩
        exact ⟨value, later, settles, same⟩
      exact pages.silent fun _ => repeatable_printLine _
  · intro place member inside
    rw [mem_singleton.mp member] at inside
    rcases mem_map.mp inside with ⟨path, _, equal⟩
    simp [pageAt] at equal

theorem repeatable_revision {revision : Revision} (isSteady : revision.IsSteady)
    (isName : Path.IsName name) :
    Work.Repeatable docs base (revision.apply (Path.below docs name)) [[name]] [[name]] := by
  intro disk free
  have isBelow : Path.IsBelow docs (Path.below docs name) ([] ++ [name]) :=
    (Path.isBelow_self filled).concat isName
  have noUp : ∀ part ∈ [] ++ [name], part ≠ ".." := by
    intro part member
    rw [mem_singleton.mp member]
    exact isName.notUp
  rcases isSteady.exists_settles free isBelow noUp (.inr ⟨rfl, isName⟩) with
    ⟨value, later, settles, same, _⟩
  exact ⟨value, later, settles, same⟩

theorem repeatable_updateIndex (same : sketch.docs = docs) :
    Work.Repeatable docs base sketch.updateIndex [["INDEX.md"]] [["INDEX.md"]] := by
  subst same
  apply Work.Repeatable.printed
  exact (repeatable_revision filled Revision.isSteady_ofIndex (by decide)).silent
    fun _ => repeatable_pure ()

theorem repeatable_updateOverview (same : sketch.docs = docs) :
    Work.Repeatable docs base sketch.updateOverview [["README.md"]] [["README.md"]] := by
  subst same
  apply Work.Repeatable.printed
  exact (repeatable_revision filled Revision.isSteady_ofOverview (by decide)).silent
    fun _ => repeatable_pure ()

def pagePlaces (index : TreeIndex) : List (List String) := index.modules.keys.map pageAt

def writtenPlaces (index : TreeIndex) : List (List String) :=
  drawnPlaces ++ (pagePlaces index ++ ([["INDEX.md"]] ++ [["README.md"]]))

def readPlaces (index : TreeIndex) : List (List String) :=
  ["architecture"] :: ["architecture", "diagrams"] :: drawnPlaces ++
    (["modules"] :: pagePlaces index ++ ([["INDEX.md"]] ++ [["README.md"]]))

omit filled in
theorem head?_of_mem_pagePlaces {place : List String} (member : place ∈ pagePlaces index) :
    place.head? = some "modules" := by
  rcases mem_map.mp member with ⟨path, _, rfl⟩
  rfl

omit filled in
theorem head?_of_not_drawn {place : List String}
    (member : place ∈ pagePlaces index ++ ([["INDEX.md"]] ++ [["README.md"]])) :
    place.head? ∈ [some "modules", some "INDEX.md", some "README.md"] := by
  rcases mem_append.mp member with inPages | inLinks
  · rw [head?_of_mem_pagePlaces inPages]
    decide
  · have fixed : ∀ place ∈ [["INDEX.md"]] ++ [["README.md"]],
        place.head? ∈ [some "modules", some "INDEX.md", some "README.md"] := by decide
    exact fixed place inLinks

/-- The steps of the tool come to rest together: none writes what an earlier one has read. -/
theorem repeatable_steps (same : sketch.docs = docs) (allDown : sketch.index.AllDown) :
    Work.Repeatable docs base (do
      sketch.drawAll
      sketch.illustratePages
      sketch.updateIndex
      sketch.updateOverview) (readPlaces sketch.index) (writtenPlaces sketch.index) := by
  unfold readPlaces writtenPlaces
  apply (repeatable_drawAll filled same).bind
  · intro _
    apply (repeatable_illustratePages filled same allDown).bind
    · intro _
      apply (repeatable_updateIndex filled same).bind
      · exact fun _ => repeatable_updateOverview filled same
      · decide
    · intro place member inside
      have fixed : ∀ place ∈ [["INDEX.md"]] ++ [["README.md"]], place.head? ≠ some "modules" := by
        decide
      rcases mem_cons.mp member with rfl | inPages
      · exact fixed _ inside rfl
      · exact fixed place inside (head?_of_mem_pagePlaces inPages)
  · intro place member inside
    have drawn : ∀ place ∈ ["architecture"] :: ["architecture", "diagrams"] :: drawnPlaces,
        place.head? ∉ [some "modules", some "INDEX.md", some "README.md"] := by decide
    exact drawn place member (head?_of_not_drawn inside)

theorem exists_repeatable_addTo {tree : Json} (graph : Json) (plain : PlainNames tree) :
    ∃ reads writes, Work.Repeatable docs base (Sketch.addTo tree graph docs) reads writes := by
  unfold Sketch.addTo Sketch.prepare
  simp only [bind_assoc, pure_bind]
  cases made : TreeIndex.ofJson tree with
  | error cause => exact ⟨[], [], Work.Repeatable.known fun _ found => by cases found⟩
  | ok index =>
    have allDown := TreeIndex.allDown_ofJson plain made
    refine ⟨["architecture", "diagrams"].inits ++ readPlaces index,
      ["architecture", "diagrams"].inits ++ writtenPlaces index, ?_⟩
    apply Work.Repeatable.known
    intro found isIndex
    cases isIndex
    apply (repeatable_makeDirectories (isBelow_figureFolder filled) (by decide)).bind
    · intro _
      apply Work.Repeatable.printed
      apply Work.Repeatable.known
      intro size _
      apply Work.Repeatable.printed
      exact repeatable_steps filled rfl allDown
    · intro place member inside
      rcases mem_append.mp inside with drawn | notDrawn
      · have apart : ∀ place ∈ ["architecture", "diagrams"].inits, place ∉ drawnPlaces := by decide
        exact apart place member drawn
      · have apart : ∀ place ∈ ["architecture", "diagrams"].inits,
            place.head? ∉ [some "modules", some "INDEX.md", some "README.md"] := by decide
        exact apart place member (head?_of_not_drawn notDrawn)

end Run

/-- Once the tool has added the diagrams of a tree whose modules have plain names to a folder without
links, or has failed to do so, adding them again ends in the same way and changes nothing. -/
theorem diagrams_added_once {tree graph : Json} {docs : String} {base : List String}
    {workspace again : Workspace} (plain : PlainNames tree)
    (free : workspace.disk.LinkFree docs base)
    (after : again.disk = ((Sketch.addTo tree graph docs).start workspace).2.disk) :
    ((Sketch.addTo tree graph docs).start again).2.disk = again.disk ∧
      ((Sketch.addTo tree graph docs).start again).1.toOption =
        ((Sketch.addTo tree graph docs).start workspace).1.toOption := by
  rcases exists_repeatable_addTo free.filled graph plain with ⟨reads, writes, repeatable⟩
  rcases repeatable workspace.disk free with ⟨value, later, settles, _⟩
  rcases settles.gives with ⟨result, ends, isValue⟩
  rcases settles.again later settles.free fun _ _ => rfl with ⟨second, ended, sameValue⟩
  rcases ends.run workspace rfl with ⟨came, left⟩
  rcases ended.run again (after.trans left) with ⟨cameAgain, unchanged⟩
  rw [cameAgain, came, unchanged, after, left, sameValue, isValue]
  exact ⟨rfl, rfl⟩

def notesTree : Json :=
  .object [("children", .list [.object [("name", .text "notes")]])]

/-- A wiki with a page for the module, in which each page can take a diagram or links to one. -/
def notesWorkspace : Workspace where
  disk := ⟨.directory [("docs", .directory [
    ("INDEX.md", .file "# Index\n"),
    ("README.md", .file "# Notes\n\n## Module Structure\n"),
    ("modules", .directory [("notes", .directory [
      ("README.md", .file "# Module: notes\r\n\r\n## Architecture\r\n")])])])], []⟩

theorem notes_plainNames : PlainNames notesTree := by
  intro members name isModule named
  cases isModule with
  | child listed member =>
    cases listed
    cases mem_singleton.mp member
    cases named
    exact ⟨by decide, by decide, by decide⟩
  | deeper listed member further =>
    cases listed
    cases mem_singleton.mp member
    cases further with
    | child listed _ => cases listed
    | deeper listed _ _ => cases listed

theorem notes_linkFree : notesWorkspace.disk.LinkFree "docs" ["docs"] := by
  have resolved : notesWorkspace.disk.resolve true "docs" = .ok ["docs"] := by
    rw [Disk.resolve_eq_ok_iff]
    exact ⟨by decide, .down (fun _ => ⟨_, rfl⟩) (by decide) (fun _ found => by cases found) .arrived⟩
  exact Disk.linkFree_of_isUnlinked ⟨by decide, _, rfl⟩ resolved rfl rfl

theorem notes_added_once :
    PlainNames notesTree ∧ notesWorkspace.disk.LinkFree "docs" ["docs"] ∧
      ((Sketch.addTo notesTree (.object []) "docs").start
          ((Sketch.addTo notesTree (.object []) "docs").start notesWorkspace).2).2.disk =
        ((Sketch.addTo notesTree (.object []) "docs").start notesWorkspace).2.disk :=
  ⟨notes_plainNames, notes_linkFree, (diagrams_added_once notes_plainNames notes_linkFree rfl).1⟩

end CodeAtlas.Wiki
