import CodeAtlas.Proofs.Disk.Writing
import CodeAtlas.Proofs.Text
import CodeAtlas.Wiki.Illustration
import Mathlib.Data.List.Flatten

/-!
Diagrams and links in pages that are there already. A change of a page leaves the page as it is, or
puts something into it by which the page is known when it is to be changed again. The index keeps
all its lines; the links stand in it once for each place that was found for them, and there may be
no place or several.
-/

namespace CodeAtlas.Wiki

/-! ## Changes that are made once -/

/-- A change that leaves a page as it is or leaves nothing more to change in it. -/
def Steady (change : String → Option String) : Prop :=
  ∀ page changed, change page = some changed →
    changed = page ∨ change (Text.unifyBreaks changed) = none

theorem steady_of_mark {change : String → Option String} (mark : String)
    (noReturn : '\r' ∉ mark.toList) (noBreak : '\n' ∉ mark.toList)
    (known : ∀ page, Text.contains page mark = true → change page = none)
    (marked : ∀ page changed, change page = some changed →
      changed = page ∨ Text.contains changed mark = true) : Steady change := by
  intro page changed made
  apply (marked page changed made).imp_right
  intro found
  exact known _ (Text.contains_unifyBreaks noReturn noBreak found)

namespace Insertion

open Text List

/-! ### Pages of modules -/

variable {figure page changed : String}

theorem intoModulePage?_of_contains (figure : String)
    (found : Text.contains page "```mermaid" = true) : intoModulePage? figure page = none := by
  rw [intoModulePage?, if_pos found]

theorem exists_of_intoModulePage? (made : intoModulePage? figure page = some changed) :
    ∃ before after, changed = before ++ figure ++ after := by
  rw [intoModulePage?] at made
  split at made
  · cases made
  · rcases Option.bind_eq_some_iff.mp made with ⟨⟨before, after⟩, _, whole⟩
    refine ⟨String.ofList before ++ "\n### Component Diagram\n\n", "\n\n" ++ String.ofList after, ?_⟩
    rw [← Option.some.inj whole, ← String.append_assoc]

theorem intoModulePage?_eq_none_of (unchanged : intoModulePage? figure page = none)
    (other : String) : intoModulePage? other page = none := by
  rw [intoModulePage?] at unchanged ⊢
  split
  · rfl
  · rename_i absent
    rw [if_neg absent] at unchanged
    rcases cut : cutAfter? (headingThroughBreak? architectureHeading.toList) page.toList with
      _ | found
    · rfl
    · rw [cut] at unchanged
      cases unchanged

theorem contains_of_intoModulePage? {path : String}
    (made : intoModulePage? (Figure.loneModule path) page = some changed) :
    Text.contains changed "```mermaid" = true := by
  rcases exists_of_intoModulePage? made with ⟨before, after, rfl⟩
  have fence : Text.contains (Figure.loneModule path) "```mermaid" = true :=
    contains_join _ (by simp)
  exact contains_trans (contains_append before _ after) fence

theorem steady_intoModulePage? (path : String) : Steady (intoModulePage? (Figure.loneModule path)) := by
  apply steady_of_mark "```mermaid" (by decide) (by decide) (fun _ => intoModulePage?_of_contains _)
  exact fun _ _ made => .inr (contains_of_intoModulePage? made)

/-! ### Links in the index -/

def linksHeading : List Char := "### Architecture".toList

theorem linksHeading_starts : linksHeading <+: indexLinks.toList := by
  unfold indexLinks
  repeat rw [String.append_assoc]
  rw [String.toList_append]
  exact List.IsPrefix.trans (by decide) (prefix_append _ _)

theorem break_suffix_indexLinks : ['\n'] <:+ indexLinks.toList := by
  unfold indexLinks
  rw [String.toList_append]
  exact List.IsSuffix.trans (by decide +kernel) (suffix_append _ _)

theorem contains_of_linksHeading {text : String} (inside : linksHeading <:+: text.toList) :
    Text.contains text architectureHeading = true := by
  have marked : architectureHeading.toList <:+: linksHeading :=
    (Chars.contains_iff _ _).mp (by decide)
  exact (contains_iff _ _).mpr (marked.trans inside)

theorem contains_indexLinks : Text.contains indexLinks architectureHeading = true :=
  contains_of_linksHeading linksHeading_starts.isInfix

theorem not_infix_of_contains {page : String}
    (absent : Text.contains page architectureHeading = false) :
    ¬ linksHeading <:+: page.toList :=
  fun inside => Bool.noConfusion (absent.symm.trans (contains_of_linksHeading inside))

theorem indexLinks_ne_nil : indexLinks.toList ≠ [] :=
  fun empty => absurd (empty ▸ linksHeading_starts) (by decide)

theorem not_infix_break {text : List Char} (without : ¬ linksHeading <:+: text) :
    ¬ linksHeading <:+: text ++ ['\n'] := by
  intro inside
  rcases infix_concat_iff.mp inside with ends | earlier
  · rcases suffix_concat_iff.mp ends with empty | ⟨start, whole, _⟩
    · exact absurd empty (by decide)
    · have member : '\n' ∈ linksHeading := by
        rw [whole]
        exact mem_append_right start (mem_singleton_self _)
      exact absurd member (by decide)
  · exact without earlier

theorem split_of_without {text : List Char} (without : ¬ linksHeading <:+: text) :
    Chars.split indexLinks.toList text = [text] :=
  Chars.split_of_absent fun inside => without (linksHeading_starts.isInfix.trans inside)

theorem split_links {lead : List Char} (ended : ['\n'] <:+ lead)
    (without : ¬ linksHeading <:+: lead) (text : List Char) :
    Chars.split indexLinks.toList (lead ++ indexLinks.toList ++ text) =
      lead :: Chars.split indexLinks.toList text := by
  apply Chars.split_first indexLinks_ne_nil
  rw [infix_append_iff]
  rintro (inside | inside | ⟨left, right, whole, ends, starts⟩)
  · exact without (linksHeading_starts.isInfix.trans inside)
  · exact Chars.not_infix_dropLast indexLinks_ne_nil inside
  · have filled : left ≠ [] := by
      rintro rfl
      rw [nil_append] at whole
      rw [← whole] at starts
      exact Chars.not_infix_dropLast indexLinks_ne_nil starts.isInfix
    have breaks : ['\n'] <:+ left := by
      apply suffix_of_suffix_length_le ended ends
      exact length_pos_iff.mpr filled
    have begins : left <+: indexLinks.toList := ⟨right, whole.symm⟩
    rcases prefix_or_prefix_of_prefix linksHeading_starts begins with long | short
    · exact without (long.isInfix.trans ends.isInfix)
    · exact absurd (short.subset (breaks.subset (mem_singleton_self _))) (by decide)

theorem sublist_split_links {lead text changed : List Char} (ended : ['\n'] <:+ lead)
    (onward : (Chars.split ['\n'] text).Sublist (Chars.split ['\n'] changed)) :
    (Chars.split ['\n'] (lead ++ text)).Sublist
      (Chars.split ['\n'] (lead ++ indexLinks.toList ++ changed)) := by
  rcases ended with ⟨line, rfl⟩
  rcases break_suffix_indexLinks with ⟨links, whole⟩
  rw [← whole]
  simp only [append_assoc, cons_append, nil_append, Chars.split_append]
  exact (List.Sublist.refl _).append (onward.trans (sublist_append_right _ _))

section Headings

variable {heading : List Char} (ended : ['\n'] <:+ heading)

include ended

theorem length_split_replace {page : List Char} (without : ¬ linksHeading <:+: page) :
    (Chars.split indexLinks.toList
      (Chars.replace heading (heading ++ indexLinks.toList) page)).length =
      (Chars.split heading page).length := by
  have filled : heading ≠ [] := ended.ne_nil (cons_ne_nil _ _)
  induction page using Chars.occurrence_induction filled with
  | absent page absent =>
    rw [Chars.replace_of_absent _ absent, Chars.split_of_absent absent, split_of_without without]
  | first before page first induction =>
    have lead : ¬ linksHeading <:+: before ++ heading :=
      fun inside => without (inside.trans (prefix_append _ _).isInfix)
    have onward : ¬ linksHeading <:+: page :=
      fun inside => without (inside.trans (suffix_append _ _).isInfix)
    rw [Chars.replace_first filled _ first, Chars.split_first filled first,
      ← append_assoc before, split_links (ended.trans (suffix_append _ _)) lead,
      length_cons, length_cons, induction onward]

theorem sublist_split_replace (page : List Char) :
    (Chars.split ['\n'] page).Sublist
      (Chars.split ['\n'] (Chars.replace heading (heading ++ indexLinks.toList) page)) := by
  have filled : heading ≠ [] := ended.ne_nil (cons_ne_nil _ _)
  induction page using Chars.occurrence_induction filled with
  | absent page absent => rw [Chars.replace_of_absent _ absent]
  | first before page first induction =>
    rw [Chars.replace_first filled _ first, ← append_assoc before]
    exact sublist_split_links (ended.trans (suffix_append _ _)) induction

end Headings

theorem afterTitle_cases (added : String) (lines : List String) :
    (lines.any (Text.startsWith · "# ") = false ∧ afterTitle added lines = lines) ∨
      (lines.any (Text.startsWith · "# ") = true ∧ ∃ above below, above ≠ [] ∧
        lines = above ++ below ∧ afterTitle added lines = above ++ added :: below) := by
  induction lines with
  | nil => exact .inl ⟨rfl, rfl⟩
  | cons line rest induction =>
    rw [afterTitle, any_cons]
    cases title : Text.startsWith line "# " with
    | true =>
      refine .inr ⟨rfl, line :: rest.take 1, rest.drop 1, cons_ne_nil _ _, ?_, rfl⟩
      rw [cons_append, take_append_drop]
    | false =>
      simp only [Bool.false_or, Bool.false_eq_true, if_false]
      rcases induction with ⟨untitled, same⟩ | ⟨titled, above, below, _, rfl, put⟩
      · exact .inl ⟨untitled, by rw [same]⟩
      · exact .inr ⟨titled, line :: above, below, cons_ne_nil _ _, rfl, by rw [put]; rfl⟩

/-- How often the links are put into an index. -/
def linkPlaces (page : String) : Nat :=
  if Text.contains page "## Quick Navigation" then Text.count page "## Quick Navigation\n\n"
  else if (Text.split page "\n").any (Text.startsWith · "# ") then 1
  else 0

theorem length_split_insert {above : List (List Char)} (below : List (List Char))
    (filled : above ≠ []) (without : ¬ linksHeading <:+: ['\n'].intercalate (above ++ below)) :
    (Chars.split indexLinks.toList
      (['\n'].intercalate (above ++ indexLinks.toList :: below))).length = 2 := by
  rcases Chars.exists_intercalate_insert ['\n'] below filled with ⟨tail, whole, insert⟩
  rw [whole] at without
  have lead : ¬ linksHeading <:+: ['\n'].intercalate above :=
    fun inside => without (inside.trans (prefix_append _ _).isInfix)
  have onward : ¬ linksHeading <:+: tail :=
    fun inside => without (inside.trans (suffix_append _ _).isInfix)
  rw [insert, split_links (suffix_append _ _) (not_infix_break lead), split_of_without onward]
  rfl

/-- A page into which the links are put a number of times and that keeps its lines. -/
structure Linked (places : Nat) (page changed : String) : Prop where
  lines : (Text.split page "\n").Sublist (Text.split changed "\n")
  count : Text.count changed indexLinks = places

section Index

variable {page : String} (absent : Text.contains page architectureHeading = false)

include absent

theorem linked_replace {heading : String} (ended : ['\n'] <:+ heading.toList) :
    Linked (Text.count page heading) page (Text.replace page heading (heading ++ indexLinks)) := by
  have replaced : (Text.replace page heading (heading ++ indexLinks)).toList =
      Chars.replace heading.toList (heading.toList ++ indexLinks.toList) page.toList := by
    rw [Text.replace, String.toList_ofList, String.toList_append]
  constructor
  · rw [Text.split, Text.split, replaced]
    exact (sublist_split_replace ended page.toList).map String.ofList
  · rw [Text.count, Text.count, Text.split, Text.split, replaced, length_map, length_map,
      length_split_replace ended (not_infix_of_contains absent)]

theorem linked_afterTitle :
    Linked (if (Text.split page "\n").any (Text.startsWith · "# ") then 1 else 0) page
      (Text.join "\n" (afterTitle indexLinks (Text.split page "\n"))) := by
  have without := not_infix_of_contains absent
  rcases afterTitle_cases indexLinks (Text.split page "\n") with
    ⟨untitled, same⟩ | ⟨titled, above, below, filled, whole, put⟩
  · have kept : Text.join "\n" (Text.split page "\n") = page := join_split_mark '\n' page
    rw [same, kept, untitled]
    refine ⟨.refl _, ?_⟩
    rw [Text.count, Text.split, split_of_without without]
    rfl
  · have lines : (above ++ below).map String.toList = Chars.split ['\n'] page.toList := by
      rw [← whole]
      exact map_toList_split page "\n"
    have joined : (Text.join "\n" (above ++ indexLinks :: below)).toList =
        ['\n'].intercalate ((above ++ indexLinks :: below).map String.toList) :=
      toList_join "\n" _
    rw [put, titled]
    constructor
    · change ((Chars.split ['\n'] page.toList).map String.ofList).Sublist
        ((Chars.split ['\n'] _).map String.ofList)
      rw [joined, Chars.split_intercalate _ (by simp), ← Chars.flatMap_split_split, ← lines]
      refine ((List.Sublist.map String.toList ?_).flatMap _).map String.ofList
      exact (List.Sublist.refl above).append (sublist_cons_self indexLinks below)
    · rw [Text.count, Text.split, length_map, joined, map_append, map_cons,
        length_split_insert _ (by simpa using filled)]
      · rfl
      · rw [← map_append, lines, Chars.intercalate_split (cons_ne_nil _ _)]
        exact without

theorem exists_intoIndex? :
    ∃ changed, intoIndex? page = some changed ∧ Linked (linkPlaces page) page changed := by
  rw [intoIndex?, if_neg (by simp [absent]), linkPlaces]
  split
  · exact ⟨_, rfl, linked_replace absent (by decide +kernel)⟩
  · exact ⟨_, rfl, linked_afterTitle absent⟩

end Index

theorem steady_intoIndex? : Steady intoIndex? := by
  apply steady_of_mark architectureHeading (by decide) (by decide)
  · intro page found
    rw [intoIndex?, if_pos found]
  · intro page changed made
    rw [intoIndex?] at made
    split at made
    · cases made
    · split at made
      · rw [← Option.some.inj made]
        exact (replace_cases page _ (by decide)).imp_right fun found =>
          contains_trans (contains_trans found (contains_right _ indexLinks))
            contains_indexLinks
      · rw [← Option.some.inj made]
        rcases afterTitle_cases indexLinks (Text.split page "\n") with
          ⟨_, same⟩ | ⟨_, above, below, _, _, put⟩
        · rw [same]
          exact .inl (join_split_mark '\n' page)
        · have member : indexLinks ∈ above ++ indexLinks :: below := by simp
          rw [put]
          exact .inr (contains_trans (contains_join "\n" member) contains_indexLinks)

/-! ### The overview -/

theorem contains_overviewLinks : Text.contains overviewLinks "architecture/overview.md" = true := by
  have first : Text.contains architectureLinks
      "- [Architecture Overview](architecture/overview.md)\n" = true := by
    unfold architectureLinks
    rw [String.append_assoc]
    apply contains_left
  apply contains_trans (contains_append _ architectureLinks _)
  apply contains_trans first
  decide

theorem steady_intoOverview? : Steady intoOverview? := by
  apply steady_of_mark "architecture/overview.md" (by decide) (by decide)
  · intro page found
    rw [intoOverview?, if_pos found]
  · intro page changed made
    rw [intoOverview?] at made
    split at made
    · cases made
    · split at made
      · split at made
        · rw [← Option.some.inj made]
          exact .inr
            (contains_trans (contains_append _ overviewLinks _) contains_overviewLinks)
        · exact .inl (Option.some.inj made).symm
      · split at made
        · rw [← Option.some.inj made]
          exact (replace_cases page _ (by decide)).imp_right fun found =>
            contains_trans (contains_trans found (contains_append _ overviewLinks _))
              contains_overviewLinks
        · rw [← Option.some.inj made]
          exact .inr
            (contains_trans (contains_right _ overviewLinks) contains_overviewLinks)

end Insertion

/-! ## The index of a wiki -/

namespace Revision

theorem ends_apply {revision : Revision} {disk later : Disk} {place written changed : String}
    (found : disk.get? place = some (.file written))
    (made : revision.change (Text.unifyBreaks written) = some changed)
    (wrote : disk.write place changed = .ok later) :
    (revision.apply place).Ends disk (.ok true) later := by
  have there : disk.exists? place = true := by rw [Disk.exists?, found]; rfl
  have content : disk.read place = .ok written := by
    rw [Disk.read_eq_ok_iff, found]
    rfl
  have look : (Work.exists? place).Ends disk (.ok true) disk :=
    there ▸ Work.ends_disk.bind (Work.ends_pure _)
  have read : (revision.read place).Ends disk (.ok (some (Text.unifyBreaks written))) disk :=
    look.bind ((Work.ends_readText content).bind (Work.ends_pure _))
  have write : (revision.write place (Text.unifyBreaks written)).Ends disk (.ok ()) later := by
    rw [write, made]
    exact (Work.ends_writeText wrote).bind (Work.ends_printLine _)
  exact read.bind (write.bind (Work.ends_pure true))

end Revision

namespace Sketch

theorem exists_updateIndex (sketch : Sketch) {workspace : Workspace} {written changed : String}
    (grounded : workspace.disk.Grounded)
    (found : workspace.disk.get? (Path.below sketch.docs "INDEX.md") = some (.file written))
    (made : Insertion.intoIndex? (Text.unifyBreaks written) = some changed) :
    ∃ later, sketch.updateIndex.start workspace = (.ok (), later) ∧
      later.disk.get? (Path.below sketch.docs "INDEX.md") = some (.file changed) := by
  rcases Disk.writable_of_file found changed with ⟨disk, wrote⟩
  have changes : Revision.ofIndex.change = Insertion.intoIndex? := rfl
  have applied : (Revision.ofIndex.apply (Path.below sketch.docs "INDEX.md")).Ends
      workspace.disk (.ok true) disk := Revision.ends_apply found (by rw [changes, made]) wrote
  have run : sketch.updateIndex.Ends workspace.disk (.ok ()) disk :=
    (Work.ends_printLine _).bind (applied.bind (Work.ends_pure ()))
  rcases run.exists_start with ⟨later, ends, rfl⟩
  refine ⟨later, ends, (Disk.write_eq_ok grounded wrote fun old was => ?_).2⟩
  cases found.symm.trans was
  rfl

/-- An index without the section is written anew: it keeps its lines, and the links stand in it as
often as there are places for them. -/
theorem index_linked_at_places (sketch : Sketch) {workspace : Workspace} {written : String}
    (grounded : workspace.disk.Grounded)
    (found : workspace.disk.get? (Path.below sketch.docs "INDEX.md") = some (.file written))
    (absent : Text.contains (Text.unifyBreaks written) Insertion.architectureHeading = false) :
    ∃ later changed, sketch.updateIndex.start workspace = (.ok (), later) ∧
      later.disk.get? (Path.below sketch.docs "INDEX.md") = some (.file changed) ∧
      (Text.split (Text.unifyBreaks written) "\n").Sublist (Text.split changed "\n") ∧
      Text.count changed Insertion.indexLinks = Insertion.linkPlaces (Text.unifyBreaks written) := by
  rcases Insertion.exists_intoIndex? absent with ⟨changed, made, linked⟩
  rcases exists_updateIndex sketch grounded found made with ⟨later, ends, page⟩
  exact ⟨later, changed, ends, page, linked.lines, linked.count⟩

/-- A wiki that holds an index only. -/
def indexed (text : String) : Workspace where
  disk := ⟨.directory [("docs", .directory [("INDEX.md", .file text)])], []⟩

def indexSketch : Sketch := ⟨.empty, .object [], "docs"⟩

theorem indexed_grounded (text : String) : (indexed text).disk.Grounded := ⟨_, rfl⟩

theorem indexed_get? (text : String) :
    (indexed text).disk.get? (Path.below "docs" "INDEX.md") = some (.file text) := by
  have parts : Path.parts (Path.below "docs" "INDEX.md") = ["docs", "INDEX.md"] := by decide +kernel
  refine Disk.get?_eq_some_iff.mpr
    ⟨["docs", "INDEX.md"], Disk.resolve_eq_ok_iff.mpr ⟨by decide, ?_⟩, rfl⟩
  rw [parts]
  exact .down (fun _ => ⟨_, rfl⟩) (by decide) (fun _ found => by cases found)
    (.down (fun _ => ⟨_, rfl⟩) (by decide) (fun _ found => by cases found) .arrived)

def spacedPage : String := "# Index\r\n\r\n## Quick Navigation\r\n\r\n- [Home](README.md)\r\n"

theorem spaced_linked_once :
    Text.contains (Text.unifyBreaks spacedPage) Insertion.architectureHeading = false ∧
      ∃ later changed, indexSketch.updateIndex.start (indexed spacedPage) = (.ok (), later) ∧
        later.disk.get? (Path.below "docs" "INDEX.md") = some (.file changed) ∧
        (Text.split (Text.unifyBreaks spacedPage) "\n").Sublist (Text.split changed "\n") ∧
        Text.count changed Insertion.indexLinks = 1 := by
  have absent : Text.contains (Text.unifyBreaks spacedPage) Insertion.architectureHeading = false := by
    decide +kernel
  have once : Insertion.linkPlaces (Text.unifyBreaks spacedPage) = 1 := by decide +kernel
  refine ⟨absent, ?_⟩
  rw [← once]
  exact index_linked_at_places indexSketch (indexed_grounded _) (indexed_get? _) absent

/-- An index whose heading is followed by its links at once. -/
def densePage : String := "# Index\n\n## Quick Navigation\n- [Home](README.md)\n"

theorem dense_never_linked :
    Text.contains (Text.unifyBreaks densePage) Insertion.architectureHeading = false ∧
      ∃ later changed, indexSketch.updateIndex.start (indexed densePage) = (.ok (), later) ∧
        later.disk.get? (Path.below "docs" "INDEX.md") = some (.file changed) ∧
        Text.count changed Insertion.indexLinks = 0 := by
  have absent : Text.contains (Text.unifyBreaks densePage) Insertion.architectureHeading = false := by
    decide +kernel
  rcases Insertion.exists_intoIndex? absent with ⟨changed, made, linked⟩
  rcases exists_updateIndex indexSketch (indexed_grounded _) (indexed_get? _) made with
    ⟨later, ends, page⟩
  refine ⟨absent, later, changed, ends, page, ?_⟩
  rw [linked.count]
  decide +kernel

end Sketch

end CodeAtlas.Wiki
