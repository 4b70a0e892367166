import CodeAtlas.Proofs.Files
import CodeAtlas.Proofs.Markup
import CodeAtlas.Proofs.Text
import CodeAtlas.Site.Viewer
import Mathlib.Data.List.Find

/-!
The marks of a template are replaced one after the other, so a mark inside of a value is replaced as
well if it comes later. Where the marks of a template stand apart, the page is the template with all
marks replaced at once, each by its value with the marks behind it filled in.
-/

namespace CodeAtlas

open List

/-! ## Replacing in order and at once -/

namespace Text.Chars

variable {table : List (List Char × List Char)} {parts : List (List Char)}
  {part image text left right : List Char} {gap : Char}

theorem replace_eq_replaceAll (part image text : List Char) :
    replace part image text = replaceAll [(part, image)] text := by
  rw [replace, replaceAll]
  generalize 0 = passing
  fun_induction replaceFrom part image passing text with
  | case1 => rfl
  | case2 passing char rest induction => rw [replaceAllFrom, induction]
  | case3 char rest starts induction => simp [replaceAllFrom, starts, induction]
  | case4 char rest absent induction => simp [replaceAllFrom, absent, induction]

theorem replaceAll_of_absent (absent : ∀ entry ∈ table, ¬ entry.1 <:+: text) :
    replaceAll table text = text := by
  induction text with
  | nil => rfl
  | cons char rest induction =>
    have here : (table.find? fun entry => entry.1.isPrefixOf (char :: rest)) = none := by
      rw [find?_eq_none]
      intro entry member starts
      exact absent entry member (List.isPrefixOf_iff_prefix.mp starts).isInfix
    rw [replaceAll_kept here, induction]
    intro entry member inside
    exact absent entry member (infix_cons inside)

theorem prefix_gap_iff (outside : gap ∉ part) (left right : List Char) :
    part <+: left ++ gap :: right ↔ part <+: left := by
  refine ⟨fun starts => ?_, fun starts => starts.trans (prefix_append left _)⟩
  rcases Nat.lt_or_ge left.length part.length with longer | within
  · have before : left ++ [gap] <+: left ++ gap :: right :=
      (prefix_append_right_inj left).mpr (prefix_append [gap] right)
    have within : (left ++ [gap]).length ≤ part.length := by
      rw [length_append]
      exact longer
    have reaches := prefix_of_prefix_length_le before starts within
    exact absurd (reaches.subset (by simp)) outside
  · exact prefix_of_prefix_length_le starts (prefix_append left _) within

/-- A character that is in no part separates what is replaced. -/
theorem replaceAllFrom_gap (filled : ∀ entry ∈ table, entry.1 ≠ [])
    (outside : ∀ entry ∈ table, gap ∉ entry.1) (right : List Char) {passing : Nat}
    (within : passing ≤ left.length) :
    replaceAllFrom table passing (left ++ gap :: right) =
      replaceAllFrom table passing left ++ gap :: replaceAll table right := by
  induction left generalizing passing with
  | nil =>
    cases Nat.le_zero.mp within
    apply replaceAll_kept
    rw [find?_eq_none]
    intro entry member starts
    rcases exists_cons_of_ne_nil (filled entry member) with ⟨first, rest, whole⟩
    rw [List.isPrefixOf_iff_prefix, whole] at starts
    apply outside entry member
    rw [whole, (cons_prefix_cons.mp starts).1]
    exact mem_cons_self
  | cons char rest induction =>
    cases passing with
    | succ passing => exact induction (Nat.le_of_succ_le_succ within)
    | zero =>
      have same : (table.find? fun entry => entry.1.isPrefixOf (char :: (rest ++ gap :: right))) =
          table.find? fun entry => entry.1.isPrefixOf (char :: rest) := by
        apply find?_congr
        intro entry member
        rw [Bool.eq_iff_iff, List.isPrefixOf_iff_prefix, List.isPrefixOf_iff_prefix]
        exact prefix_gap_iff (outside entry member) (char :: rest) right
      rw [cons_append, replaceAllFrom, same, replaceAllFrom]
      cases found : table.find? fun entry => entry.1.isPrefixOf (char :: rest) with
      | none => exact congrArg (char :: ·) (induction (Nat.zero_le _))
      | some entry =>
        have starts : entry.1 <+: char :: rest := by
          have holds := find?_some found
          rwa [List.isPrefixOf_iff_prefix] at holds
        have short : entry.1.length - 1 ≤ rest.length := by
          have within := starts.length_le
          rw [length_cons] at within
          omega
        simp only [induction short, append_assoc]

theorem replaceAll_gap (filled : ∀ entry ∈ table, entry.1 ≠ [])
    (outside : ∀ entry ∈ table, gap ∉ entry.1) (left right : List Char) :
    replaceAll table (left ++ gap :: right) =
      replaceAll table left ++ gap :: replaceAll table right :=
  replaceAllFrom_gap filled outside right (Nat.zero_le _)

/-- The parts of a table are replaced one after the other. -/
def replaceInOrder (table : List (List Char × List Char)) (text : List Char) : List Char :=
  table.foldl (fun text entry => replace entry.1 entry.2 text) text

theorem replaceInOrder_of_absent (absent : ∀ entry ∈ table, ¬ entry.1 <:+: text) :
    replaceInOrder table text = text := by
  induction table with
  | nil => rfl
  | cons entry later induction =>
    rw [forall_mem_cons] at absent
    rw [replaceInOrder, foldl_cons, replace_of_absent _ absent.1]
    exact induction absent.2

theorem replaceInOrder_gap (filled : ∀ entry ∈ table, entry.1 ≠ [])
    (outside : ∀ entry ∈ table, gap ∉ entry.1) (left right : List Char) :
    replaceInOrder table (left ++ gap :: right) =
      replaceInOrder table left ++ gap :: replaceInOrder table right := by
  induction table generalizing left right with
  | nil => rfl
  | cons entry later induction =>
    rw [forall_mem_cons] at filled outside
    have here : replace entry.1 entry.2 (left ++ gap :: right) =
        replace entry.1 entry.2 left ++ gap :: replace entry.1 entry.2 right := by
      rw [replace_eq_replaceAll, replace_eq_replaceAll, replace_eq_replaceAll]
      exact replaceAll_gap (forall_mem_singleton.mpr filled.1)
        (forall_mem_singleton.mpr outside.1) left right
    rw [replaceInOrder, foldl_cons, here]
    exact induction filled.2 outside.2 _ _

/-- Each part with its image, in which the parts behind it are replaced. -/
def refilled : List (List Char × List Char) → List (List Char × List Char)
  | [] => []
  | (part, image) :: later => (part, replaceInOrder later image) :: refilled later

/-- Different parts, none of which is inside of another. -/
structure Apart (parts : List (List Char)) : Prop where
  nodup : parts.Nodup
  filled : ∀ part ∈ parts, part ≠ []
  apart : ∀ first ∈ parts, ∀ second ∈ parts, first <:+: second → first = second

/-- A text in which characters that are in no part separate pieces that are a part or have none in
them. -/
inductive Calm (parts : List (List Char)) : List Char → Prop
  | part {text : List Char} (listed : text ∈ parts) : Calm parts text
  | plain {text : List Char} (absent : ∀ part ∈ parts, ¬ part <:+: text) : Calm parts text
  | join {left right : List Char} {gap : Char} (outside : ∀ part ∈ parts, gap ∉ part)
      (first : Calm parts left) (second : Calm parts right) : Calm parts (left ++ gap :: right)

theorem map_fst_refilled (table : List (List Char × List Char)) :
    (refilled table).map Prod.fst = table.map Prod.fst := by
  induction table with
  | nil => rfl
  | cons entry later induction => exact congrArg (entry.1 :: ·) induction

theorem exists_refilled (before : List (List Char × List Char)) (part image : List Char)
    (later : List (List Char × List Char)) :
    ∃ upper, upper.map Prod.fst = before.map Prod.fst ∧
      refilled (before ++ (part, image) :: later) =
        upper ++ (part, replaceInOrder later image) :: refilled later := by
  induction before with
  | nil => exact ⟨[], rfl, rfl⟩
  | cons entry before induction =>
    rcases induction with ⟨upper, same, whole⟩
    refine ⟨(entry.1, replaceInOrder (before ++ (part, image) :: later) entry.2) :: upper,
      congrArg (entry.1 :: ·) same, ?_⟩
    rw [cons_append, refilled, whole]
    rfl

section Apart

variable {before later : List (List Char × List Char)}
  (apart : Apart ((before ++ (part, image) :: later).map Prod.fst))

include apart

theorem filled_part : part ≠ [] :=
  apart.filled part (mem_map_of_mem (mem_append_right before mem_cons_self))

theorem not_infix_before {entry : List Char × List Char} (member : entry ∈ before) :
    ¬ entry.1 <:+: part := by
  have nodup := apart.nodup
  rw [map_append, map_cons, nodup_append] at nodup
  have listed := mem_map_of_mem (f := Prod.fst) member
  intro inside
  apply nodup.2.2 entry.1 listed part mem_cons_self
  refine apart.apart entry.1 ?_ part ?_ inside
  · rw [map_append]
    exact mem_append_left _ listed
  · rw [map_append]
    exact mem_append_right _ mem_cons_self

theorem replaceInOrder_part :
    replaceInOrder (before ++ (part, image) :: later) part = replaceInOrder later image := by
  have filled := filled_part apart
  have first := replaceInOrder_of_absent fun _ member => not_infix_before apart member
  have itself : replace part image part = image := by
    have alone : replace part image ([] ++ part ++ []) = [] ++ image ++ replace part image [] :=
      replace_first filled image (not_infix_dropLast filled) []
    rwa [nil_append, append_nil, nil_append, show replace part image [] = [] from rfl,
      append_nil] at alone
  rw [replaceInOrder] at first
  rw [replaceInOrder, foldl_append, first, foldl_cons, itself, replaceInOrder]

theorem replaceAll_part : replaceAll (before ++ (part, image) :: later) part = image := by
  have none : (before.find? fun entry => entry.1.isPrefixOf part) = none := by
    rw [find?_eq_none]
    intro entry member starts
    exact not_infix_before apart member (List.isPrefixOf_iff_prefix.mp starts).isInfix
  have found : ((before ++ (part, image) :: later).find? fun entry =>
      entry.1.isPrefixOf (part ++ [])) = some (part, image) := by
    rw [append_nil, find?_append, none, Option.none_or]
    exact find?_cons_of_pos (List.isPrefixOf_iff_prefix.mpr prefix_rfl)
  have alone := replaceAll_found (filled_part apart) found
  rwa [append_nil, show replaceAll _ [] = [] from rfl, append_nil] at alone

end Apart

/-- In a calm text, replacing in order is replacing at once by the images in which the parts behind
are replaced. -/
theorem replaceInOrder_of_calm (apart : Apart (table.map Prod.fst))
    (calm : Calm (table.map Prod.fst) text) :
    replaceInOrder table text = replaceAll (refilled table) text := by
  have listed {entry : List Char × List Char} (member : entry ∈ refilled table) :
      entry.1 ∈ table.map Prod.fst := by
    rw [← map_fst_refilled]
    exact mem_map_of_mem member
  induction calm with
  | part known =>
    rcases mem_map.mp known with ⟨⟨part, image⟩, member, rfl⟩
    rcases append_of_mem member with ⟨before, later, rfl⟩
    rcases exists_refilled before part image later with ⟨upper, same, whole⟩
    rw [replaceInOrder_part apart, whole, replaceAll_part]
    rwa [← whole, map_fst_refilled]
  | plain absent =>
    rw [replaceInOrder_of_absent fun entry member => absent _ (mem_map_of_mem member),
      replaceAll_of_absent fun entry member => absent _ (listed member)]
  | join outside _ _ first second =>
    rw [replaceInOrder_gap (fun entry member => apart.filled _ (mem_map_of_mem member))
        (fun entry member => outside _ (mem_map_of_mem member)),
      replaceAll_gap (fun entry member => apart.filled _ (listed member))
        (fun entry member => outside _ (listed member)), first, second]

theorem refilled_eq_self (each : ∀ before part image later,
    table = before ++ (part, image) :: later → replaceInOrder later image = image) :
    refilled table = table := by
  induction table with
  | nil => rfl
  | cons entry later induction =>
    rw [refilled, each [] entry.1 entry.2 later rfl, induction]
    intro before part image rest whole
    exact each (entry :: before) part image rest (congrArg (entry :: ·) whole)

theorem replaceInOrder_eq_replaceAll_iff (apart : Apart (table.map Prod.fst)) :
    (∀ text, Calm (table.map Prod.fst) text → replaceInOrder table text = replaceAll table text) ↔
      ∀ before part image later, table = before ++ (part, image) :: later →
        replaceInOrder later image = image := by
  constructor
  · rintro agree before part image later rfl
    rw [← replaceInOrder_part apart, agree, replaceAll_part apart]
    exact .part (mem_map_of_mem (mem_append_right before mem_cons_self))
  · intro each text calm
    rw [replaceInOrder_of_calm apart calm, refilled_eq_self each]

end Text.Chars

/-! ## Templates -/

namespace Site

open Text (Chars.Apart Chars.Calm Chars.replaceAll Chars.replaceInOrder)

variable {viewer : Viewer} {facts page template : String}

def table (marks : List (String × String)) : List (List Char × List Char) :=
  marks.map fun (mark, value) => (("\x7b\x7b" ++ mark ++ "\x7d\x7d").toList, value.toList)

/-- A template with all marks replaced at once. -/
def fillAtOnce (marks : List (String × String)) (template : String) : String :=
  .ofList (Chars.replaceAll (table marks) template.toList)

/-- Each mark with its value, in which the marks behind it are filled in. -/
def refilled : List (String × String) → List (String × String)
  | [] => []
  | (mark, value) :: later => (mark, fillMarks later value) :: refilled later

/-- Characters that are in no mark separate the pieces of a template that are marks or have none in
them. -/
def Calm (marks : List (String × String)) (template : String) : Prop :=
  Chars.Calm ((table marks).map Prod.fst) template.toList

theorem toList_fillMarks (marks : List (String × String)) (template : String) :
    (fillMarks marks template).toList = Chars.replaceInOrder (table marks) template.toList := by
  induction marks generalizing template with
  | nil => rfl
  | cons entry later induction =>
    have further := induction
      (Text.replace template ("\x7b\x7b" ++ entry.1 ++ "\x7d\x7d") entry.2)
    rw [Text.replace, String.toList_ofList] at further
    exact further

theorem table_refilled (marks : List (String × String)) :
    table (refilled marks) = Text.Chars.refilled (table marks) := by
  induction marks with
  | nil => rfl
  | cons entry later induction =>
    rw [refilled, Text.Chars.refilled.eq_def]
    exact cons_eq_cons.mpr ⟨Prod.ext rfl (toList_fillMarks later entry.2), induction⟩

theorem apart_marks (viewer : Viewer) (facts page : String) :
    Chars.Apart ((table (viewer.marks facts page)).map Prod.fst) := by
  have names : (table (viewer.marks facts page)).map Prod.fst =
      ["TITLE", "REPO_LINK", "SHOW_INFO", "INFO_CONTENT", "CONFIG_JSON", "MODULE_TREE_JSON",
        "METADATA_JSON", "DOCS_BASE_PATH"].map
          fun mark => ("\x7b\x7b" ++ mark ++ "\x7d\x7d").toList := rfl
  rw [names]
  exact ⟨by decide, by decide, by decide⟩

theorem fillMarks_of_calm (calm : Calm (viewer.marks facts page) template) :
    fillMarks (viewer.marks facts page) template =
      fillAtOnce (refilled (viewer.marks facts page)) template := by
  rw [← String.toList_inj, toList_fillMarks, fillAtOnce, String.toList_ofList, table_refilled]
  exact Text.Chars.replaceInOrder_of_calm (apart_marks viewer facts page) calm

theorem fillMarks_eq_fillAtOnce_iff (viewer : Viewer) (facts page : String) :
    (∀ template, Calm (viewer.marks facts page) template →
      fillMarks (viewer.marks facts page) template =
        fillAtOnce (viewer.marks facts page) template) ↔
      ∀ before mark value later, viewer.marks facts page = before ++ (mark, value) :: later →
        fillMarks later value = value := by
  have whole := Text.Chars.replaceInOrder_eq_replaceAll_iff (apart_marks viewer facts page)
  generalize viewer.marks facts page = marks at whole ⊢
  constructor
  · rintro agree before mark value later rfl
    rw [← String.toList_inj, toList_fillMarks]
    apply whole.mp _ (table before) _ value.toList (table later) map_append
    intro text calm
    have same := agree (String.ofList text) (by rwa [Calm, String.toList_ofList])
    rw [← String.toList_inj, toList_fillMarks, fillAtOnce] at same
    simpa only [String.toList_ofList] using same
  · intro each template calm
    rw [← String.toList_inj, toList_fillMarks, fillAtOnce, String.toList_ofList]
    refine whole.mpr (fun before part image later split => ?_) _ calm
    rcases map_eq_append_iff.mp split with ⟨upper, rest, rfl, rfl, tail⟩
    rcases map_eq_cons_iff.mp tail with ⟨⟨mark, value⟩, lower, rfl, entry, rfl⟩
    cases entry
    have same := congrArg String.toList (each upper mark value lower rfl)
    rwa [toList_fillMarks] at same

/-- A page that was written has the template with the marks filled in order, unless a link that was
beside it took its place. -/
theorem file_of_fillInto {workspace later : Workspace} {place : List String}
    (sound : workspace.disk.Sound)
    (known : Site.facts (viewer.description.getD .null) = .ok facts)
    (run : (viewer.fillInto template page).start workspace = (.ok (), later))
    (atPlace : workspace.disk.resolve false page = .ok place) :
    ∃ tree, later.disk.root.get? place = some tree ∧
      (tree = .file (fillMarks (viewer.marks facts page) template) ∨ tree.isLink = true) := by
  rcases Work.start_bind_eq_ok_iff.mp run with ⟨_, _, told, run⟩
  rcases Work.start_ofExcept_eq_ok_iff.mp told with ⟨same, rfl⟩
  cases known.symm.trans same
  rcases Work.start_bind_eq_ok_iff.mp run with ⟨_, middle, made, run⟩
  rw [Work.start_makeDirectories] at made
  split at made
  · rename_i disk makes
    cases made
    rcases sound.makeDirectories makes with ⟨soundNow, kept⟩
    have atPlaceNow : Disk.resolve (Workspace.disk { workspace with disk }) false page = .ok place :=
      kept.resolve atPlace
    rcases Files.write_cases soundNow atPlaceNow (fillMarks (viewer.marks facts page) template) with
      ⟨_, tree, wrote, there⟩ | ⟨_, _, stopped, _⟩
    · cases run.symm.trans wrote
      exact ⟨tree, there⟩
    · cases run.symm.trans stopped
  · cases made

/-- What is on a page that was written: the template with the marks filled in order. In a calm
template this is the same as filling all marks at once, each with its value in which the marks behind
it are filled. The values are left as they are exactly if filling the marks behind them changes none
of them. -/
theorem page_filled_in_order (viewer : Viewer) (facts page : String) :
    (∀ template workspace later place, workspace.disk.Sound →
      Site.facts (viewer.description.getD .null) = .ok facts →
      (viewer.fillInto template page).start workspace = (.ok (), later) →
      workspace.disk.resolve false page = .ok place →
      ∃ tree, later.disk.root.get? place = some tree ∧
        (tree = .file (fillMarks (viewer.marks facts page) template) ∨ tree.isLink = true)) ∧
    (∀ template, Calm (viewer.marks facts page) template →
      fillMarks (viewer.marks facts page) template =
        fillAtOnce (refilled (viewer.marks facts page)) template) ∧
    ((∀ template, Calm (viewer.marks facts page) template →
      fillMarks (viewer.marks facts page) template =
        fillAtOnce (viewer.marks facts page) template) ↔
      ∀ before mark value later, viewer.marks facts page = before ++ (mark, value) :: later →
        fillMarks later value = value) :=
  ⟨fun _ _ _ _ sound known run atPlace => file_of_fillInto sound known run atPlace,
    fun _ calm => fillMarks_of_calm calm, fillMarks_eq_fillAtOnce_iff viewer facts page⟩

/-- Of a title that is a mark nothing is left on the page. -/
theorem title_filled_again :
    Calm ({ title := "\x7b\x7bREPO_LINK\x7d\x7d" : Viewer }.marks "" "/d/index.html")
      "\x7b\x7bTITLE\x7d\x7d" ∧
    fillMarks ({ title := "\x7b\x7bREPO_LINK\x7d\x7d" : Viewer }.marks "" "/d/index.html")
      "\x7b\x7bTITLE\x7d\x7d" = "" ∧
    fillAtOnce ({ title := "\x7b\x7bREPO_LINK\x7d\x7d" : Viewer }.marks "" "/d/index.html")
      "\x7b\x7bTITLE\x7d\x7d" = "\x7b\x7bREPO_LINK\x7d\x7d" :=
  ⟨.part (by decide), by decide +kernel, by decide⟩

end Site

end CodeAtlas
