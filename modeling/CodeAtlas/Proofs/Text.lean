import CodeAtlas.Proofs.Path
import Mathlib.Data.List.TakeWhile

/-!
What texts start with, end with and hold, and what is left of them after they are trimmed, split,
rid of a part or given other line breaks.
-/

namespace CodeAtlas.Text

open List
open String (ofList_toList toList_append toList_inj toList_ofList)

variable {text before : List Char} {mark : Char} {part : String}

theorem endsWith_iff (text ending : String) :
    endsWith text ending = true ↔ ending.toList <:+ text.toList := by
  rw [endsWith, List.isPrefixOf_iff_prefix, reverse_prefix]

theorem Chars.dropLead?_eq_some_iff {lead rest : List Char} :
    dropLead? lead text = some rest ↔ text = lead ++ rest := by
  induction lead generalizing text with
  | nil => simp [dropLead?]
  | cons expected lead induction =>
    cases text with
    | nil => simp [dropLead?]
    | cons char text =>
      by_cases same : expected = char
      · simp [dropLead?, same, induction]
      · simp [dropLead?, same, Ne.symm same]

theorem dropStart?_eq_some_iff {text start rest : String} :
    dropStart? text start = some rest ↔ text = start ++ rest := by
  rw [dropStart?, Option.map_eq_some_iff, ← toList_inj, toList_append]
  constructor
  · rintro ⟨chars, dropped, rfl⟩
    rw [toList_ofList]
    exact Chars.dropLead?_eq_some_iff.mp dropped
  · intro whole
    exact ⟨rest.toList, Chars.dropLead?_eq_some_iff.mpr whole, ofList_toList⟩

theorem Chars.eq_of_cut? {after : List Char} (cut : cut? [mark] text = some (before, after)) :
    text = before ++ mark :: after ∧ mark ∉ before := by
  induction text generalizing before with
  | nil => simp [cut?] at cut
  | cons char rest induction =>
    by_cases atMark : mark = char
    · have here : [] = before ∧ rest = after := by simpa [cut?, dropLead?, atMark] using cut
      rcases here with ⟨rfl, rfl⟩
      simp [atMark]
    · have later : ∃ earlier, cut? [mark] rest = some (earlier, after) ∧
          char :: earlier = before := by
        simpa [cut?, dropLead?, atMark] using cut
      rcases later with ⟨earlier, found, rfl⟩
      have onward := induction found
      exact ⟨by rw [onward.1, cons_append], by simp [atMark, onward.2]⟩

theorem eq_of_cutLast? {text before after : String}
    (cut : cutLast? text (String.ofList [mark]) = some (before, after)) :
    text.toList = before.toList ++ mark :: after.toList ∧ mark ∉ after.toList := by
  have reversed : ∃ behind ahead, Chars.cut? [mark] text.toList.reverse = some (behind, ahead) ∧
      String.ofList ahead.reverse = before ∧ String.ofList behind.reverse = after := by
    simpa [cutLast?] using cut
  rcases reversed with ⟨behind, ahead, found, rfl, rfl⟩
  have whole := Chars.eq_of_cut? found
  rw [reverse_eq_iff] at whole
  simpa using whole

theorem dropLast_append (start ending : String) :
    dropLast (start ++ ending) ending.length = start := by
  rw [dropLast, ← String.length_toList, toList_append, length_append,
    Nat.add_sub_cancel, take_left, ofList_toList]

theorem dropEnding?_eq_some_iff {text ending start : String} :
    dropEnding? text ending = some start ↔ text = start ++ ending := by
  rw [dropEnding?, Option.ite_none_right_eq_some, Option.some.injEq]
  constructor
  · rintro ⟨ends, rfl⟩
    rcases exists_append_of_endsWith ends with ⟨start, rfl⟩
    rw [dropLast_append]
  · rintro rfl
    refine ⟨(endsWith_iff _ _).mpr ?_, dropLast_append start ending⟩
    rw [toList_append]
    exact suffix_append _ _

/-! ## Trimming -/

namespace Chars

variable (remove : Char → Bool)

theorem trimRight_append (text : List Char) :
    ∃ tail, text = trimRight remove text ++ tail ∧ ∀ char ∈ tail, remove char = true := by
  refine ⟨(text.reverse.takeWhile remove).reverse, ?_, ?_⟩
  · rw [trimRight, ← reverse_append, takeWhile_append_dropWhile, reverse_reverse]
  · intro char member
    exact mem_takeWhile_imp (mem_reverse.mp member)

theorem trimRight_ne_concat {start : List Char} {last : Char} (removed : remove last = true) :
    trimRight remove text ≠ start ++ [last] := by
  intro ends
  have first : text.reverse.dropWhile remove = last :: start.reverse := by
    have reversed := congrArg List.reverse ends
    simpa [trimRight] using reversed
  have kept := head?_dropWhile_not remove text.reverse
  rw [first] at kept
  cases removed.symm.trans kept

theorem trim_append (text : List Char) :
    ∃ lead tail, text = lead ++ trim remove text ++ tail ∧ (∀ char ∈ lead, remove char = true) ∧
      ∀ char ∈ tail, remove char = true := by
  rcases trimRight_append remove (text.dropWhile remove) with ⟨tail, rest, removed⟩
  refine ⟨text.takeWhile remove, tail, ?_, fun char => mem_takeWhile_imp, removed⟩
  rw [trim, append_assoc, ← rest, takeWhile_append_dropWhile]

variable {remove}

theorem trimRight_of_last {start : List Char} {last : Char} (kept : remove last = false)
    (rest : List Char) :
    trimRight remove (start ++ [last] ++ rest) = start ++ [last] ++ trimRight remove rest := by
  rw [trimRight, trimRight, reverse_append, dropWhile_append]
  split
  · rename_i empty
    rw [List.isEmpty_iff] at empty
    simp [empty, kept]
  · simp

end Chars

theorem exists_strip (text : String) :
    ∃ lead trail, text = lead ++ strip text ++ trail ∧
      (∀ char ∈ lead.toList, isBlank char = true) ∧ ∀ char ∈ trail.toList, isBlank char = true := by
  rcases Chars.trim_append isBlank text.toList with ⟨lead, trail, whole, leading, trailing⟩
  refine ⟨.ofList lead, .ofList trail, ?_, by simpa using leading, by simpa using trailing⟩
  rw [← toList_inj]
  simpa [strip] using whole

/-! ## Occurrences of a part -/

namespace Chars

variable {part : List Char}

theorem prefix_append_dropLast (before part text : List Char) :
    before ++ part.dropLast <+: before ++ part ++ text := by
  rw [append_assoc, prefix_append_right_inj]
  exact (List.dropLast_prefix part).trans (prefix_append part text)

theorem not_infix_dropLast (filled : part ≠ []) : ¬ part <:+: part.dropLast := by
  intro inside
  have long := inside.length_le
  have positive := length_pos_iff.mpr filled
  rw [length_dropLast] at long
  omega

theorem exists_first (filled : part ≠ []) (present : part <:+: text) :
    ∃ before after, text = before ++ part ++ after ∧ ¬ part <:+: before ++ part.dropLast := by
  induction text with
  | nil => exact absurd (infix_nil.mp present) filled
  | cons char rest induction =>
    by_cases here : part <+: char :: rest
    · rcases here with ⟨after, whole⟩
      exact ⟨[], after, whole.symm, not_infix_dropLast filled⟩
    · rcases induction ((infix_cons_iff.mp present).resolve_left here) with
        ⟨before, after, rfl, first⟩
      refine ⟨char :: before, after, rfl, fun earlier => ?_⟩
      refine (infix_cons_iff.mp earlier).elim (fun starts => here ?_) first
      exact starts.trans (prefix_append_dropLast (char :: before) part after)

/-- Texts are taken apart at the first occurrence of a part for as long as there is one. -/
theorem occurrence_induction (filled : part ≠ []) {motive : List Char → Prop}
    (absent : ∀ text, ¬ part <:+: text → motive text)
    (first : ∀ before text, ¬ part <:+: before ++ part.dropLast → motive text →
      motive (before ++ part ++ text)) (text : List Char) : motive text := by
  by_cases present : part <:+: text
  · rcases exists_first filled present with ⟨before, after, rfl, earliest⟩
    have shorter : after.length < (before ++ part ++ after).length := by
      have positive := length_pos_iff.mpr filled
      simp only [length_append]
      omega
    exact first before after earliest (occurrence_induction filled absent first after)
  · exact absent text present
termination_by text.length

/-! ### Splitting -/

theorem splitFrom_ne_nil (passing : Nat) (piece text : List Char) :
    splitFrom part passing piece text ≠ [] := by
  fun_induction splitFrom part passing piece text with
  | case1 => exact cons_ne_nil _ _
  | case2 passing piece char rest induction => exact induction
  | case3 => exact cons_ne_nil _ _
  | case4 piece char rest absent induction => exact induction

theorem splitFrom_drop (passing : Nat) (piece text : List Char) :
    splitFrom part passing piece text = splitFrom part 0 piece (text.drop passing) := by
  induction text generalizing passing with
  | nil => simp [splitFrom]
  | cons char rest induction =>
    cases passing with
    | zero => rfl
    | succ passing => rw [splitFrom, induction, drop_succ_cons]

theorem splitFrom_of_absent (piece : List Char) (absent : ¬ part <:+: text) :
    splitFrom part 0 piece text = [piece.reverse ++ text] := by
  induction text generalizing piece with
  | nil => simp [splitFrom]
  | cons char rest induction =>
    rw [infix_cons_iff, not_or, ← List.isPrefixOf_iff_prefix] at absent
    rw [splitFrom, if_neg absent.1, induction _ absent.2]
    simp

theorem splitFrom_first (filled : part ≠ []) (piece : List Char)
    (first : ¬ part <:+: before ++ part.dropLast) (text : List Char) :
    splitFrom part 0 piece (before ++ part ++ text) =
      (piece.reverse ++ before) :: splitFrom part 0 [] text := by
  induction before generalizing piece with
  | nil =>
    rcases exists_cons_of_ne_nil filled with ⟨char, rest, rfl⟩
    have starts : (char :: rest).isPrefixOf (char :: (rest ++ text)) = true :=
      List.isPrefixOf_iff_prefix.mpr (prefix_append (char :: rest) text)
    rw [nil_append, cons_append, splitFrom, if_pos starts, splitFrom_drop]
    simp
  | cons char before induction =>
    have whole := prefix_append_dropLast (char :: before) part text
    rw [cons_append, infix_cons_iff, not_or] at first
    have absent : ¬ part.isPrefixOf (char :: (before ++ part ++ text)) = true := by
      rw [List.isPrefixOf_iff_prefix]
      refine fun starts => first.1 (prefix_of_prefix_length_le starts whole ?_)
      simp only [length_cons, length_append, length_dropLast]
      omega
    rw [cons_append, cons_append, splitFrom, if_neg absent, induction _ first.2]
    simp

theorem split_ne_nil (text : List Char) : split part text ≠ [] :=
  splitFrom_ne_nil 0 [] text

theorem split_of_absent (absent : ¬ part <:+: text) : split part text = [text] :=
  splitFrom_of_absent [] absent

theorem split_first (filled : part ≠ []) (first : ¬ part <:+: before ++ part.dropLast)
    (text : List Char) :
    split part (before ++ part ++ text) = before :: split part text :=
  splitFrom_first filled [] first text

/-! ### Replacing -/

theorem intercalate_splitFrom (image : List Char) (passing : Nat) (piece text : List Char) :
    image.intercalate (splitFrom part passing piece text) =
      piece.reverse ++ replaceFrom part image passing text := by
  fun_induction splitFrom part passing piece text with
  | case1 => simp [replaceFrom]
  | case2 passing piece char rest induction => rw [replaceFrom, induction]
  | case3 piece char rest starts induction =>
    rw [replaceFrom, if_pos starts, intercalate_cons_of_ne_nil (splitFrom_ne_nil _ _ _), induction]
    simp
  | case4 piece char rest absent induction =>
    rw [replaceFrom, if_neg absent, induction]
    simp

/-- Replacing is splitting and joining with something else. -/
theorem replace_eq (part image text : List Char) :
    replace part image text = image.intercalate (split part text) :=
  (intercalate_splitFrom image 0 [] text).symm

theorem replace_of_absent (image : List Char) (absent : ¬ part <:+: text) :
    replace part image text = text := by
  rw [replace_eq, split_of_absent absent, intercalate_singleton]

theorem replace_first (filled : part ≠ []) (image : List Char)
    (first : ¬ part <:+: before ++ part.dropLast) (text : List Char) :
    replace part image (before ++ part ++ text) = before ++ image ++ replace part image text := by
  rw [replace_eq, replace_eq, split_first filled first,
    intercalate_cons_of_ne_nil (split_ne_nil text)]

theorem intercalate_split (filled : part ≠ []) (text : List Char) :
    part.intercalate (split part text) = text := by
  rw [← replace_eq]
  induction text using occurrence_induction filled with
  | absent text absent => exact replace_of_absent part absent
  | first before text first induction => rw [replace_first filled part first, induction]

theorem split_append (mark : Char) (left right : List Char) :
    split [mark] (left ++ mark :: right) = split [mark] left ++ split [mark] right :=
  splitFrom_append left right []

theorem split_intercalate (mark : Char) {pieces : List (List Char)} (filled : pieces ≠ []) :
    split [mark] ([mark].intercalate pieces) = pieces.flatMap (split [mark]) := by
  induction pieces with
  | nil => exact absurd rfl filled
  | cons first rest induction =>
    cases rest with
    | nil => simp
    | cons second rest =>
      rw [intercalate_cons_cons, append_assoc, singleton_append, split_append,
        induction (cons_ne_nil second rest)]
      rfl

theorem flatMap_split_split (mark : Char) (text : List Char) :
    (split [mark] text).flatMap (split [mark]) = split [mark] text := by
  rw [← split_intercalate mark (split_ne_nil text), intercalate_split (cons_ne_nil mark [])]

theorem length_split (mark : Char) (text : List Char) :
    (split [mark] text).length = text.count mark + 1 := by
  have filled : [mark] ≠ [] := cons_ne_nil mark []
  have absent {text : List Char} (free : ¬ [mark] <:+: text) : text.count mark = 0 :=
    count_eq_zero.mpr fun member => free ((singleton_infix_iff _ _).mpr member)
  induction text using occurrence_induction filled with
  | absent text free => rw [split_of_absent free, absent free, length_singleton]
  | first before text first induction =>
    rw [dropLast_singleton, append_nil] at first
    rw [split_first filled (by simpa using first), length_cons, induction, count_append,
      count_append, absent first, count_singleton_self]
    omega

theorem intercalate_cons (between first : List Char) (rest : List (List Char)) :
    between.intercalate (first :: rest) = first ++ rest.flatMap (between ++ ·) := by
  induction rest generalizing first with
  | nil => simp
  | cons second rest induction =>
    rw [intercalate_cons_cons, induction, flatMap_cons, append_assoc, append_assoc]

theorem exists_intercalate_insert (between : List Char) {above : List (List Char)}
    (below : List (List Char)) (filled : above ≠ []) :
    ∃ tail, between.intercalate (above ++ below) = between.intercalate above ++ tail ∧
      ∀ piece, between.intercalate (above ++ piece :: below) =
        between.intercalate above ++ between ++ piece ++ tail := by
  rcases exists_cons_of_ne_nil filled with ⟨first, rest, rfl⟩
  refine ⟨below.flatMap (between ++ ·), ?_, fun piece => ?_⟩
  · rw [cons_append, intercalate_cons, intercalate_cons, flatMap_append, append_assoc]
  · rw [cons_append, intercalate_cons, intercalate_cons, flatMap_append, flatMap_cons]
    simp only [append_assoc]

theorem infix_replace (filled : part ≠ []) (image : List Char) (present : part <:+: text) :
    image <:+: replace part image text := by
  rcases exists_first filled present with ⟨before, after, rfl, first⟩
  rw [replace_first filled image first]
  exact infix_append _ _ _

theorem countP_replace (test : Char → Bool) (filled : part ≠ [])
    (outside : ∀ char ∈ part, test char = false) (text : List Char) :
    (replace part [] text).countP test = text.countP test := by
  have none : part.countP test = 0 :=
    countP_eq_zero.mpr fun char member => by simp [outside char member]
  induction text using occurrence_induction filled with
  | absent text absent => rw [replace_of_absent [] absent]
  | first before text first induction =>
    rw [replace_first filled [] first, append_nil, countP_append, induction,
      countP_append, countP_append, none, Nat.add_zero]

theorem length_replace_le (filled : part ≠ []) (text : List Char) :
    (replace part [] text).length ≤ text.length := by
  induction text using occurrence_induction filled with
  | absent text absent => rw [replace_of_absent [] absent]
  | first before text first induction =>
    rw [replace_first filled [] first]
    simp only [length_append, length_nil]
    omega

theorem replace_eq_self_iff (filled : part ≠ []) (text : List Char) :
    replace part [] text = text ↔ ¬ part <:+: text := by
  refine ⟨fun same present => ?_, replace_of_absent []⟩
  rcases exists_first filled present with ⟨before, after, rfl, first⟩
  have lengths := congrArg List.length same
  have fewer := length_replace_le filled after
  have positive := length_pos_iff.mpr filled
  rw [replace_first filled [] first] at lengths
  simp only [length_append, length_nil] at lengths
  omega

/-- A part at the end is taken out by itself, if no end of the part is also its start. -/
theorem replace_append_part (filled : part ≠ [])
    (apart : ∀ count < part.length, 0 < count → ¬ part.drop count <+: part) (text : List Char) :
    replace part [] (text ++ part) = replace part [] text := by
  induction text using occurrence_induction filled with
  | first before text first induction =>
    rw [append_assoc, replace_first filled [] first, replace_first filled [] first, induction]
  | absent text absent =>
    -- An occurrence that reaches into the part at the end would start with an end of the part.
    have first : ¬ part <:+: text ++ part.dropLast := by
      rw [infix_append_iff]
      rintro (inside | inside | ⟨left, right, whole, ends, starts⟩)
      · exact absent inside
      · exact not_infix_dropLast filled inside
      · have within := starts.length_le
        have longer := congrArg List.length whole
        rw [length_dropLast] at within
        rw [length_append] at longer
        have positive := length_pos_iff.mpr filled
        refine apart left.length ?_ (by omega) ?_
        · refine lt_of_not_ge fun reaches => absent ?_
          have nothing : right = [] := length_eq_zero_iff.mp (by omega)
          rw [whole, nothing, append_nil]
          exact ends.isInfix
        · have again : part.drop left.length = right := by
            rw [whole, drop_left]
          rw [again]
          exact starts.trans (List.dropLast_prefix part)
    have last := replace_first filled [] first []
    rw [append_nil] at last
    rw [last, replace_of_absent [] absent]
    simp [replace, replaceFrom]

end Chars

theorem split_ne_nil (text : String) : split text "/" ≠ [] := by
  rw [split, ne_eq, map_eq_nil_iff]
  exact Chars.split_ne_nil text.toList

theorem toList_join (separator : String) (pieces : List String) :
    (join separator pieces).toList = separator.toList.intercalate (pieces.map String.toList) :=
  toList_ofList

theorem map_toList_split (text separator : String) :
    (split text separator).map String.toList = Chars.split separator.toList text.toList := by
  simp [split, Function.comp_def]

theorem join_split_mark (mark : Char) (text : String) :
    join (String.ofList [mark]) (split text (String.ofList [mark])) = text := by
  rw [← toList_inj, toList_join, map_toList_split, toList_ofList,
    Chars.intercalate_split (cons_ne_nil mark [])]

theorem join_split (text : String) : join "/" (split text "/") = text :=
  join_split_mark '/' text

theorem split_mark_cons {first : String} (free : mark ∉ first.toList) (rest : String) :
    split (first ++ String.ofList [mark] ++ rest) (String.ofList [mark]) =
      first :: split rest (String.ofList [mark]) := by
  simp [split, Chars.split, Chars.splitFrom_append, Chars.splitFrom_free free]

theorem split_join_mark (mark : Char) {pieces : List String} (filled : pieces ≠ [])
    (free : ∀ piece ∈ pieces, mark ∉ piece.toList) :
    split (join (String.ofList [mark]) pieces) (String.ofList [mark]) = pieces := by
  induction pieces with
  | nil => exact absurd rfl filled
  | cons first rest induction =>
    rcases forall_mem_cons.mp free with ⟨firstFree, restFree⟩
    cases rest with
    | nil => simp [split, Chars.split, Chars.splitFrom_free firstFree]
    | cons second rest =>
      rw [join_cons_cons, split_mark_cons firstFree, induction (cons_ne_nil second rest) restFree]

/-- Where there is something to replace, the image is found afterwards; otherwise nothing changes. -/
theorem replace_cases (text image : String) (filled : part ≠ "") :
    replace text part image = text ∨ contains (replace text part image) image = true := by
  by_cases present : part.toList <:+: text.toList
  · right
    rw [contains_iff, replace, toList_ofList]
    exact Chars.infix_replace (by simpa using filled) _ present
  · left
    rw [replace, Chars.replace_of_absent _ present, ofList_toList]

/-! ## Parts of texts -/

theorem contains_trans {text middle : String} (outer : contains text middle = true)
    (inner : contains middle part = true) : contains text part = true := by
  rw [contains_iff] at *
  exact inner.trans outer

theorem contains_left (text after : String) : contains (text ++ after) text = true := by
  rw [contains_iff, toList_append]
  exact (prefix_append _ _).isInfix

theorem contains_right (before text : String) : contains (before ++ text) text = true := by
  rw [contains_iff, toList_append]
  exact (suffix_append _ _).isInfix

theorem contains_append (before text after : String) : contains (before ++ text ++ after) text = true :=
  contains_trans (contains_left _ after) (contains_right before text)

theorem Chars.infix_intercalate (separator : List Char) {pieces : List (List Char)} {piece : List Char}
    (member : piece ∈ pieces) : piece <:+: separator.intercalate pieces := by
  induction pieces with
  | nil => exact absurd member not_mem_nil
  | cons first rest induction =>
    cases rest with
    | nil =>
      rw [intercalate_singleton]
      exact mem_singleton.mp member ▸ infix_rfl
    | cons second rest =>
      rw [intercalate_cons_cons]
      rcases mem_cons.mp member with rfl | later
      · rw [append_assoc]
        exact (prefix_append _ _).isInfix
      · exact (induction later).trans (suffix_append _ _).isInfix

theorem contains_join (separator : String) {pieces : List String} {piece : String}
    (member : piece ∈ pieces) : contains (join separator pieces) piece = true := by
  rw [contains_iff, join, toList_ofList]
  exact Chars.infix_intercalate _ (mem_map_of_mem member)

/-! ## Unified line breaks -/

namespace Chars

/-- Line breaks are unified part by part, if no pair of characters is torn apart. -/
theorem unifyBreaks_append (text : List Char) {rest : List Char} (apart : rest.head? ≠ some '\n') :
    unifyBreaks (text ++ rest) = unifyBreaks text ++ unifyBreaks rest := by
  fun_induction unifyBreaks text with
  | case1 => rfl
  | case2 text induction => simp [unifyBreaks, induction]
  | case3 char text noPair induction =>
    rw [cons_append, unifyBreaks, induction]
    · rfl
    · intro others same whole
      cases text with
      | nil =>
        rw [nil_append] at whole
        exact apart (congrArg List.head? whole)
      | cons next text =>
        exact noPair text same (congrArg (· :: text) (List.cons.inj whole).1)

theorem unifyBreaks_append_of_free (free : '\r' ∉ text) (rest : List Char) :
    unifyBreaks (text ++ rest) = text ++ unifyBreaks rest := by
  induction text with
  | nil => rfl
  | cons char text induction =>
    rw [mem_cons, not_or] at free
    have different : (char == '\r') = false := by simpa using Ne.symm free.1
    rw [cons_append, unifyBreaks, induction free.2, different]
    · rfl
    · exact fun _ same => absurd same (Ne.symm free.1)

theorem unifyBreaks_of_free (free : '\r' ∉ text) : unifyBreaks text = text := by
  have whole := unifyBreaks_append_of_free free []
  rwa [append_nil, unifyBreaks, append_nil] at whole

theorem free_unifyBreaks (text : List Char) : '\r' ∉ unifyBreaks text := by
  fun_induction unifyBreaks text with
  | case1 => exact not_mem_nil
  | case2 text induction => simp [induction]
  | case3 char text noPair induction =>
    by_cases same : char = '\r'
    · simp [same, induction]
    · simp [same, Ne.symm same, induction]

end Chars

theorem unifyBreaks_unifyBreaks (text : String) :
    unifyBreaks (unifyBreaks text) = unifyBreaks text := by
  rw [unifyBreaks, unifyBreaks, toList_ofList, Chars.unifyBreaks_of_free (Chars.free_unifyBreaks _)]

theorem contains_unifyBreaks {text : String} (noReturn : '\r' ∉ part.toList)
    (noBreak : '\n' ∉ part.toList) (found : contains text part = true) :
    contains (unifyBreaks text) part = true := by
  rw [contains_iff] at found ⊢
  rcases found with ⟨before, after, whole⟩
  by_cases empty : part.toList = []
  · rw [empty]
    exact nil_infix
  · have apart : (part.toList ++ after).head? ≠ some '\n' := by
      rw [head?_append_of_ne_nil _ empty]
      exact fun first => noBreak (mem_of_head? first)
    rw [unifyBreaks, toList_ofList, ← whole, append_assoc, Chars.unifyBreaks_append before apart,
      Chars.unifyBreaks_append_of_free noReturn, ← append_assoc]
    exact infix_append _ _ _

end CodeAtlas.Text
