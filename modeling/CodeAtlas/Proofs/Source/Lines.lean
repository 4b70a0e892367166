import CodeAtlas.Source.Analysis
import CodeAtlas.Proofs.Source.C
import CodeAtlas.Proofs.Source.CSharp
import CodeAtlas.Proofs.Source.Cpp
import CodeAtlas.Proofs.Source.Java
import CodeAtlas.Proofs.Text

/-!
The text of a component and the rows that its node spans. Rows end at line feeds, but the text is
cut out of lines, which end at form feeds and other breaks as well. Behind rows without such breaks
a component has the text of its rows exactly if these have none either.
-/

namespace CodeAtlas

open List

/-! ## Rows -/

theorem toList_loop (bytes : ByteArray) (index : Nat) (done : List UInt8) :
    ByteArray.toList.loop bytes index done = done.reverse ++ bytes.data.toList.drop index := by
  fun_induction ByteArray.toList.loop bytes index done with
  | case1 index done inside induction =>
    have next : bytes.data.toList.drop index =
        bytes.get! index :: bytes.data.toList.drop (index + 1) := by
      rw [drop_eq_getElem_cons (by simpa using inside)]
      simp [ByteArray.get!, inside]
    rw [induction, next, reverse_cons, append_assoc, singleton_append]
  | case2 index done outside =>
    have ended : bytes.data.toList.drop index = [] := by simpa using outside
    rw [ended, append_nil]

theorem toList_toUTF8 (text : String) :
    text.toUTF8.toList = text.toList.flatMap String.utf8EncodeChar := by
  rw [ByteArray.toList, toList_loop, String.toUTF8_eq_toByteArray, ← String.utf8Encode_toList]
  simp [List.utf8Encode]

/-- A line feed is one byte, and no other character holds that byte. -/
theorem count_utf8EncodeChar (char : Char) :
    (String.utf8EncodeChar char).count 10 = [char].count '\n' := by
  by_cases feed : char = '\n'
  · subst feed
    rfl
  · have absent : [char].count '\n' = 0 := by simp [feed]
    have other : char.val.toNat ≠ 10 := by
      rw [Char.ext_iff, ← UInt32.toNat_inj] at feed
      exact feed
    have apart (number : Nat) (small : number < 256) (different : number ≠ 10) :
        (10 : UInt8) ≠ UInt8.ofNat number := by
      rw [ne_comm, ne_eq, ← UInt8.toNat_inj, UInt8.toNat_ofNat_of_lt' small]
      exact different
    rw [absent, count_eq_zero]
    unfold String.utf8EncodeChar
    dsimp only
    split <;> [skip; split <;> [skip; split]] <;>
      simp (disch := omega) only [mem_cons, not_mem_nil, apart, not_false_eq_true, or_self]

theorem count_toUTF8 (text : String) : text.toUTF8.toList.count 10 = text.toList.count '\n' := by
  rw [toList_toUTF8]
  induction text.toList with
  | nil => rfl
  | cons char rest induction =>
    rw [flatMap_cons, count_append, induction, count_utf8EncodeChar,
      ← count_append, singleton_append]

theorem Source.row_lt (source : Source) (offset : Nat) :
    source.row offset < (Text.split source.text "\n").length := by
  have rows : (Text.split source.text "\n").length = source.bytes.toList.count 10 + 1 := by
    rw [Text.split, length_map, bytes, count_toUTF8]
    exact Text.Chars.length_split '\n' source.text.toList
  rw [rows]
  exact Nat.lt_succ_of_le ((take_sublist _ _).count_le _)

/-! ## Lines -/

namespace Text.Chars

/-- A row without any break in it. -/
def Unbroken (row : List Char) : Prop := ∀ char ∈ row, isLineBreak char = false

variable {row : List Char}

theorem linesFrom_unbroken (unbroken : Unbroken row) (line rest : List Char) :
    linesFrom line (row ++ rest) = linesFrom (row.reverse ++ line) rest := by
  induction row generalizing line with
  | nil => rfl
  | cons char row induction =>
    have plain : isLineBreak char = false := unbroken char mem_cons_self
    have noReturn : char ≠ '\r' := by
      rintro rfl
      exact absurd plain (by decide)
    rw [cons_append, linesFrom, plain, reverse_cons, append_assoc]
    · exact induction (fun other member => unbroken other (mem_cons_of_mem char member)) _
    · exact fun _ same => absurd same noReturn

theorem linesFrom_break {char : Char} (breaks : isLineBreak char = true) (noReturn : char ≠ '\r')
    (unbroken : Unbroken row) (rest : List Char) :
    linesFrom [] (row ++ char :: rest) = row :: linesFrom [] rest := by
  rw [linesFrom_unbroken unbroken, linesFrom, if_pos breaks, append_nil, reverse_reverse]
  exact fun _ same => absurd same noReturn

theorem linesFrom_cons {rows : List (List Char)} (unbroken : Unbroken row) (filled : rows ≠ []) :
    linesFrom [] (['\n'].intercalate (row :: rows)) =
      row :: linesFrom [] (['\n'].intercalate rows) := by
  rw [intercalate_cons_of_ne_nil filled, append_assoc, singleton_append,
    linesFrom_break rfl (by decide) unbroken]

theorem linesFrom_append {above below : List (List Char)}
    (unbroken : ∀ row ∈ above, Unbroken row) (filled : below ≠ []) :
    linesFrom [] (['\n'].intercalate (above ++ below)) =
      above ++ linesFrom [] (['\n'].intercalate below) := by
  induction above with
  | nil => rfl
  | cons row above induction =>
    rw [cons_append, linesFrom_cons (unbroken row mem_cons_self) (by simp [filled]),
      induction fun other member => unbroken other (mem_cons_of_mem row member)]
    rfl

theorem linesFrom_last (unbroken : Unbroken row) :
    linesFrom [] row = if row.isEmpty then [] else [row] := by
  have whole := linesFrom_unbroken unbroken [] []
  rwa [append_nil, append_nil, linesFrom, isEmpty_reverse,
    reverse_reverse] at whole

theorem split_unbroken (unbroken : Unbroken row) : split ['\n'] row = [row] := by
  apply split_of_absent
  intro inside
  exact absurd (unbroken '\n' ((singleton_infix_iff _ _).mp inside)) (by decide)

/-- As many lines as there are rows are these rows exactly if no row has a break in it; the last
row may be left out if it is empty. -/
theorem lines_prefix_iff {own : List (List Char)} (noReturn : ∀ row ∈ own, '\r' ∉ row)
    (after : List (List Char)) :
    ((linesFrom [] (['\n'].intercalate (own ++ after))).take own.length).flatMap (split ['\n']) <+:
      own ++ after ↔ ∀ row ∈ own, Unbroken row := by
  induction own with
  | nil => simp
  | cons row own induction =>
    have onward := induction fun other member => noReturn other (mem_cons_of_mem row member)
    rw [cons_append, forall_mem_cons]
    cases found : row.find? isLineBreak with
    | none =>
      have unbroken : Unbroken row := by simpa [Unbroken] using found
      by_cases filled : own ++ after = []
      · rw [filled, intercalate_singleton, linesFrom_last unbroken]
        rw [append_eq_nil_iff] at filled
        rw [filled.1]
        cases row with
        | nil => simpa using unbroken
        | cons char row => simpa [split_unbroken unbroken] using unbroken
      · rw [linesFrom_cons unbroken filled]
        simpa [split_unbroken unbroken, unbroken] using onward
    | some char =>
      -- The break ends a line that is shorter than the row.
      rcases find?_eq_some_iff_append.mp found with ⟨breaks, line, rest, rfl, earlier⟩
      have unbroken : Unbroken line := by simpa [Unbroken] using earlier
      have noReturn : char ≠ '\r' := by
        rintro rfl
        exact noReturn _ mem_cons_self (by simp)
      have broken : ¬ Unbroken (line ++ char :: rest) := fun all =>
        Bool.noConfusion ((all char (by simp)).symm.trans breaks)
      rw [intercalate_cons, append_assoc, cons_append, linesFrom_break breaks noReturn unbroken]
      simp [split_unbroken unbroken, broken]

theorem split_lines_prefix_iff {own : List (List Char)} (filled : own ≠ [])
    (noReturn : ∀ row ∈ own, '\r' ∉ row) (after : List (List Char)) :
    split ['\n'] (['\n'].intercalate
      ((linesFrom [] (['\n'].intercalate (own ++ after))).take own.length)) <+: own ++ after ↔
      ∀ row ∈ own, Unbroken row := by
  have lines := lines_prefix_iff noReturn after
  by_cases empty : (linesFrom [] (['\n'].intercalate (own ++ after))).take own.length = []
  · rw [empty] at lines ⊢
    have unbroken := lines.mp nil_prefix
    rcases exists_cons_of_ne_nil filled with ⟨row, own, rfl⟩
    refine iff_of_true ?_ unbroken
    have first := unbroken row mem_cons_self
    by_cases more : own ++ after = []
    · rw [cons_append, more, intercalate_singleton, linesFrom_last first] at empty
      cases row with
      | nil => simp [split, splitFrom]
      | cons char row => simp at empty
    · rw [cons_append, linesFrom_cons first more] at empty
      simp at empty
  · rw [split_intercalate _ empty, lines]

theorem cut_prefix_iff {text : List Char} (noReturn : '\r' ∉ text) {first count : Nat}
    (filled : 0 < count) (inside : first + count ≤ (split ['\n'] text).length)
    (clean : ∀ row ∈ (split ['\n'] text).take first, Unbroken row) :
    split ['\n'] (['\n'].intercalate (((linesFrom [] text).drop first).take count)) <+:
      (split ['\n'] text).drop first ↔
      ∀ row ∈ ((split ['\n'] text).drop first).take count, Unbroken row := by
  have joined := intercalate_split (cons_ne_nil '\n' []) text
  have free : ∀ row ∈ split ['\n'] text, '\r' ∉ row := fun row member held =>
    noReturn (((mem_splitFrom not_mem_nil member).2 _ held).resolve_left not_mem_nil)
  generalize split ['\n'] text = rows at *
  have length : ((rows.drop first).take count).length = count := by
    rw [length_take, length_drop]
    omega
  have own : (rows.drop first).take count ≠ [] :=
    ne_nil_of_length_pos (Nat.lt_of_lt_of_eq filled length.symm)
  have below : rows.drop first ≠ [] := fun empty => own (by rw [empty, take_nil])
  have lines : (linesFrom [] text).drop first =
      linesFrom [] (['\n'].intercalate (rows.drop first)) := by
    rw [← joined, ← take_append_drop first rows, linesFrom_append clean below,
      take_append_drop, drop_left' (length_take_of_le (by omega))]
  have cut := split_lines_prefix_iff own
    (fun row member => free row (mem_of_mem_drop (mem_of_mem_take member)))
    ((rows.drop first).drop count)
  rwa [take_append_drop, length, ← lines] at cut

end Text.Chars

/-! ## Components -/

namespace Source

theorem toList_excerpt (source : Source) (first last : Nat) :
    (source.excerpt first last).toList = ['\n'].intercalate
      (((Text.Chars.linesFrom [] source.text.toList).drop first).take (last + 1 - first)) := by
  rw [excerpt, Text.toList_join, Text.lines]
  simp [← map_drop, ← map_take, Function.comp_def]

theorem excerpt_rows_iff {source : Source} (noReturn : '\r' ∉ source.text.toList) {first last : Nat}
    (ordered : first ≤ last) (inside : last < (Text.split source.text "\n").length)
    (clean : ∀ row ∈ (Text.split source.text "\n").take first, Text.Chars.Unbroken row.toList) :
    Text.split (source.excerpt first last) "\n" <+: (Text.split source.text "\n").drop first ↔
      ∀ row ∈ ((Text.split source.text "\n").drop first).take (last + 1 - first),
        Text.Chars.Unbroken row.toList := by
  have injective : Function.Injective String.ofList := fun _ _ => String.ofList_injective
  have rows (text : String) :
      Text.split text "\n" = (Text.Chars.split ['\n'] text.toList).map String.ofList := rfl
  simp only [rows, ← map_take, ← map_drop, forall_mem_map, String.toList_ofList,
    length_map] at clean inside ⊢
  rw [prefix_map_iff_of_injective injective, toList_excerpt]
  exact Text.Chars.cut_prefix_iff noReturn (by omega) (by omega) clean

theorem exists_declared {language : String} (known : language ∈ ["c", "cpp", "java", "csharp"])
    {source : Source} {tree : SyntaxTree} {findings : Findings}
    (analyzed : source.analyzeTree language tree = .ok findings) :
    ∃ stem, findings.Declared source stem := by
  simp only [mem_cons, not_mem_nil, or_false] at known
  rcases known with rfl | rfl | rfl | rfl
  · exact ⟨_, C.declared_analyze source tree findings analyzed⟩
  · exact ⟨_, Cpp.declared_analyze source tree findings analyzed⟩
  · exact ⟨_, Java.declared_analyze source tree findings analyzed⟩
  · exact ⟨_, CSharp.declared_analyze source tree findings analyzed⟩

end Source

namespace Component

/-- The rows of the file from the first line of a component on. -/
def rowsFrom (source : Source) (component : Component) : List String :=
  (Text.split source.text "\n").drop (component.startLine - 1).toNat

/-- The text of a component has the rows of the file from its first line on. -/
def CarriesRows (source : Source) (component : Component) : Prop :=
  ∃ text, component.source = some text ∧ Text.split text "\n" <+: component.rowsFrom source

/-- Behind rows without breaks in them, a component carries the rows that it spans exactly if
there are no breaks in these either. -/
theorem carriesRows_iff {language : String} (known : language ∈ ["c", "cpp", "java", "csharp"])
    {source : Source} (noReturn : '\r' ∉ source.text.toList)
    {tree : SyntaxTree} {findings : Findings}
    (analyzed : source.analyzeTree language tree = .ok findings) {component : Component}
    (member : component ∈ findings.components) (ordered : component.startLine ≤ component.endLine)
    (clean : ∀ row ∈ (Text.split source.text "\n").take (component.startLine - 1).toNat,
      Text.Chars.Unbroken row.toList) :
    component.CarriesRows source ↔
      ∀ row ∈ (component.rowsFrom source).take (component.endLine + 1 - component.startLine).toNat,
        Text.Chars.Unbroken row.toList := by
  rcases Source.exists_declared known analyzed with ⟨stem, declared⟩
  rcases declared component member with ⟨node, _, _, _, _, _, _, rfl⟩
  have first : ((source.startLine node : Int) - 1).toNat = source.startRow node := by
    simp [Source.startLine]
  have count : ((source.endLine node : Int) + 1 - source.startLine node).toNat =
      source.endRow node + 1 - source.startRow node := by
    simp only [Source.startLine, Source.endLine]
    omega
  have rows : source.startRow node ≤ source.endRow node := by
    simp only [Source.component, Source.startLine, Source.endLine] at ordered
    omega
  simp only [CarriesRows, rowsFrom, Source.component, first, count, Option.some.injEq,
    exists_eq_left'] at clean ⊢
  exact Source.excerpt_rows_iff noReturn rows (source.row_lt node.stop) clean

/-- Two declarations with a form feed on the row between them. -/
def pagedSource : Source := ⟨"shop.c", "", "struct a;\n\x0c\nstruct b;\n"⟩

def pagedTree : SyntaxTree :=
  .node "translation_unit" 0 22 [
    .node "struct_specifier" 0 8 [.node "type_identifier" 7 8 []],
    .node "struct_specifier" 12 20 [.node "type_identifier" 19 20 []]]

theorem exists_paged :
    ∃ findings before behind, pagedSource.analyzeTree "c" pagedTree = .ok findings ∧
      findings.components = [before, behind] ∧ before.startLine = 1 ∧ before.endLine = 1 ∧
      behind.startLine = 3 ∧ behind.endLine = 3 ∧ behind.source = some "" :=
  ⟨_, _, _, rfl, rfl, by decide +kernel, by decide +kernel, by decide +kernel, by decide +kernel,
    by decide +kernel⟩

theorem carriesRows_before_feed :
    ∃ findings component, pagedSource.analyzeTree "c" pagedTree = .ok findings ∧
      component ∈ findings.components ∧ component.startLine = 1 ∧
      component.CarriesRows pagedSource := by
  rcases exists_paged with ⟨findings, before, behind, analyzed, listed, first, last, _⟩
  have member : before ∈ findings.components := by simp [listed]
  have plain : ((before.rowsFrom pagedSource).take
      (before.endLine + 1 - before.startLine).toNat).all
        (fun row => row.toList.all (!Text.isLineBreak ·)) = true := by
    rw [rowsFrom, first, last]
    decide +kernel
  refine ⟨findings, before, analyzed, member, first, ?_⟩
  apply (carriesRows_iff (by decide) (by decide +kernel) analyzed member (by omega) ?_).mpr
  · simpa [Text.Chars.Unbroken] using plain
  · rw [first]
    exact fun row absent => absurd absent List.not_mem_nil

/-- Behind the form feed the text is that of an earlier line. -/
theorem not_carriesRows_behind_feed :
    '\r' ∉ pagedSource.text.toList ∧
      ∃ findings component, pagedSource.analyzeTree "c" pagedTree = .ok findings ∧
        component ∈ findings.components ∧ component.startLine ≤ component.endLine ∧
        ¬ component.CarriesRows pagedSource := by
  rcases exists_paged with ⟨findings, before, behind, analyzed, listed, _, _, first, last, cut⟩
  refine ⟨by decide +kernel, findings, behind, analyzed, by simp [listed], by omega, ?_⟩
  rintro ⟨text, same, starts⟩
  rw [cut] at same
  rw [← Option.some.inj same, rowsFrom, first] at starts
  exact absurd starts (by decide +kernel)

end Component

end CodeAtlas
