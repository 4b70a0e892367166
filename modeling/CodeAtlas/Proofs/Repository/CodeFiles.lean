import CodeAtlas.Proofs.Repository.RootName

/-!
The code files that the default patterns let through. A file counts as code by its ending in
lowercase, but the patterns compare the ending as it is written, and not every ending of a language
has a pattern. The main statement says which of the files with an ending of a language are listed.
-/

namespace CodeAtlas.Repository

open List

variable {name pattern : String} {ending : List Char}

/-! ## Endings of names -/

theorem exists_ending (filled : (Path.splitName name).2 ≠ "") :
    ∃ stem ending, name.toList = stem ++ '.' :: ending ∧ '.' ∉ ending ∧
      (Path.splitName name).2 = String.ofList ('.' :: ending) := by
  rw [Path.splitName] at filled ⊢
  cases cut : Text.cutLast? name "." with
  | none => simp [cut] at filled
  | some parts =>
    rcases parts with ⟨stem, ending⟩
    have whole := Text.eq_of_cutLast? cut
    by_cases short : (stem == "" || ending == "") = true
    · simp [cut, short] at filled
    · refine ⟨stem.toList, ending.toList, whole.1, whole.2, ?_⟩
      rw [← String.toList_inj]
      simp [short]

theorem eq_of_mark_suffix {mark : Char} {text last : List Char} (ends : mark :: ending <:+ text)
    (other : mark :: last <:+ text) (free : mark ∉ ending) (lastFree : mark ∉ last) :
    ending = last := by
  have shorter : ∀ {left right : List Char}, mark :: left <:+ mark :: right → mark ∉ right →
      left = right := by
    intro left right within rightFree
    rcases suffix_cons_iff.mp within with same | inside
    · exact (List.cons.inj same).2
    · exact absurd (inside.subset mem_cons_self) rightFree
  rcases suffix_or_suffix_of_suffix ends other with within | within
  · exact shorter within lastFree
  · exact (shorter within free).symm

theorem dot_suffix_iff (filled : (Path.splitName name).2 ≠ "") (free : '.' ∉ ending) :
    '.' :: ending <:+ name.toList ↔ (Path.splitName name).2 = String.ofList ('.' :: ending) := by
  rcases exists_ending filled with ⟨stem, last, whole, lastFree, suffix⟩
  have ends : '.' :: last <:+ name.toList := ⟨stem, whole.symm⟩
  rw [suffix, String.ofList_inj]
  constructor
  · intro other
    rw [eq_of_mark_suffix other ends free lastFree]
  · intro same
    exact same ▸ ends

theorem suffix_after_slash_iff {before after : List Char} (free : '/' ∉ ending) :
    ending <:+ before ++ '/' :: after ↔ ending <:+ after := by
  have last : '/' :: after <:+ before ++ '/' :: after := suffix_append before _
  constructor
  · intro ends
    rcases suffix_or_suffix_of_suffix ends last with within | beyond
    · rcases suffix_cons_iff.mp within with rfl | inside
      · exact absurd mem_cons_self free
      · exact inside
    · exact absurd (beyond.subset mem_cons_self) free
  · intro ends
    exact ends.trans ((suffix_cons '/' after).trans last)

theorem suffix_join_concat_iff (above : List String) (name : String) (free : '/' ∉ ending) :
    ending <:+ (Text.join "/" (above ++ [name])).toList ↔ ending <:+ name.toList := by
  by_cases top : above = []
  · rw [top, nil_append, Text.join_singleton]
  · have whole : (Text.join "/" (above ++ [name])).toList =
        (Text.join "/" above).toList ++ '/' :: name.toList := by
      simp [Text.join_concat "/" name top]
    rw [whole, suffix_after_slash_iff free]

/-! ## Patterns of endings -/

/-- Whether a pattern is a star, a dot and characters that mean nothing else. -/
def isEndingPattern (pattern : String) : Bool :=
  match pattern.toList with
  | '*' :: '.' :: ending => ending.all fun char => Glob.isPlain char && char != '.' && char != '/'
  | _ => false

theorem exists_of_isEndingPattern (isEnding : isEndingPattern pattern = true) :
    ∃ ending, pattern = String.ofList ('*' :: '.' :: ending) ∧
      ('.' :: ending).all Glob.isPlain = true ∧ '.' ∉ ending ∧ '/' ∉ '.' :: ending := by
  rw [isEndingPattern] at isEnding
  split at isEnding
  · rename_i ending written
    have each : ∀ char ∈ ending, Glob.isPlain char = true ∧ char ≠ '.' ∧ char ≠ '/' := by
      simpa [and_assoc] using isEnding
    refine ⟨ending, ?_, ?_, ?_, ?_⟩
    · rw [← written, String.ofList_toList]
    · rw [all_cons, Bool.and_eq_true, all_eq_true]
      exact ⟨by decide, fun char member => (each char member).1⟩
    · exact fun member => (each '.' member).2.1 rfl
    · rw [mem_cons]
      rintro (first | member)
      · exact absurd first (by decide)
      · exact (each '/' member).2.2 rfl
  · cases isEnding

theorem defaultIncluded_endings : defaultIncluded.all isEndingPattern = true := by
  decide +kernel

section Included

variable {above : List String} {name : String} (filled : (Path.splitName name).2 ≠ "")

include filled

theorem isMatch_ending_iff (isEnding : isEndingPattern pattern = true) :
    (Glob.isMatch (Text.join "/" (above ++ [name])) pattern || Glob.isMatch name pattern) = true ↔
      "*" ++ (Path.splitName name).2 = pattern := by
  rcases exists_of_isEndingPattern isEnding with ⟨ending, rfl, plain, noDot, noSlash⟩
  rw [Bool.or_eq_true, Glob.isMatch_star_plain plain, Glob.isMatch_star_plain plain,
    suffix_join_concat_iff above name noSlash, or_self, dot_suffix_iff filled noDot]
  constructor
  · intro same
    rw [same, ← String.toList_inj]
    simp
  · intro same
    rw [← String.toList_inj] at same ⊢
    simpa using same

theorem takesIn_default_iff :
    (Selection.of none none).takesIn (Text.join "/" (above ++ [name])) name = true ↔
      "*" ++ (Path.splitName name).2 ∈ defaultIncluded := by
  have endings := all_eq_true.mp defaultIncluded_endings
  have patterns : (Selection.of none none).included = defaultIncluded := rfl
  have nonempty : defaultIncluded.isEmpty = false := rfl
  rw [Selection.takesIn, patterns, nonempty, Bool.false_or, any_eq_true]
  constructor
  · rintro ⟨pattern, member, matched⟩
    rwa [(isMatch_ending_iff filled (endings pattern member)).mp matched]
  · intro member
    exact ⟨_, member, (isMatch_ending_iff filled (endings _ member)).mpr rfl⟩

end Included

/-! ## The files of a language -/

def codeFileAt (place : List String) (language : String) : CodeFile :=
  let path := Text.join "/" place
  ⟨path, Path.name path, Text.lower (Path.suffix path), language⟩

/-- Without the default inclusion patterns everything that is not left out is taken. -/
theorem takes_default_iff {disk : Disk} {base place : List String} {file : FileTree}
    (unfiltered : (Selection.of (some []) none).Takes disk base place file) :
    (Selection.of none none).Takes disk base place file ↔
      (Selection.of none none).takesIn (Text.join "/" place)
        (Path.name (Text.join "/" place)) = true := by
  constructor
  · intro takes
    exact takes.included
  · intro included
    exact { unfiltered with included }

theorem Selection.Takes.exists_concat {selection : Selection} {disk : Disk}
    {base place : List String} {file : FileTree} (takes : selection.Takes disk base place file)
    {entries : List (String × FileTree)} (proper : disk.root.Proper)
    (isDirectory : disk.root.get? base = some (.directory entries)) :
    ∃ above name, place = above ++ [name] ∧ Path.name (Text.join "/" place) = name ∧
      Path.suffix (Text.join "/" place) = (Path.splitName name).2 := by
  rcases eq_nil_or_concat' place with rfl | ⟨above, name, rfl⟩
  · have member := ((takes_iff selection proper isDirectory).mp takes).1
    exact absurd rfl ((mem_descendantsOf_root_iff (proper.get? isDirectory).2).mp member).1
  · have each := forall_mem_append.mp takes.named
    have last := name_join_concat each.1 (each.2 name mem_cons_self)
    exact ⟨above, name, rfl, last, by rw [Path.suffix, last]⟩

theorem of?_of_language {path language : String} {size : Nat}
    (isName : Path.IsName (Path.name path))
    (known : languageOfExtension? (Text.lower (Path.suffix path)) = some language) :
    CodeFile.of? (Path.name path, path, size) =
      some ⟨path, Path.name path, Text.lower (Path.suffix path), language⟩ := by
  have own : Path.name (Path.name path) = Path.name path := by
    nth_rewrite 1 [Path.name]
    rw [Path.parts_of_isPart isName.toIsPart]
    rfl
  have same : Path.suffix (Path.name path) = Path.suffix path := by
    rw [Path.suffix, own, Path.suffix]
  simp [CodeFile.of?, same, known]

theorem path_of_of? {path : String} {size : Nat} {code : CodeFile}
    (isCode : CodeFile.of? (name, path, size) = some code) : code.path = path := by
  rw [CodeFile.of?, Option.map_eq_some_iff] at isCode
  rcases isCode with ⟨language, _, rfl⟩
  rfl

section Listed

variable {selection : Selection} {disk : Disk} {base place : List String} {file : FileTree}
  {entries : List (String × FileTree)} {language : String} (proper : disk.root.Proper)
  (isDirectory : disk.root.get? base = some (.directory entries))

include proper isDirectory

theorem codeFileAt_mem_iff (named : ∀ name ∈ place, Path.IsName name)
    (isName : Path.IsName (Path.name (Text.join "/" place)))
    (found : disk.get? (Disk.pathOf (base ++ place)) = some file)
    (known : languageOfExtension? (Text.lower (Path.suffix (Text.join "/" place))) =
      some language) :
    codeFileAt place language ∈
        ((FileTree.descendantsOf [] entries).filterMap selection.fileAt?).filterMap CodeFile.of? ↔
      selection.Takes disk base place file := by
  rw [mem_filterMap]
  constructor
  · rintro ⟨⟨name, path, size⟩, member, isCode⟩
    rcases (mem_taken_iff selection proper isDirectory).mp member with
      ⟨other, tree, takes, rfl, rfl, rfl⟩
    have samePath : Text.join "/" other = Text.join "/" place := (path_of_of? isCode).symm
    cases Path.join_injective (fun name member => (takes.named name member).toIsPart)
      (fun name member => (named name member).toIsPart) samePath
    cases takes.found.symm.trans found
    exact takes
  · intro takes
    have member := (mem_taken_iff selection proper isDirectory).mpr
      ⟨place, file, takes, rfl, rfl, rfl⟩
    exact ⟨_, member, of?_of_language isName known⟩

theorem codeFileAt_mem_default_iff
    (unfiltered : (Selection.of (some []) none).Takes disk base place file)
    (known : languageOfExtension? (Text.lower (Path.suffix (Text.join "/" place))) =
      some language) :
    codeFileAt place language ∈
        ((FileTree.descendantsOf [] entries).filterMap (Selection.of none none).fileAt?).filterMap
          CodeFile.of? ↔
      "*" ++ Path.suffix (Text.join "/" place) ∈ defaultIncluded := by
  rcases unfiltered.exists_concat proper isDirectory with ⟨above, name, rfl, last, suffix⟩
  have filled : (Path.splitName name).2 ≠ "" := by
    intro empty
    rw [suffix, empty] at known
    exact absurd known (by decide +revert)
  have isName : Path.IsName (Path.name (Text.join "/" (above ++ [name]))) := by
    rw [last]
    exact unfiltered.named name (mem_append_right above mem_cons_self)
  rw [codeFileAt_mem_iff proper isDirectory unfiltered.named isName unfiltered.found known,
    takes_default_iff unfiltered, last, suffix, takesIn_default_iff filled]

end Listed

/-- Of the files that the inclusion patterns could let through, those with an ending of a language
are listed exactly if their suffix, as it is written, has a pattern. -/
theorem code_file_listed_iff (disk : Disk) (path : String) (base : List String)
    (entries : List (String × FileTree)) (proper : disk.root.Proper)
    (position : disk.entryPosition path = .ok base)
    (isDirectory : disk.root.get? base = some (.directory entries))
    (kept : (Selection.of none none).leavesOut "." (Path.name path) = false) :
    ∃ found files, structureAt (.of none none) disk path = .ok found ∧
      codeFiles found.toJson = .ok files ∧
      ∀ place file language, (Selection.of (some []) none).Takes disk base place file →
        languageOfExtension? (Text.lower (Path.suffix (Text.join "/" place))) = some language →
        (codeFileAt place language ∈ files ↔
          "*" ++ Path.suffix (Text.join "/" place) ∈ defaultIncluded) := by
  have listed := fileNodes_root (.of none none) (proper.get? isDirectory).2 (Path.name path)
  rw [← Structure.files_eq_fileNodes] at listed
  refine ⟨_, _, structureAt_eq_ok (.of none none) position isDirectory kept, codeFiles_toJson _, ?_⟩
  intro place file language unfiltered known
  rw [listed]
  exact codeFileAt_mem_default_iff proper isDirectory unfiltered known

/-- Whether a pattern leaves out an entry of the root directory with a name. -/
def excludesTop (name pattern : String) : Bool :=
  decide ((NameRule.ofPattern pattern).Fits name) ||
    (Text.endsWith pattern "/" && Text.startsWith name (Text.stripRightChars pattern ['/'])) ||
    name == pattern

/-- In the root directory the path of an entry is its name, so that the other tests say nothing
new. -/
theorem excludes_top_eq (free : '/' ∉ name.toList)
    (telling : (NameRule.ofPattern pattern).isTelling = true) :
    excludes name name pattern = excludesTop name pattern := by
  rw [NameRule.isTelling, Bool.and_eq_true] at telling
  have matched : Glob.isMatch name pattern = decide ((NameRule.ofPattern pattern).Fits name) := by
    rw [Bool.eq_iff_iff, decide_eq_true_iff, ← NameRule.isMatch_chars_iff telling.1,
      NameRule.ofPattern, NameRule.chars_ofChars, String.ofList_toList]
  have notAbove : Text.startsWith name (pattern ++ "/") = false := by
    rw [← Bool.not_eq_true, Text.startsWith_iff, String.toList_append]
    exact fun starts => free (starts.subset mem_concat_self)
  have parts : (Text.split name "/").contains pattern = (name == pattern) := by
    rw [Text.split_of_free free, Bool.eq_iff_iff, contains_iff_mem, mem_singleton, beq_iff_eq]
    exact eq_comm
  rw [excludes, excludesTop, matched, notAbove, parts]
  simp [Bool.or_assoc]

theorem leavesOut_top_eq (included : Option (List String)) (free : '/' ∉ name.toList) :
    (Selection.of included none).leavesOut name name = defaultIgnored.any (excludesTop name) := by
  have telling := all_eq_true.mp defaultIgnored_telling
  have patterns : (Selection.of included none).excluded = defaultIgnored := append_nil _
  rw [Selection.leavesOut, patterns, Bool.eq_iff_iff, any_eq_true, any_eq_true]
  apply exists_congr
  intro pattern
  apply and_congr_right
  intro member
  rw [excludes_top_eq free (telling pattern member)]

/-- A repository with a file of C++ and one of Python. -/
def engineDisk : Disk where
  root := .directory [
    ("work", .directory [("engine.cc", .file "int run();"), ("main.py", .file "main()")])]
  current := []

theorem engineDisk_position : engineDisk.entryPosition "/work" = .ok ["work"] := by
  have top : Disk.Straight engineDisk.root [] := .nil engineDisk.root
  have text : "/work" = Disk.pathOf ([] ++ ["work"]) := by decide +kernel
  rw [text]
  exact top.entryPosition_of_directory (by decide) rfl

theorem engineDisk_kept :
    (Selection.of none none).leavesOut "." (Path.name "/work") = false := by
  rw [← Bool.not_eq_true, leavesOut_root_iff]
  decide +kernel

theorem engineDisk_takes {text : String} (member : (name, FileTree.file text) ∈
      [("engine.cc", FileTree.file "int run();"), ("main.py", .file "main()")])
    (isName : Path.IsName name) (kept : defaultIgnored.any (excludesTop name) = false) :
    (Selection.of (some []) none).Takes engineDisk ["work"] [name] (.file text) := by
  have above : ∀ part ∈ ([] : List String), Path.IsName part :=
    forall_mem_nil _
  have admits := (Selection.admits_concat_iff above isName).mpr
    ⟨(Selection.of (some []) none).admits_nil, by simpa [leavesOut_top_eq _ isName.noSlash] using kept⟩
  rw [takes_iff _ (by decide) rfl]
  refine ⟨?_, rfl, admits, rfl⟩
  simpa [FileTree.descendantsOf, FileTree.descendants] using member

theorem main_listed :
    engineDisk.root.Proper ∧ engineDisk.entryPosition "/work" = .ok ["work"] ∧
      (Selection.of none none).leavesOut "." (Path.name "/work") = false ∧
      (Selection.of (some []) none).Takes engineDisk ["work"] ["main.py"] (.file "main()") ∧
      ∃ found files, structureAt (.of none none) engineDisk "/work" = .ok found ∧
        codeFiles found.toJson = .ok files ∧ codeFileAt ["main.py"] "python" ∈ files := by
  have proper : engineDisk.root.Proper := by decide
  have takes : (Selection.of (some []) none).Takes engineDisk ["work"] ["main.py"]
      (.file "main()") := engineDisk_takes (by simp) (by decide) (by decide +kernel)
  rcases code_file_listed_iff engineDisk "/work" ["work"] _ proper engineDisk_position rfl
    engineDisk_kept with ⟨found, files, built, listed, each⟩
  have here := each ["main.py"] (.file "main()") "python" takes (by decide +kernel)
  exact ⟨proper, engineDisk_position, engineDisk_kept, takes, found, files, built, listed,
    here.mpr (by decide +kernel)⟩

/-- The file of C++ is no link and not left out, and its ending belongs to a language that is
analyzed; still it is not listed. -/
theorem engine_unlisted :
    (Selection.of (some []) none).Takes engineDisk ["work"] ["engine.cc"] (.file "int run();") ∧
      languageOfExtension? (Text.lower (Path.suffix (Text.join "/" ["engine.cc"]))) = some "cpp" ∧
      "cpp" ∈ analyzedLanguages ∧
      ∃ found files, structureAt (.of none none) engineDisk "/work" = .ok found ∧
        codeFiles found.toJson = .ok files ∧ codeFileAt ["engine.cc"] "cpp" ∉ files := by
  have proper : engineDisk.root.Proper := by decide
  have takes : (Selection.of (some []) none).Takes engineDisk ["work"] ["engine.cc"]
      (.file "int run();") := engineDisk_takes (by simp) (by decide) (by decide +kernel)
  have known : languageOfExtension? (Text.lower (Path.suffix (Text.join "/" ["engine.cc"]))) =
      some "cpp" := by decide +kernel
  have inside : engineDisk.root.get? ["work"] = some (.directory
      [("engine.cc", .file "int run();"), ("main.py", .file "main()")]) := rfl
  have listed := fileNodes_root (.of none none) (proper.get? inside).2 (Path.name "/work")
  rw [← Structure.files_eq_fileNodes] at listed
  refine ⟨takes, known, by decide, _, _,
    structureAt_eq_ok (.of none none) engineDisk_position inside engineDisk_kept,
    codeFiles_toJson _, ?_⟩
  rw [listed, codeFileAt_mem_default_iff proper inside takes known]
  decide +kernel

end CodeAtlas.Repository
