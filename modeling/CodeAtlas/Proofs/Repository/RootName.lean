import CodeAtlas.Proofs.Glob
import CodeAtlas.Proofs.Repository.Structure
import CodeAtlas.Proofs.Text

/-!
The name of a repository's own directory. The walk asks for the root as for every other entry
whether it is left out, with a single dot for its path and with the name of the directory. So there
are names with which a repository has no structure; the first main statement says which ones these
are under the default patterns. The second one is about a pattern that names a directory: it leaves
out more than that directory, namely every path that starts with the same letters.
-/

namespace CodeAtlas.Repository

open List

/-! ## Patterns as rules for names -/

/-- What a pattern with stars nowhere but at its ends says of a name: that it is a text, that it
ends with one, or that one stands in it. -/
inductive NameRule where
  | whole (text : List Char)
  | ending (text : List Char)
  | inside (text : List Char)

namespace NameRule

def text : NameRule → List Char
  | .whole text | .ending text | .inside text => text

def ofChars : List Char → NameRule
  | '*' :: rest => if rest.getLast? = some '*' then .inside rest.dropLast else .ending rest
  | text => .whole text

def ofPattern (pattern : String) : NameRule := ofChars pattern.toList

/-- The pattern that a rule is written as. -/
def chars : NameRule → List Char
  | .whole text => text
  | .ending text => '*' :: text
  | .inside text => '*' :: (text ++ ['*'])

def Fits (name : String) : NameRule → Prop
  | .whole text => name.toList = text
  | .ending text => text <:+ name.toList
  | .inside text => text <:+: name.toList

instance (name : String) : (rule : NameRule) → Decidable (rule.Fits name)
  | .whole text => inferInstanceAs (Decidable (name.toList = text))
  | .ending text => inferInstanceAs (Decidable (text <:+ name.toList))
  | .inside text => inferInstanceAs (Decidable (text <:+: name.toList))

theorem chars_ofChars (pattern : List Char) : (ofChars pattern).chars = pattern := by
  fun_cases ofChars pattern with
  | case1 rest closed => rw [chars, dropLast_append_getLast? _ closed]
  | case2 rest closed => rfl
  | case3 text => rfl

theorem text_subset_chars (rule : NameRule) : rule.text ⊆ rule.chars := by
  cases rule with
  | whole text => exact List.Subset.refl text
  | ending text => exact subset_cons_self '*' text
  | inside text => exact fun _ member => mem_cons_of_mem '*' (mem_append_left _ member)

theorem Fits.text_subset {name : String} {rule : NameRule} (fits : rule.Fits name) :
    rule.text ⊆ name.toList := by
  cases rule with
  | whole text => exact fits.symm ▸ List.Subset.refl _
  | ending text => exact List.IsSuffix.subset fits
  | inside text => exact List.IsInfix.subset fits

theorem isMatch_chars_iff {rule : NameRule} (plain : rule.text.all Glob.isPlain = true)
    (name : String) : Glob.isMatch name (String.ofList rule.chars) = true ↔ rule.Fits name := by
  cases rule with
  | whole text => exact Glob.isMatch_plain plain name
  | ending text => exact Glob.isMatch_star_plain plain name
  | inside text => exact Glob.isMatch_star_plain_star plain name

/-- A rule of plain characters, at least one of which stands neither in the path of the root nor
between the names of a path. -/
def isTelling (rule : NameRule) : Bool :=
  rule.text.all Glob.isPlain && rule.text.any fun char => char != '.' && char != '/'

end NameRule

/-! ## The root -/

theorem mem_stripRightChars {char : Char} {text : String} (member : char ∈ text.toList)
    (notSlash : char ≠ '/') : char ∈ (Text.stripRightChars text ['/']).toList := by
  rcases Text.Chars.trimRight_append (['/'].contains ·) text.toList with ⟨tail, whole, slashes⟩
  rw [whole, mem_append] at member
  rw [Text.stripRightChars, String.toList_ofList]
  exact member.resolve_right fun last => notSlash (by simpa using slashes char last)

theorem excludes_dot_iff (name : String) {pattern : String}
    (telling : (NameRule.ofPattern pattern).isTelling = true) :
    excludes "." name pattern = true ↔ (NameRule.ofPattern pattern).Fits name := by
  rw [NameRule.isTelling, Bool.and_eq_true, any_eq_true] at telling
  obtain ⟨plain, char, inText, other⟩ := telling
  have different : char ≠ '.' ∧ char ≠ '/' := by simpa using other
  have matches_iff : ∀ text, Glob.isMatch text pattern = true ↔
      (NameRule.ofPattern pattern).Fits text := by
    intro text
    rw [← NameRule.isMatch_chars_iff plain, NameRule.ofPattern, NameRule.chars_ofChars,
      String.ofList_toList]
  have inPattern : char ∈ pattern.toList := by
    rw [← NameRule.chars_ofChars pattern.toList]
    exact NameRule.text_subset_chars _ inText
  -- The path of the root is a single dot, which has no room for the character.
  have dot : ".".toList = ['.'] := rfl
  have tooSmall : ¬ char ∈ ".".toList := by simpa [dot] using different.1
  have unmatched : Glob.isMatch "." pattern = false := by
    rw [← Bool.not_eq_true, matches_iff]
    exact fun fits => tooSmall (fits.text_subset inText)
  have notFolder : Text.startsWith "." (Text.stripRightChars pattern ['/']) = false := by
    rw [← Bool.not_eq_true, Text.startsWith_iff]
    exact fun starts => tooSmall (starts.subset (mem_stripRightChars inPattern different.2))
  have notAbove : Text.startsWith "." (pattern ++ "/") = false := by
    rw [← Bool.not_eq_true, Text.startsWith_iff, String.toList_append]
    exact fun starts => tooSmall (starts.subset (mem_append_left _ inPattern))
  have notPath : "." ≠ pattern := fun same => tooSmall (same ▸ inPattern)
  have parts : Text.split "." "/" = ["."] := Text.split_of_free (by decide)
  simp [excludes, unmatched, notFolder, notAbove, notPath, notPath.symm, parts, matches_iff]

theorem defaultIgnored_telling :
    defaultIgnored.all (fun pattern => (NameRule.ofPattern pattern).isTelling) = true := by
  decide +kernel

/-- The names that the default patterns leave out. -/
def IgnoredName (name : String) : Prop :=
  ∃ pattern ∈ defaultIgnored, (NameRule.ofPattern pattern).Fits name

instance (name : String) : Decidable (IgnoredName name) :=
  inferInstanceAs (Decidable (∃ pattern ∈ defaultIgnored, (NameRule.ofPattern pattern).Fits name))

theorem leavesOut_root_iff (name : String) :
    (Selection.of none none).leavesOut "." name = true ↔ IgnoredName name := by
  have telling := all_eq_true.mp defaultIgnored_telling
  have patterns : (Selection.of none none).excluded = defaultIgnored := append_nil _
  rw [Selection.leavesOut, any_eq_true, patterns]
  exact exists_congr fun pattern => and_congr_right fun member =>
    excludes_dot_iff name (telling pattern member)

section Directory

variable {selection : Selection} {disk : Disk} {path : String}
  {entries : List (String × FileTree)} (found : disk.entry? path = some (.directory entries))

include found

theorem structureAt_of_leavesOut (refused : selection.leavesOut "." (Path.name path) = true) :
    structureAt selection disk path = .error .wrongKind := by
  rw [structureAt, found, Option.bind_some, analyze?, structure?, if_pos refused]
  rfl

theorem structureAt_of_kept (kept : selection.leavesOut "." (Path.name path) = false) :
    structureAt selection disk path =
      .ok (.directory (Path.name path) "." (structures selection "." entries)) := by
  rw [ Disk.entry?] at found
  split at found
  · rename_i base position
    exact structureAt_eq_ok selection position found kept
  · cases found

end Directory

/-- A directory, itself and not a link to it, has a structure under the default patterns exactly
if its own name is none of those that they leave out; the structure is a directory at the single
dot. -/
theorem structureAt_default_iff (disk : Disk) (path : String)
    (entries : List (String × FileTree)) (found : disk.entry? path = some (.directory entries)) :
    ((∃ children, structureAt (.of none none) disk path =
        .ok (.directory (Path.name path) "." children)) ↔ ¬ IgnoredName (Path.name path)) ∧
      (structureAt (.of none none) disk path = .error .wrongKind ↔
        IgnoredName (Path.name path)) := by
  rw [← leavesOut_root_iff]
  cases out : (Selection.of none none).leavesOut "." (Path.name path) with
  | true => simp [structureAt_of_leavesOut found out]
  | false => simp [structureAt_of_kept found out]

/-- Two directories with one file each, one of them called after its tests. -/
def twinDisk : Disk where
  root := .directory [("tests", .directory [("main.py", .file "main()")]),
    ("work", .directory [("main.py", .file "main()")])]
  current := []

theorem twinDisk_entry? {name : String} (isName : Path.IsName name) :
    twinDisk.entry? (Disk.pathOf [name]) = twinDisk.root.get? [name] := by
  have top : Disk.Straight twinDisk.root [] := .nil twinDisk.root
  have entry := top.entry?_pathOf isName
  rwa [nil_append] at entry

theorem work_default_structure :
    twinDisk.entry? (Disk.pathOf ["work"]) = some (.directory [("main.py", .file "main()")]) ∧
      ∃ children, structureAt (.of none none) twinDisk (Disk.pathOf ["work"]) =
        .ok (.directory (Path.name (Disk.pathOf ["work"])) "." children) := by
  have found : twinDisk.entry? (Disk.pathOf ["work"]) = _ := twinDisk_entry? (by decide)
  have kept : ¬ IgnoredName (Path.name (Disk.pathOf ["work"])) := by decide +kernel
  exact ⟨found, (structureAt_default_iff twinDisk _ _ found).1.mpr kept⟩

theorem tests_without_structure :
    twinDisk.entry? (Disk.pathOf ["tests"]) = some (.directory [("main.py", .file "main()")]) ∧
      structureAt (.of none none) twinDisk (Disk.pathOf ["tests"]) = .error .wrongKind := by
  have found : twinDisk.entry? (Disk.pathOf ["tests"]) = _ := twinDisk_entry? (by decide)
  have name : Path.name (Disk.pathOf ["tests"]) = "tests" := by decide
  refine ⟨found, structureAt_of_leavesOut found ?_⟩
  rw [leavesOut_root_iff, name]
  exact ⟨"tests", by decide, rfl⟩

/-! ## The pattern of a directory -/

section Folder

variable {directory : String} (plain : directory.toList.all Glob.isPlain = true)
  (free : '/' ∉ directory.toList)

include free

theorem stripRightChars_slash : Text.stripRightChars (directory ++ "/") ['/'] = directory := by
  have slash : (directory ++ "/").toList.reverse = '/' :: directory.toList.reverse := by simp
  have kept : directory.toList.reverse.dropWhile (['/'].contains ·) = directory.toList.reverse := by
    apply dropWhile_eq_self_iff.mpr
    intro filled removed
    have last : directory.toList.reverse[0] = '/' := by simpa using removed
    exact free (mem_reverse.mp (last ▸ getElem_mem filled))
  rw [Text.stripRightChars, Text.Chars.trimRight, slash, dropWhile_cons_of_pos (by simp), kept,
    reverse_reverse, String.ofList_toList]

include plain

theorem excludes_directory_iff (path : String) {name : String} (nameFree : '/' ∉ name.toList) :
    excludes path name (directory ++ "/") = true ↔ directory.toList <+: path.toList := by
  have chars : (directory ++ "/").toList = directory.toList ++ ['/'] := String.toList_append
  have slash : '/' ∈ (directory ++ "/").toList := by simp
  have allPlain : (directory.toList ++ ['/']).all Glob.isPlain = true := by
    simp [plain, Glob.isPlain]
  have matched (text : String) :
      Glob.isMatch text (directory ++ "/") = true ↔ text = directory ++ "/" := by
    have own := Glob.isMatch_plain allPlain text
    rwa [← chars, String.ofList_toList, String.toList_inj] at own
  constructor
  · intro out
    simp only [excludes, stripRightChars_slash free, Bool.or_eq_true, Bool.and_eq_true, matched,
      beq_iff_eq, contains_iff_mem, Text.startsWith_iff] at out
    rcases out with ((((rfl | rfl) | starts) | below) | rfl) | part
    · exact ⟨['/'], chars.symm⟩
    · exact absurd slash nameFree
    · exact starts.2
    · rw [String.toList_append, chars, append_assoc] at below
      exact (prefix_append _ _).trans below
    · exact ⟨['/'], chars.symm⟩
    · exact absurd slash (Text.mem_split part).1
  · intro starts
    have ends : Text.endsWith (directory ++ "/") "/" = true :=
      (Text.endsWith_iff _ _).mpr ⟨directory.toList, chars.symm⟩
    simp [excludes, stripRightChars_slash free, ends, (Text.startsWith_iff _ _).mpr starts]

theorem leavesOut_directory_iff (included : List String) (path : String) {name : String}
    (nameFree : '/' ∉ name.toList) :
    (⟨included, [directory ++ "/"]⟩ : Selection).leavesOut path name = true ↔
      directory.toList <+: path.toList := by
  rw [← excludes_directory_iff plain free path nameFree]
  simp [Selection.leavesOut]

end Folder

theorem prefix_iff_slash_iff (start text : List Char) :
    (start <+: text ↔ text = start ∨ start ++ ['/'] <+: text) ↔
      ∀ next rest, text = start ++ next :: rest → next = '/' := by
  constructor
  · intro agree next rest whole
    rcases agree.mp ⟨next :: rest, whole.symm⟩ with same | ⟨below, same⟩
    · simp [whole] at same
    · rw [whole, append_assoc, append_cancel_left_eq] at same
      exact (List.cons.inj same).1.symm
  · intro only
    constructor
    · rintro ⟨rest, whole⟩
      cases rest with
      | nil => exact .inl (by simpa using whole.symm)
      | cons next rest =>
        have slash := only next rest whole.symm
        subst slash
        exact .inr ⟨rest, by simpa using whole⟩
    · rintro (same | below)
      · exact same ▸ prefix_rfl
      · exact (prefix_append _ _).trans below

/-- With the pattern of one directory, the paths left out are those that start with its name, which
is more than the directory and what lies in it: the two agree on a path unless it goes on behind the
name with something else than a slash. -/
theorem directory_left_out_iff (included : List String) (directory path name : String)
    (plain : directory.toList.all Glob.isPlain = true) (free : '/' ∉ directory.toList)
    (nameFree : '/' ∉ name.toList) :
    ((⟨included, [directory ++ "/"]⟩ : Selection).leavesOut path name = true ↔
        Text.startsWith path directory = true) ∧
      (((⟨included, [directory ++ "/"]⟩ : Selection).leavesOut path name = true ↔
          path = directory ∨ Text.startsWith path (directory ++ "/") = true) ↔
        ∀ next rest, path.toList = directory.toList ++ next :: rest → next = '/') := by
  have chars : (directory ++ "/").toList = directory.toList ++ ['/'] := String.toList_append
  rw [leavesOut_directory_iff plain free included path nameFree, Text.startsWith_iff,
    Text.startsWith_iff, chars, ← String.toList_inj]
  exact ⟨Iff.rfl, prefix_iff_slash_iff directory.toList path.toList⟩

theorem lib_left_out :
    ("lib".toList.all Glob.isPlain = true ∧ '/' ∉ "lib".toList ∧ '/' ∉ "main.py".toList) ∧
      (⟨[], ["lib" ++ "/"]⟩ : Selection).leavesOut "lib/main.py" "main.py" = true :=
  ⟨by decide, (directory_left_out_iff [] "lib" "lib/main.py" "main.py" (by decide) (by decide)
    (by decide)).1.mpr (by decide)⟩

theorem library_left_out_with_lib :
    (⟨[], ["lib" ++ "/"]⟩ : Selection).leavesOut "library/main.py" "main.py" = true ∧
      "library/main.py" ≠ "lib" ∧ Text.startsWith "library/main.py" ("lib" ++ "/") = false := by
  refine ⟨?_, by decide, by decide⟩
  apply (leavesOut_directory_iff (by decide) (by decide) [] "library/main.py" (by decide)).mpr
  decide

end CodeAtlas.Repository
