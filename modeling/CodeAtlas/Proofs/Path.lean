import CodeAtlas.Path
import Mathlib.Data.List.Infix

/-!
The parts of paths. Splitting at a character undoes joining with it, as long as no part holds the
character; so the parts of a path that is joined from names are these names. The last section says
when the text of one path starts with the text of another, which is less than one path being below
the other.
-/

namespace CodeAtlas.Text

open List

variable {char : Char} {text : String}

/-! ## Splitting at one character -/

namespace Chars

variable {mark : Char}

theorem splitFrom_mark (piece rest : List Char) :
    splitFrom [mark] 0 piece (mark :: rest) = piece.reverse :: splitFrom [mark] 0 [] rest := by
  simp [splitFrom]

theorem splitFrom_of_ne (different : char ≠ mark) (piece rest : List Char) :
    splitFrom [mark] 0 piece (char :: rest) = splitFrom [mark] 0 (char :: piece) rest := by
  simp [splitFrom, different.symm]

theorem splitFrom_append (left right piece : List Char) :
    splitFrom [mark] 0 piece (left ++ mark :: right) =
      splitFrom [mark] 0 piece left ++ splitFrom [mark] 0 [] right := by
  induction left generalizing piece with
  | nil => rw [nil_append, splitFrom_mark]; rfl
  | cons char left induction =>
    by_cases atMark : char = mark
    · subst atMark
      rw [cons_append, splitFrom_mark, splitFrom_mark, induction, cons_append]
    · rw [cons_append, splitFrom_of_ne atMark, splitFrom_of_ne atMark, induction]

theorem splitFrom_free {text : List Char} (free : mark ∉ text) (piece : List Char) :
    splitFrom [mark] 0 piece text = [piece.reverse ++ text] := by
  induction text generalizing piece with
  | nil => simp [splitFrom]
  | cons char rest induction =>
    have different : char ≠ mark := fun same => free (same ▸ mem_cons_self)
    have restFree : mark ∉ rest := fun member => free (mem_cons_of_mem char member)
    rw [splitFrom_of_ne different, induction restFree]
    simp

theorem mem_splitFrom {text piece part : List Char} (free : mark ∉ piece)
    (member : part ∈ splitFrom [mark] 0 piece text) :
    mark ∉ part ∧ ∀ char ∈ part, char ∈ piece ∨ char ∈ text := by
  induction text generalizing piece with
  | nil =>
    simp only [splitFrom, mem_singleton] at member
    subst member
    exact ⟨by simpa using free, fun char inside => .inl (mem_reverse.mp inside)⟩
  | cons first rest induction =>
    by_cases atMark : first = mark
    · subst atMark
      rw [splitFrom_mark] at member
      rcases mem_cons.mp member with rfl | later
      · exact ⟨by simpa using free, fun char inside => .inl (mem_reverse.mp inside)⟩
      · have found := induction not_mem_nil later
        refine ⟨found.1, fun char inside => .inr ?_⟩
        exact mem_cons_of_mem first ((found.2 char inside).resolve_left not_mem_nil)
    · rw [splitFrom_of_ne atMark] at member
      have stillFree : mark ∉ first :: piece := by
        intro inside
        rcases mem_cons.mp inside with same | old
        · exact atMark same.symm
        · exact free old
      have found := induction stillFree member
      refine ⟨found.1, fun char inside => ?_⟩
      rcases found.2 char inside with old | new
      · rcases mem_cons.mp old with rfl | before
        · exact .inr mem_cons_self
        · exact .inl before
      · exact .inr (mem_cons_of_mem first new)

theorem exists_mem_splitFrom {text piece : List Char} (different : char ≠ mark)
    (inside : char ∈ piece ∨ char ∈ text) :
    ∃ part ∈ splitFrom [mark] 0 piece text, char ∈ part := by
  induction text generalizing piece with
  | nil =>
    have held := inside.resolve_right not_mem_nil
    exact ⟨piece.reverse, by simp [splitFrom], mem_reverse.mpr held⟩
  | cons first rest induction =>
    by_cases atMark : first = mark
    · subst atMark
      rw [splitFrom_mark]
      rcases inside with held | coming
      · exact ⟨piece.reverse, mem_cons_self, mem_reverse.mpr held⟩
      · have later : char ∈ [] ∨ char ∈ rest :=
          Or.inr ((mem_cons.mp coming).resolve_left different)
        rcases induction later with ⟨part, member, found⟩
        exact ⟨part, mem_cons_of_mem _ member, found⟩
    · rw [splitFrom_of_ne atMark]
      apply induction
      rcases inside with held | coming
      · exact .inl (mem_cons_of_mem first held)
      · rcases mem_cons.mp coming with rfl | later
        · exact .inl mem_cons_self
        · exact .inr later

end Chars

@[simp] theorem join_nil (separator : String) : join separator [] = "" := rfl

@[simp] theorem join_singleton (separator part : String) : join separator [part] = part := by
  simp [join]

theorem join_cons_cons (separator first second : String) (rest : List String) :
    join separator (first :: second :: rest) =
      first ++ separator ++ join separator (second :: rest) := by
  rw [← String.toList_inj]
  simp [join]

theorem join_concat (separator last : String) {parts : List String} (filled : parts ≠ []) :
    join separator (parts ++ [last]) = join separator parts ++ separator ++ last := by
  induction parts with
  | nil => exact absurd rfl filled
  | cons first rest induction =>
    cases rest with
    | nil => rw [singleton_append, join_cons_cons, join_singleton, join_singleton]
    | cons second rest =>
      have step := induction (cons_ne_nil second rest)
      rw [cons_append, cons_append, join_cons_cons, join_cons_cons, ← cons_append, step]
      simp only [String.append_assoc]

theorem startsWith_iff (text start : String) :
    startsWith text start = true ↔ start.toList <+: text.toList :=
  List.isPrefixOf_iff_prefix

theorem exists_append_of_endsWith {ending : String} (ends : endsWith text ending = true) :
    ∃ start, text = start ++ ending := by
  have reversed := List.isPrefixOf_iff_prefix.mp ends
  rcases reverse_prefix.mp reversed with ⟨start, same⟩
  refine ⟨String.ofList start, ?_⟩
  rw [← String.toList_inj, String.toList_append, String.toList_ofList, same]

theorem split_append (left right : String) :
    split (left ++ "/" ++ right) "/" = split left "/" ++ split right "/" := by
  have mark : "/".toList = ['/'] := rfl
  simp only [split, Chars.split, String.toList_append, mark, append_assoc,
    singleton_append, Chars.splitFrom_append, map_append]

theorem split_of_free (free : '/' ∉ text.toList) : split text "/" = [text] := by
  have mark : "/".toList = ['/'] := rfl
  simp [split, Chars.split, mark, Chars.splitFrom_free free]

theorem mem_split {part : String} (member : part ∈ split text "/") :
    '/' ∉ part.toList ∧ ∀ char ∈ part.toList, char ∈ text.toList := by
  rcases mem_map.mp member with ⟨piece, inside, rfl⟩
  have found := Chars.mem_splitFrom not_mem_nil inside
  rw [String.toList_ofList]
  exact ⟨found.1, fun char inside => (found.2 char inside).resolve_left not_mem_nil⟩

theorem exists_mem_split (different : char ≠ '/') (inside : char ∈ text.toList) :
    ∃ part ∈ split text "/", char ∈ part.toList := by
  rcases Chars.exists_mem_splitFrom different (.inr inside) with ⟨piece, member, found⟩
  exact ⟨String.ofList piece, mem_map_of_mem member, by rwa [String.toList_ofList]⟩

theorem Chars.contains_iff (part text : List Char) : contains part text = true ↔ part <:+: text := by
  induction text with
  | nil => simp [contains]
  | cons char rest induction =>
    rw [contains, Bool.or_eq_true, List.isPrefixOf_iff_prefix, induction, infix_cons_iff]

theorem contains_iff (text part : String) :
    contains text part = true ↔ part.toList <:+: text.toList :=
  Chars.contains_iff part.toList text.toList

theorem contains_singleton_iff (text : String) (char : Char) :
    contains text (String.ofList [char]) = true ↔ char ∈ text.toList := by
  rw [contains_iff, String.toList_ofList, singleton_infix_iff]

end CodeAtlas.Text

namespace CodeAtlas.Path

variable {part path base name : String} {names : List String}

/-! ## Parts and names -/

/-- A part of a path: neither empty nor a single dot, and without slash and null character. -/
structure IsPart (part : String) : Prop where
  filled : part ≠ ""
  notDot : part ≠ "."
  noSlash : '/' ∉ part.toList
  noNull : '\x00' ∉ part.toList

/-- A name that a directory can give to an entry: a part other than the double dot. -/
structure IsName (name : String) : Prop extends IsPart name where
  notUp : name ≠ ".."

theorem isName_iff (name : String) :
    IsName name ↔ name ≠ "" ∧ name ≠ "." ∧ name ≠ ".." ∧
      '/' ∉ name.toList ∧ '\x00' ∉ name.toList :=
  ⟨fun ⟨⟨filled, notDot, noSlash, noNull⟩, notUp⟩ => ⟨filled, notDot, notUp, noSlash, noNull⟩,
    fun ⟨filled, notDot, notUp, noSlash, noNull⟩ => ⟨⟨filled, notDot, noSlash, noNull⟩, notUp⟩⟩

instance (name : String) : Decidable (IsName name) :=
  decidable_of_iff _ (isName_iff name).symm

@[simp] theorem parts_empty : parts "" = [] := by
  decide

theorem parts_append (left right : String) :
    parts (left ++ "/" ++ right) = parts left ++ parts right := by
  simp only [parts, Text.split_append, List.filter_append]

theorem parts_of_isPart (isPart : IsPart part) : parts part = [part] := by
  have split := Text.split_of_free isPart.noSlash
  simp [parts, split, isPart.filled, isPart.notDot]

theorem isPart_of_mem_parts (clean : '\x00' ∉ path.toList) (member : part ∈ parts path) :
    IsPart part := by
  rcases List.mem_filter.mp member with ⟨inside, kept⟩
  have plain := Text.mem_split inside
  simp only [ne_eq, Bool.and_eq_true, decide_eq_true_eq] at kept
  exact ⟨kept.1, kept.2, plain.1, fun null => clean (plain.2 _ null)⟩

theorem parts_join_of_parts (each : ∀ name ∈ names, parts name = [name]) :
    parts (Text.join "/" names) = names := by
  induction names with
  | nil => exact parts_empty
  | cons first rest induction =>
    have head := each first List.mem_cons_self
    cases rest with
    | nil => rw [Text.join_singleton, head]
    | cons second rest =>
      rw [Text.join_cons_cons, parts_append, head,
        induction fun name member => each name (List.mem_cons_of_mem first member)]
      rfl

theorem parts_join (each : ∀ name ∈ names, IsPart name) :
    parts (Text.join "/" names) = names :=
  parts_join_of_parts fun name member => parts_of_isPart (each name member)

theorem join_injective {left right : List String} (leftParts : ∀ name ∈ left, IsPart name)
    (rightParts : ∀ name ∈ right, IsPart name)
    (same : Text.join "/" left = Text.join "/" right) : left = right := by
  rw [← parts_join leftParts, same, parts_join rightParts]

theorem mem_toList_join {char : Char} (member : char ∈ (Text.join "/" names).toList) :
    char = '/' ∨ ∃ name ∈ names, char ∈ name.toList := by
  induction names with
  | nil => exact absurd member List.not_mem_nil
  | cons first rest induction =>
    cases rest with
    | nil =>
      rw [Text.join_singleton] at member
      exact .inr ⟨first, List.mem_cons_self, member⟩
    | cons second rest =>
      rw [Text.join_cons_cons, String.toList_append, String.toList_append] at member
      rcases List.mem_append.mp member with start | later
      · rcases List.mem_append.mp start with inside | mark
        · exact .inr ⟨first, List.mem_cons_self, inside⟩
        · exact .inl (List.mem_singleton.mp mark)
      · rcases induction later with mark | ⟨name, present, inside⟩
        · exact .inl mark
        · exact .inr ⟨name, List.mem_cons_of_mem first present, inside⟩

/-! ## Joining two paths -/

theorem isAbsolute_append (filled : base ≠ "") (path : String) :
    isAbsolute (base ++ path) = isAbsolute base := by
  have mark : "/".toList = ['/'] := rfl
  unfold isAbsolute Text.startsWith
  rw [String.toList_append, mark]
  cases start : base.toList with
  | nil => exact absurd (String.toList_inj.mp start) filled
  | cons first rest => simp [List.isPrefixOf]

theorem isAbsolute_join (relative : isAbsolute path = false) :
    isAbsolute (join base path) = isAbsolute base := by
  by_cases filled : base = ""
  · subst filled
    have joined : join "" path = path := by simp [join, relative]
    rw [joined, relative]
    rfl
  · rw [join, relative]
    simp only [Bool.false_eq_true, if_false]
    split
    · exact isAbsolute_append filled path
    · rw [String.append_assoc]
      exact isAbsolute_append filled _

theorem parts_joined (relative : isAbsolute path = false) :
    parts (join base path) = parts base ++ parts path := by
  rw [join, relative]
  simp only [Bool.false_eq_true, if_false]
  split
  · rename_i bare
    rw [Bool.or_eq_true] at bare
    rcases bare with empty | closed
    · rw [beq_iff_eq.mp empty, String.empty_append, parts_empty, List.nil_append]
    · rcases Text.exists_append_of_endsWith closed with ⟨stem, rfl⟩
      have alone := parts_append stem ""
      rw [String.append_empty, parts_empty, List.append_nil] at alone
      rw [parts_append, alone]
  · exact parts_append base path

/-! ## Paths below a folder -/

theorem mem_parts_iff :
    part ∈ parts path ↔ part ∈ Text.split path "/" ∧ part ≠ "" ∧ part ≠ "." := by
  simp [parts]

theorem null_mem_iff (path : String) :
    '\x00' ∈ path.toList ↔ ∃ part ∈ parts path, '\x00' ∈ part.toList := by
  constructor
  · intro null
    rcases Text.exists_mem_split (by decide) null with ⟨part, member, inside⟩
    refine ⟨part, mem_parts_iff.mpr ⟨member, ?_, ?_⟩, inside⟩
    · rintro rfl
      exact absurd inside (by decide)
    · rintro rfl
      exact absurd inside (by decide)
  · rintro ⟨part, member, inside⟩
    exact (Text.mem_split (mem_parts_iff.mp member).1).2 _ inside

theorem parts_of_mem_parts (member : part ∈ parts path) :
    parts part = [part] := by
  rcases mem_parts_iff.mp member with ⟨inside, filled, notDot⟩
  have split := Text.split_of_free (Text.mem_split inside).1
  simp [parts, split, filled, notDot]

theorem parts_slash_append (text : String) : parts ("/" ++ text) = parts text := by
  have split := parts_append "" text
  rwa [String.empty_append, parts_empty, List.nil_append] at split

theorem anchor_eq (path : String) :
    anchor path = "" ∧ isAbsolute path = false ∨
      (anchor path = "/" ∨ anchor path = "//") ∧ isAbsolute path = true := by
  have mark : "/".toList = ['/'] := rfl
  unfold anchor isAbsolute Text.startsWith
  rw [mark]
  cases path.toList with
  | nil => exact .inl ⟨rfl, rfl⟩
  | cons first rest =>
    by_cases slash : first = '/'
    · subst slash
      refine .inr ⟨?_, by simp [List.isPrefixOf]⟩
      by_cases two : (rest.takeWhile (· == '/')).length = 1
      · exact .inr (by simp [two])
      · exact .inl (by simp [two])
    · exact .inl ⟨by simp [slash], by simp [List.isPrefixOf, Ne.symm slash]⟩

theorem parts_anchored (path : String) (each : ∀ name ∈ names, parts name = [name]) :
    parts (anchor path ++ Text.join "/" names) = names := by
  have joined := parts_join_of_parts each
  rcases anchor_eq path with ⟨none, _⟩ | ⟨one | two, _⟩
  · rw [none, String.empty_append, joined]
  · rw [one, parts_slash_append, joined]
  · rw [two, show "//" = "/" ++ "/" from rfl, String.append_assoc, parts_slash_append,
      parts_slash_append, joined]

theorem isAbsolute_anchored (path : String) (each : ∀ name ∈ names, '/' ∉ name.toList ∧ name ≠ "") :
    isAbsolute (anchor path ++ Text.join "/" names) = isAbsolute path := by
  rcases anchor_eq path with ⟨none, relative⟩ | ⟨one | two, absolute⟩
  · rw [none, String.empty_append, relative, ← Bool.not_eq_true, isAbsolute, Text.startsWith_iff]
    cases names with
    | nil => decide
    | cons first rest =>
      rcases each first List.mem_cons_self with ⟨free, filled⟩
      intro starts
      -- The first character of the text is one of the first name.
      have nonempty : first.toList ≠ [] := fun empty => filled (String.toList_inj.mp empty)
      rcases List.exists_cons_of_ne_nil nonempty with ⟨char, chars, spelled⟩
      have begins : first.toList <+: (Text.join "/" (first :: rest)).toList := by
        cases rest with
        | nil => simp
        | cons second rest =>
          rw [Text.join_cons_cons, String.append_assoc, String.toList_append]
          exact List.prefix_append _ _
      rcases begins with ⟨tail, whole⟩
      rw [← whole, spelled, show "/".toList = ['/'] from rfl, List.cons_append] at starts
      have same := (List.cons_prefix_cons.mp starts).1
      exact free (spelled ▸ same ▸ List.mem_cons_self)
  · rw [one, isAbsolute_append (by decide), absolute]
    decide
  · rw [two, isAbsolute_append (by decide), absolute]
    decide

theorem free_of_mem_parts (member : part ∈ parts path) :
    '/' ∉ part.toList ∧ part ≠ "" :=
  ⟨(Text.mem_split (mem_parts_iff.mp member).1).1, (mem_parts_iff.mp member).2.1⟩

/-- A path that leads from a folder further down. -/
structure IsBelow (folder path : String) (rest : List String) : Prop where
  start : isAbsolute path = isAbsolute folder
  parts : parts path = parts folder ++ rest
  filled : path ≠ ""

/-- A path that is written anew from its anchor and some of its parts. -/
theorem isBelow_rebuilt {folder : String} {rest : List String}
    (start : isAbsolute path = isAbsolute folder) (among : ∀ name ∈ names, name ∈ parts path)
    (split : names = parts folder ++ rest) :
    IsBelow folder (if anchor path ++ Text.join "/" names == "" then "."
      else anchor path ++ Text.join "/" names) rest := by
  have alone : parts (anchor path ++ Text.join "/" names) = names :=
    parts_anchored path fun name member => parts_of_mem_parts (among name member)
  have sameStart : isAbsolute (anchor path ++ Text.join "/" names) = isAbsolute path :=
    isAbsolute_anchored path fun name member => free_of_mem_parts (among name member)
  split
  · rename_i empty
    rw [beq_iff_eq.mp empty] at alone sameStart
    refine ⟨?_, ?_, by decide⟩
    · rw [← start, ← sameStart]
      decide
    · rw [← split, ← alone]
      decide
  · rename_i filled
    exact ⟨sameStart.trans start, alone.trans split, by simpa using filled⟩

theorem isAbsolute_of_free (free : '/' ∉ name.toList) : isAbsolute name = false := by
  rw [← Bool.not_eq_true, isAbsolute, Text.startsWith_iff]
  intro starts
  exact free (starts.subset (by decide))

theorem isBelow_self {folder : String} (filled : folder ≠ "") : IsBelow folder folder [] :=
  ⟨rfl, (List.append_nil _).symm, filled⟩

namespace IsBelow

variable {folder path : String} {rest : List String}

theorem below (isBelow : IsBelow folder path rest) (relative : isAbsolute name = false) :
    IsBelow folder (Path.below path name) (rest ++ Path.parts name) := by
  have split : Path.parts (join path name) = Path.parts folder ++ (rest ++ Path.parts name) := by
    rw [parts_joined relative, isBelow.parts, List.append_assoc]
  have start := (isAbsolute_join relative).trans isBelow.start
  simp only [Path.below, clean]
  exact isBelow_rebuilt start (fun _ member => member) split

theorem concat (isBelow : IsBelow folder path rest) (isName : IsName name) :
    IsBelow folder (Path.below path name) (rest ++ [name]) := by
  rw [← parts_of_isPart isName.toIsPart]
  exact isBelow.below (isAbsolute_of_free isName.noSlash)

theorem foldl (isBelow : IsBelow folder path rest) (text : String) :
    IsBelow folder ((Text.split text "/").foldl Path.below path) (rest ++ Path.parts text) := by
  have pieces : ∀ (names : List String) path rest, (∀ name ∈ names, '/' ∉ name.toList) →
      IsBelow folder path rest →
      IsBelow folder (names.foldl Path.below path)
        (rest ++ names.filter fun part => part ≠ "" && part ≠ ".") := by
    intro names
    induction names with
    | nil =>
      intro path rest _ isBelow
      rwa [List.filter_nil, List.append_nil]
    | cons name names induction =>
      intro path rest free isBelow
      have noSlash := free name List.mem_cons_self
      have first := isBelow.below (isAbsolute_of_free noSlash)
      have onward := induction _ _ (fun other member => free other (List.mem_cons_of_mem _ member))
        first
      rw [Path.parts, Text.split_of_free noSlash, List.append_assoc, ← List.filter_append,
        List.singleton_append] at onward
      rw [List.foldl_cons]
      exact onward
  rw [Path.parts]
  exact pieces _ path rest (fun name member => (Text.mem_split member).1) isBelow

theorem parent (isBelow : IsBelow folder path (rest ++ [name])) :
    IsBelow folder (Path.parent path) rest := by
  apply isBelow_rebuilt isBelow.start
  · exact fun _ member => List.dropLast_subset _ member
  · rw [isBelow.parts, ← List.append_assoc, List.dropLast_concat]

end IsBelow

/-! ## Texts of paths that start alike -/

theorem prefix_of_prefix_mark {left right rest : List Char} (free : '/' ∉ left)
    (starts : left <+: right ++ '/' :: rest) : left <+: right := by
  induction left generalizing right with
  | nil => exact List.nil_prefix
  | cons char left induction =>
    have leftFree : '/' ∉ left := fun member => free (List.mem_cons_of_mem char member)
    cases right with
    | nil =>
      have same := (List.cons_prefix_cons.mp starts).1
      exact absurd (same ▸ List.mem_cons_self) free
    | cons other right =>
      have parts := List.cons_prefix_cons.mp starts
      exact List.cons_prefix_cons.mpr ⟨parts.1, induction leftFree parts.2⟩

theorem mark_prefix_mark {left right leftRest rightRest : List Char} (leftFree : '/' ∉ left)
    (rightFree : '/' ∉ right) :
    left ++ '/' :: leftRest <+: right ++ '/' :: rightRest ↔
      left = right ∧ leftRest <+: rightRest := by
  constructor
  · intro starts
    induction left generalizing right with
    | nil =>
      cases right with
      | nil => exact ⟨rfl, (List.cons_prefix_cons.mp starts).2⟩
      | cons other right =>
        have same := (List.cons_prefix_cons.mp starts).1
        exact absurd (same ▸ List.mem_cons_self) rightFree
    | cons char left induction =>
      cases right with
      | nil =>
        have same := (List.cons_prefix_cons.mp starts).1
        exact absurd (same ▸ List.mem_cons_self) leftFree
      | cons other right =>
        have parts := List.cons_prefix_cons.mp starts
        have rest := induction (fun member => leftFree (List.mem_cons_of_mem char member))
          (fun member => rightFree (List.mem_cons_of_mem other member)) parts.2
        exact ⟨congrArg₂ List.cons parts.1 rest.1, rest.2⟩
  · rintro ⟨rfl, rest⟩
    exact (List.prefix_append_right_inj left).mpr (List.cons_prefix_cons.mpr ⟨rfl, rest⟩)

theorem prefix_join_cons_iff {other : String} (free : '/' ∉ name.toList) (rest : List String) :
    name.toList <+: (Text.join "/" (other :: rest)).toList ↔ name.toList <+: other.toList := by
  cases rest with
  | nil => rw [Text.join_singleton]
  | cons next rest =>
    simp only [Text.join_cons_cons, String.toList_append, List.append_assoc]
    constructor
    · exact prefix_of_prefix_mark free
    · exact fun starts => starts.trans (List.prefix_append _ _)

theorem join_cons_prefix_iff {next other : String} {base place : List String}
    (free : '/' ∉ name.toList) (otherFree : '/' ∉ other.toList) (filled : next ≠ "") :
    (Text.join "/" (name :: next :: base)).toList <+: (Text.join "/" (other :: place)).toList ↔
      name = other ∧
        (Text.join "/" (next :: base)).toList <+: (Text.join "/" place).toList := by
  have mark : "/".toList = ['/'] := rfl
  rw [Text.join_cons_cons]
  simp only [String.toList_append, mark, List.append_assoc, List.singleton_append]
  cases place with
  | nil =>
    -- Nothing stands below the other path, so it would have to hold a slash itself.
    rw [Text.join_singleton, Text.join_nil]
    constructor
    · intro starts
      exact absurd (starts.subset (List.mem_append_right _ List.mem_cons_self)) otherFree
    · rintro ⟨_, starts⟩
      have empty : (Text.join "/" (next :: base)).toList = [] := List.prefix_nil.mp starts
      cases base with
      | nil =>
        rw [Text.join_singleton] at empty
        exact absurd (String.toList_inj.mp empty) filled
      | cons further base =>
        rw [Text.join_cons_cons] at empty
        simp [mark] at empty
  | cons below place =>
    rw [Text.join_cons_cons]
    simp only [String.toList_append, mark, List.append_assoc, List.singleton_append]
    rw [mark_prefix_mark free otherFree, String.toList_inj]

/-- The text of one path starts with the text of another exactly if it goes through the same names
up to the last one of the other and there has a name that starts with that name. -/
theorem join_prefix_join_iff {base place : List String} (filled : base ≠ [])
    (baseParts : ∀ name ∈ base, IsPart name) (placeParts : ∀ name ∈ place, IsPart name) :
    (Text.join "/" base).toList <+: (Text.join "/" place).toList ↔
      ∃ above last more rest, base = above ++ [last] ∧ place = above ++ (last ++ more) :: rest := by
  induction base generalizing place with
  | nil => exact absurd rfl filled
  | cons name base induction =>
    have part := baseParts name List.mem_cons_self
    cases place with
    | nil =>
      constructor
      · intro starts
        have empty := List.prefix_nil.mp starts
        have same := join_injective baseParts (fun _ member => absurd member List.not_mem_nil)
          (String.toList_inj.mp empty)
        exact absurd same filled
      · rintro ⟨above, last, more, rest, _, same⟩
        exact absurd same.symm (List.append_ne_nil_of_right_ne_nil above (List.cons_ne_nil _ _))
    | cons other place =>
      have otherPart := placeParts other List.mem_cons_self
      cases base with
      | nil =>
        rw [Text.join_singleton, prefix_join_cons_iff part.noSlash]
        constructor
        · rintro ⟨more, same⟩
          refine ⟨[], name, String.ofList more, place, rfl, ?_⟩
          have whole : other = name ++ String.ofList more := by
            rw [← String.toList_inj, String.toList_append, String.toList_ofList, same]
          rw [whole, List.nil_append]
        · rintro ⟨above, last, more, rest, sameBase, samePlace⟩
          rcases List.append_eq_singleton_iff.mp sameBase.symm with ⟨rfl, last⟩ | ⟨_, none⟩
          · rcases List.cons.inj last with ⟨rfl, _⟩
            rw [(List.cons.inj samePlace).1, String.toList_append]
            exact List.prefix_append _ _
          · exact absurd none (List.cons_ne_nil _ _)
      | cons next base =>
        have nextPart := baseParts next (List.mem_cons_of_mem name List.mem_cons_self)
        rw [join_cons_prefix_iff part.noSlash otherPart.noSlash nextPart.filled,
          induction (List.cons_ne_nil next base)
            (fun part member => baseParts part (List.mem_cons_of_mem name member))
            (fun part member => placeParts part (List.mem_cons_of_mem other member))]
        constructor
        · rintro ⟨rfl, above, last, more, rest, sameBase, samePlace⟩
          refine ⟨name :: above, last, more, rest, ?_, ?_⟩
          · rw [sameBase, List.cons_append]
          · rw [samePlace, List.cons_append]
        · rintro ⟨above, last, more, rest, sameBase, samePlace⟩
          cases above with
          | nil => exact absurd (List.cons.inj sameBase).2 (List.cons_ne_nil _ _)
          | cons first above =>
            rcases List.cons.inj sameBase with ⟨rfl, baseRest⟩
            rcases List.cons.inj samePlace with ⟨rfl, placeRest⟩
            exact ⟨rfl, above, last, more, rest, baseRest, placeRest⟩

end CodeAtlas.Path
