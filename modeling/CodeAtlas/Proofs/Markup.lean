import CodeAtlas.Markup.Escape
import Mathlib.Logic.Basic

/-!
Texts with parts replaced, one part after the other and all at once, and the texts inside of markup.
The characters with a meaning are replaced one after the other; in this order that is the same as
replacing each character by itself, and it can be undone.
-/

namespace CodeAtlas

open List

variable {char : Char}

/-! ## Replacing at once -/

namespace Text.Chars

variable {table : List (List Char × List Char)} {part image text : List Char}

/-- The parts of a table are replaced at once: what is put in is not looked at again. The second
argument counts the characters of a part that are still to be passed over. -/
def replaceAllFrom (table : List (List Char × List Char)) : Nat → List Char → List Char
  | _, [] => []
  | passing + 1, _ :: rest => replaceAllFrom table passing rest
  | 0, char :: rest =>
    match table.find? fun entry => entry.1.isPrefixOf (char :: rest) with
    | some (part, image) => image ++ replaceAllFrom table (part.length - 1) rest
    | none => char :: replaceAllFrom table 0 rest

def replaceAll (table : List (List Char × List Char)) (text : List Char) : List Char :=
  replaceAllFrom table 0 text

theorem replaceAllFrom_drop (passing : Nat) (text : List Char) :
    replaceAllFrom table passing text = replaceAll table (text.drop passing) := by
  induction text generalizing passing with
  | nil => simp [replaceAll, replaceAllFrom]
  | cons char rest induction =>
    cases passing with
    | zero => rfl
    | succ passing => rw [replaceAllFrom, induction, drop_succ_cons]

theorem replaceAll_found (filled : part ≠ [])
    (found : (table.find? fun entry => entry.1.isPrefixOf (part ++ text)) = some (part, image)) :
    replaceAll table (part ++ text) = image ++ replaceAll table text := by
  rcases exists_cons_of_ne_nil filled with ⟨char, rest, rfl⟩
  rw [cons_append] at found ⊢
  rw [replaceAll, replaceAllFrom, found]
  simp [replaceAllFrom_drop]

theorem replaceAll_kept
    (absent : (table.find? fun entry => entry.1.isPrefixOf (char :: text)) = none) :
    replaceAll table (char :: text) = char :: replaceAll table text := by
  rw [replaceAll, replaceAllFrom, absent]
  rfl

theorem replace_char (mark : Char) (image text : List Char) :
    replace [mark] image text = text.flatMap fun char => if char = mark then image else [char] := by
  rw [replace]
  induction text with
  | nil => rfl
  | cons char rest induction =>
    by_cases same : char = mark
    · simp [replaceFrom, same, induction]
    · have different : mark ≠ char := Ne.symm same
      simp [replaceFrom, same, different, induction]

end Text.Chars

/-! ## Escaped texts -/

namespace Markup

def isSpecial (char : Char) : Bool := (entities.map Prod.fst).contains char

def written (char : Char) : List Char := ((entities.lookup char).map String.toList).getD [char]

theorem isSpecial_iff :
    isSpecial char = true ↔
      char = '&' ∨ char = '<' ∨ char = '>' ∨ char = '"' ∨ char = '\'' := by
  simp [isSpecial, entities]

theorem ne_of_plain (plain : isSpecial char = false) :
    char ≠ '&' ∧ char ≠ '<' ∧ char ≠ '>' ∧ char ≠ '"' ∧ char ≠ '\'' := by
  have different := isSpecial_iff.not.mp (Bool.eq_false_iff.mp plain)
  simpa only [not_or] using different

theorem written_of_plain (plain : isSpecial char = false) : written char = [char] := by
  have absent : entities.lookup char = none := by
    rw [lookup_eq_none_iff]
    intro entity present
    rw [bne_iff_ne]
    rintro rfl
    rw [isSpecial, contains_iff_mem.mpr (mem_map_of_mem present)] at plain
    cases plain
  rw [written, absent]
  rfl

/-- The ampersands of the names are not written by their name again. -/
theorem toList_escape (text : String) : (escape text).toList = text.toList.flatMap written := by
  simp only [escape, entities, foldl_cons, foldl_nil, Text.replace, String.toList_ofList,
    Text.Chars.replace_char, flatMap_assoc]
  congr 1
  funext char
  cases special : isSpecial char with
  | true =>
    rcases isSpecial_iff.mp special with rfl | rfl | rfl | rfl | rfl <;> rfl
  | false =>
    simp only [ne_of_plain special, if_false, flatMap_singleton, written_of_plain special]

theorem length_written (char : Char) :
    1 ≤ (written char).length ∧ (isSpecial char = true → 1 < (written char).length) := by
  cases special : isSpecial char with
  | true => rcases isSpecial_iff.mp special with rfl | rfl | rfl | rfl | rfl <;> decide
  | false => simp [written_of_plain special]

/-! ## Reading an escaped text -/

/-- Reads the names of the characters with a meaning. -/
def decode (text : String) : String :=
  .ofList (Text.Chars.replaceAll (entities.map fun (char, name) => (name.toList, [char])) text.toList)

/-- A character is written by itself, or by a name that starts with the only ampersand in it. -/
theorem written_cases (char : Char) :
    (isSpecial char = false ∧ written char = [char]) ∨
      ∃ tail, written char = '&' :: tail ∧ tail.any isSpecial = false ∧
        written char ∈ entities.map fun entity => entity.2.toList := by
  cases special : isSpecial char with
  | true =>
    refine .inr ⟨(written char).tail, ?_⟩
    rcases isSpecial_iff.mp special with rfl | rfl | rfl | rfl | rfl <;> decide
  | false => exact .inl ⟨rfl, written_of_plain special⟩

theorem special_in_escape {text : String} {special : Char} (inside : special ∈ (escape text).toList)
    (isOne : isSpecial special = true) : special = '&' := by
  rw [toList_escape, mem_flatMap] at inside
  rcases inside with ⟨char, _, inside⟩
  rcases written_cases char with ⟨plain, same⟩ | ⟨tail, shape, rest, _⟩
  · rw [same, mem_singleton] at inside
    rw [inside, plain] at isOne
    cases isOne
  · rw [shape, mem_cons] at inside
    exact inside.resolve_right fun later => any_eq_false.mp rest special later isOne

theorem name_at_ampersand {chars before after : List Char}
    (whole : chars.flatMap written = before ++ '&' :: after) :
    ∃ entity ∈ entities, entity.2.toList <+: '&' :: after := by
  induction chars generalizing before with
  | nil => simp at whole
  | cons char rest induction =>
    rw [flatMap_cons] at whole
    rcases append_eq_append_iff.mp whole with ⟨further, _, later⟩ | ⟨first, here, same⟩
    · exact induction later
    · cases first with
      | nil => exact induction (show _ = [] ++ _ from same.symm)
      | cons ampersand behind =>
        rcases List.cons.inj same with ⟨rfl, rfl⟩
        rcases written_cases char with ⟨plain, alone⟩ | ⟨tail, shape, only, listed⟩
        · have same : char = '&' := by
            have inside : '&' ∈ written char := here ▸ by simp
            rw [alone, mem_singleton] at inside
            exact inside.symm
          rw [same] at plain
          cases plain
        · rcases mem_map.mp listed with ⟨entity, known, named⟩
          refine ⟨entity, known, ?_⟩
          cases before with
          | nil =>
            rw [named, here]
            exact prefix_append ('&' :: behind) _
          | cons other before =>
            rw [here, cons_append] at shape
            have twice : '&' ∈ tail := (List.cons.inj shape).2 ▸ by simp
            exact absurd rfl (any_eq_false.mp only '&' twice)

theorem replaceAll_written (char : Char) (rest : List Char) :
    Text.Chars.replaceAll (entities.map fun (char, name) => (name.toList, [char]))
        (written char ++ rest) =
      char :: Text.Chars.replaceAll (entities.map fun (char, name) => (name.toList, [char])) rest := by
  cases special : isSpecial char with
  | true =>
    have found : ((entities.map fun (char, name) => (name.toList, [char])).find? fun entry =>
        entry.1.isPrefixOf (written char ++ rest)) = some (written char, [char]) := by
      rcases isSpecial_iff.mp special with rfl | rfl | rfl | rfl | rfl <;> rfl
    exact Text.Chars.replaceAll_found (ne_nil_of_length_pos (length_written char).1) found
  | false =>
    rw [written_of_plain special, singleton_append]
    refine Text.Chars.replaceAll_kept (find?_eq_none.mpr ?_)
    have different : '&' ≠ char := by
      rintro rfl
      cases special
    simp [entities, different]

theorem decode_escape (text : String) : decode (escape text) = text := by
  rw [decode, toList_escape, ← String.toList_inj, String.toList_ofList]
  induction text.toList with
  | nil => rfl
  | cons char rest induction => rw [flatMap_cons, replaceAll_written, induction]

/-- The escaped text, character by character, and what follows for it. -/
theorem escape_characterwise (text : String) :
    (escape text).toList = text.toList.flatMap (fun char =>
      if char = '&' then "&amp;".toList
      else if char = '<' then "&lt;".toList
      else if char = '>' then "&gt;".toList
      else if char = '"' then "&quot;".toList
      else if char = '\'' then "&#39;".toList
      else [char]) ∧
    (∀ char ∈ (escape text).toList, char ≠ '<' ∧ char ≠ '>' ∧ char ≠ '"' ∧ char ≠ '\'') ∧
    (∀ before after, (escape text).toList = before ++ '&' :: after →
      ∃ name ∈ ["&amp;", "&lt;", "&gt;", "&quot;", "&#39;"], name.toList <+: '&' :: after) ∧
    decode (escape text) = text ∧ Function.Injective escape := by
  refine ⟨?_, ?_, ?_, decode_escape text, Function.LeftInverse.injective decode_escape⟩
  · rw [toList_escape]
    congr 1
    funext char
    cases special : isSpecial char with
    | true => rcases isSpecial_iff.mp special with rfl | rfl | rfl | rfl | rfl <;> rfl
    | false =>
      simp only [ne_of_plain special, if_false, written_of_plain special]
  · intro char inside
    refine ⟨?_, ?_, ?_, ?_⟩
    all_goals
      rintro rfl
      cases special_in_escape inside rfl
  · intro before after whole
    rw [toList_escape] at whole
    rcases name_at_ampersand whole with ⟨entity, listed, starts⟩
    exact ⟨entity.2, List.mem_map_of_mem listed, starts⟩

end Markup

end CodeAtlas
