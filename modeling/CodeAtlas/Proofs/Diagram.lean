import CodeAtlas.Diagram.Check
import CodeAtlas.Proofs.Decimal
import CodeAtlas.Proofs.Text

/-!
Where the diagrams of a page stand. The blocks found are the lines behind opening fences up to the
next closing one; the number that a block carries is that of its opening fence, so that line `k` of
a diagram is line `k` behind it, which is also the line that a report on the diagram names.
-/

namespace CodeAtlas.Diagram

open List

variable {number : Nat} {lines : List String} {block : Block} {line : String}

/-! ## The scan -/

def enclosed (lines : List String) : List String :=
  lines.takeWhile fun line => !closesBlock line

/-- A block stands in some lines, the first of which has the given number. -/
def Block.StandsIn (number : Nat) (lines : List String) (block : Block) : Prop :=
  block.body ≠ [] ∧ ∃ place fence, block.line = number + place ∧ lines[place]? = some fence ∧
    opensBlock fence = true ∧ block.body = enclosed (lines.drop (place + 1))

theorem Block.StandsIn.of_drop (count : Nat)
    (stands : block.StandsIn (number + count) (lines.drop count)) :
    block.StandsIn number lines := by
  rcases stands with ⟨filled, place, fence, line, found, opens, body⟩
  rw [getElem?_drop] at found
  rw [drop_drop] at body
  exact ⟨filled, count + place, fence, by omega, found, opens, body⟩

theorem Block.StandsIn.body_prefix (stands : block.StandsIn 1 lines) :
    block.body <+: lines.drop block.line := by
  rcases stands with ⟨_, place, _, line, _, _, body⟩
  rw [line, Nat.add_comm, body]
  exact takeWhile_prefix _

theorem standsIn_of_mem_blocksFrom (member : block ∈ blocksFrom number lines) :
    block.StandsIn number lines := by
  fun_induction blocksFrom number lines with
  | case1 => cases member
  | case2 number line rest opens body more empty induction =>
    exact Block.StandsIn.of_drop (body.length + 2) (induction member)
  | case3 number line rest opens body more filled induction =>
    rcases mem_cons.mp member with rfl | later
    · exact ⟨by simpa using filled, 0, line, rfl, rfl, opens, rfl⟩
    · exact Block.StandsIn.of_drop (body.length + 2) (induction later)
  | case4 number line rest opens induction => exact Block.StandsIn.of_drop 1 (induction member)

theorem pairwise_blocksFrom (number : Nat) (lines : List String) :
    (blocksFrom number lines).Pairwise fun first second =>
      first.line + first.body.length + 1 < second.line := by
  fun_induction blocksFrom number lines with
  | case1 => exact .nil
  | case2 number line rest opens body more empty induction => exact induction
  | case3 number line rest opens body more filled induction =>
    apply pairwise_cons.mpr ⟨_, induction⟩
    intro second member
    rcases (standsIn_of_mem_blocksFrom member).2 with ⟨place, _, line, _⟩
    change number + body.length + 1 < second.line
    omega
  | case4 number line rest opens induction => exact induction

theorem closesBlock_behind_enclosed (found : lines[(enclosed lines).length]? = some line) :
    closesBlock line = true := by
  induction lines with
  | nil => simp at found
  | cons first rest induction =>
    by_cases closes : closesBlock first = true
    · simp_all [enclosed]
    · apply induction
      simpa [enclosed, closes] using found

theorem not_closesBlock (opens : opensBlock line = true) :
    ¬ closesBlock line = true := by
  intro closes
  rw [opensBlock, beq_iff_eq.mp closes] at opens
  exact absurd opens (by decide)

/-- A fence that is not inside what the first line could enclose stands below its end. -/
theorem fence_below {place : Nat} {fence : String} {rest : List String}
    (found : (line :: rest)[place]? = some fence) (opens : opensBlock fence = true)
    (outside : (enclosed rest).length < place) :
    ∃ later, place = (enclosed rest).length + 2 + later ∧
      (rest.drop ((enclosed rest).length + 1))[later]? = some fence := by
  rcases Nat.exists_eq_add_of_lt outside with ⟨later, rfl⟩
  rw [getElem?_cons_succ] at found
  cases later with
  | zero => exact absurd (closesBlock_behind_enclosed found) (not_closesBlock opens)
  | succ later =>
    refine ⟨later, by omega, ?_⟩
    rw [getElem?_drop, Nat.add_assoc, Nat.add_comm 1]
    exact found

/-- A line is the fence of a block or one of its lines, or a fence with nothing to enclose. -/
def Covered (number : Nat) (lines : List String) (found : List Block) (place : Nat) : Prop :=
  enclosed (lines.drop (place + 1)) = [] ∨
    ∃ block ∈ found, block.line ≤ number + place ∧ number + place ≤ block.line + block.body.length

theorem Covered.of_drop {place : Nat} {found more : List Block} (count : Nat) (lines : List String)
    (part : found ⊆ more) (covered : Covered (number + count) (lines.drop count) found place) :
    Covered number lines more (count + place) := by
  rcases covered with empty | ⟨block, member, after, before⟩
  · rw [drop_drop] at empty
    exact .inl empty
  · exact .inr ⟨block, part member, by omega, by omega⟩

theorem covered_of_opensBlock (number : Nat) (lines : List String) {fence : String}
    (opens : opensBlock fence = true) :
    ∀ place, lines[place]? = some fence → Covered number lines (blocksFrom number lines) place := by
  fun_induction blocksFrom number lines with
  | case1 => simp
  | case2 number line rest isOpen body more empty induction =>
    intro place found
    have nothing : enclosed rest = [] := isEmpty_iff.mp empty
    by_cases outside : (enclosed rest).length < place
    · rcases fence_below found opens outside with ⟨later, rfl, below⟩
      exact Covered.of_drop _ (line :: rest) (List.Subset.refl _) (induction later below)
    · rw [nothing, length_nil, Nat.not_lt, Nat.le_zero] at outside
      subst outside
      exact .inl nothing
  | case3 number line rest isOpen body more filled induction =>
    intro place found
    by_cases outside : (enclosed rest).length < place
    · rcases fence_below found opens outside with ⟨later, rfl, below⟩
      exact Covered.of_drop _ (line :: rest) (subset_cons_self _ _) (induction later below)
    · exact .inr ⟨⟨number, body⟩, mem_cons_self, Nat.le_add_right _ _,
        Nat.add_le_add_left (Nat.not_lt.mp outside) _⟩
  | case4 number line rest isClosed induction =>
    intro place found
    cases place with
    | zero =>
      rw [getElem?_cons_zero, Option.some.injEq] at found
      subst found
      exact absurd opens isClosed
    | succ place =>
      rw [Nat.add_comm place]
      exact Covered.of_drop 1 (line :: rest) (List.Subset.refl _) (induction place found)

/-! ## Reports -/

theorem isDecimal_of_isDigit {char : Char} (isDigit : char.isDigit = true) :
    Text.isDecimal char = true ∧ Text.decimalValue char = char.toNat - 48 := by
  have within : 48 ≤ char.toNat ∧ char.toNat ≤ 57 := by
    simpa [Char.isDigit, UInt32.le_iff_toNat_le] using isDigit
  have small : char.toNat - 48 < 10 := by omega
  have head : Text.decimalRanges.head? = some (48, 57) := by decide +kernel
  rcases head?_eq_some_iff.mp head with ⟨others, ranges⟩
  constructor
  · rw [Text.isDecimal, ranges, Text.Ranges.contains, if_neg (Nat.not_lt.mpr within.1),
      if_pos within.2]
  · unfold Text.decimalValue
    rw [ranges, find?_cons_of_pos (by simp only [within, decide_true, Bool.and_self])]
    exact Nat.mod_eq_of_lt small

theorem isDecimal_of_mem_toDigits {digit : Char} (member : digit ∈ Nat.toDigits 10 number) :
    Text.isDecimal digit = true ∧ Text.decimalValue digit = digit.toNat - 48 :=
  isDecimal_of_isDigit (Nat.isDigit_of_mem_toDigits (by decide) (by decide) member)

theorem takeWhile_isDecimal_toDigits (number : Nat) {after : List Char}
    (ends : ∀ char, after.head? = some char → Text.isDecimal char = false) :
    (Nat.toDigits 10 number ++ after).takeWhile Text.isDecimal = Nat.toDigits 10 number := by
  rw [takeWhile_append_of_pos fun digit member => (isDecimal_of_mem_toDigits member).1]
  cases after with
  | nil => simp
  | cons char after => simp [ends char rfl]

theorem foldl_decimalValue_toDigits (number : Nat) :
    (Nat.toDigits 10 number).foldl (fun value digit => value * 10 + Text.decimalValue digit) 0 =
      number := by
  apply (foldl_ext _ _ 0 _).trans (Decimal.valueFrom_toDigits number)
  intro value digit member
  rw [(isDecimal_of_mem_toDigits member).2]

/-- No end of the word is also its start, so it cannot begin before a place where it stands. -/
theorem dropLead?_line {char : Char} {before : List Char}
    (absent : ¬ "line ".toList <:+: char :: before) (after : List Char) :
    Text.Chars.dropLead? "line ".toList (char :: (before ++ ("line ".toList ++ after))) = none := by
  by_contra found
  rcases Option.ne_none_iff_exists'.mp found with ⟨rest, dropped⟩
  have same := Text.Chars.dropLead?_eq_some_iff.mp dropped
  rcases before with _ | ⟨second, _ | ⟨third, _ | ⟨fourth, _ | ⟨fifth, before⟩⟩⟩⟩
  · simp at same
  · simp at same
  · simp at same
  · simp at same
  · have word : "line ".toList = [char, second, third, fourth, fifth] :=
      (append_inj same (by simp)).1.symm
    exact absent ⟨[], before, by rw [word]; rfl⟩

theorem lineNumber?_line {before after : List Char} (inside : Nat)
    (absent : ¬ "line ".toList <:+: before)
    (ends : ∀ char, after.head? = some char → Text.isDecimal char = false) :
    lineNumber? (before ++ ("line ".toList ++ (Nat.toDigits 10 inside ++ after))) = some inside := by
  induction before with
  | nil =>
    have step : ∀ rest, lineNumber? ("line ".toList ++ rest) =
        if (rest.takeWhile Text.isDecimal).isEmpty then lineNumber? ("ine ".toList ++ rest)
        else some ((rest.takeWhile Text.isDecimal).foldl
          (fun value digit => value * 10 + Text.decimalValue digit) 0) := fun _ => rfl
    rw [nil_append, step, takeWhile_isDecimal_toDigits inside ends, if_neg (by simp),
      foldl_decimalValue_toDigits]
  | cons char before induction =>
    have apart := dropLead?_line absent (Nat.toDigits 10 inside ++ after)
    rw [cons_append, lineNumber?, apart]
    exact induction fun present => absent (infix_cons present)

theorem describe_of_lineNumber? (number line : Nat) {inside : Nat} {message : String}
    (named : lineNumber? message.toList = some inside) :
    describe number line message =
      some ("Diagram " ++ Decimal.natText number ++ ": Parse error on line " ++
        Decimal.natText (line + inside) ++ ":\n" ++
          Text.join "\n" ((Text.split message "\n").drop 1)) := by
  have filled : (message == "") = false := by
    rw [beq_eq_false_iff_ne]
    rintro rfl
    cases named
  rw [describe, filled, named]
  simp [String.append_assoc]

/-- What the validators have to say about the next diagram: the message in the failure of the first
one or, if there is none in it, the answer of the second one. -/
def Validators.Say (validators : Validators) (message : String) : Prop :=
  ∃ failure, validators.first.head? = some (some failure) ∧
    (coreMessage? failure = some message ∨
      coreMessage? failure = none ∧ validators.second.head? = some (.answers message))

theorem checkBlock_of_say {validators : Validators} {message : String}
    (say : validators.Say message) (number : Nat) (block : Block) :
    (checkBlock number block validators).1 = describe number block.line message := by
  rcases say with ⟨failure, failed, found | ⟨missing, answered⟩⟩
  · simp [checkBlock, failed, found]
  · rcases head?_eq_some_iff.mp answered with ⟨others, second⟩
    simp [checkBlock, failed, missing, second]

/-! ## The diagrams of a page -/

theorem not_mem_of_mem_split {text : String} (member : line ∈ Text.split text "\n") :
    '\n' ∉ line.toList := by
  rcases mem_map.mp member with ⟨chars, inside, rfl⟩
  rw [String.toList_ofList]
  exact (Text.Chars.mem_splitFrom not_mem_nil inside).1

/-- The blocks of a page stand one below the other, each with the number of its opening fence and the
lines behind it up to the next closing fence or the end. Every opening fence belongs to one of them
unless nothing stands between it and a closing fence. A message that names a line of a diagram is
reported with the number that this line has in the page. -/
theorem blocks_at_lines (text : String) :
    (blocks text).Pairwise
        (fun first second => first.line + first.body.length + 1 < second.line) ∧
      (∀ block ∈ blocks text,
        block.StandsIn 1 (Text.split text "\n") ∧
        Text.split block.text "\n" = block.body ∧
        (∀ inside < block.body.length,
          block.body[inside]? = (Text.split text "\n")[block.line + inside]?) ∧
        ∀ (number inside : Nat) (before after message : String) (validators : Validators),
          message = before ++ "line " ++ Decimal.natText inside ++ after →
          Text.contains before "line " = false →
          (∀ char, after.toList.head? = some char → Text.isDecimal char = false) →
          validators.Say message →
          (checkBlock number block validators).1 =
            some ("Diagram " ++ Decimal.natText number ++ ": Parse error on line " ++
              Decimal.natText (block.line + inside) ++ ":\n" ++
                Text.join "\n" ((Text.split message "\n").drop 1))) ∧
      ∀ place fence, (Text.split text "\n")[place]? = some fence → opensBlock fence = true →
        Covered 1 (Text.split text "\n") (blocks text) place := by
  refine ⟨pairwise_blocksFrom 1 _, ?_, ?_⟩
  · intro block member
    have stands := standsIn_of_mem_blocksFrom member
    have start := stands.body_prefix
    refine ⟨stands, ?_, ?_, ?_⟩
    · apply Text.split_join_mark '\n' stands.1
      intro line inside
      exact not_mem_of_mem_split ((List.drop_sublist _ _).subset (start.subset inside))
    · intro inside within
      rcases start with ⟨below, whole⟩
      rw [← List.getElem?_drop, ← whole, List.getElem?_append_left within]
    · intro number inside before after message validators whole first ends say
      rw [checkBlock_of_say say]
      apply describe_of_lineNumber?
      rw [whole]
      have absent : ¬ "line ".toList <:+: before.toList := by
        rw [← Text.contains_iff, first]
        exact Bool.false_ne_true
      simpa using lineNumber?_line inside absent ends
  · intro place fence found opens
    exact covered_of_opensBlock 1 _ opens place found

end CodeAtlas.Diagram
