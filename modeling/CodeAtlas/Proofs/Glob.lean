import CodeAtlas.Glob
import Mathlib.Data.List.Infix

/-!
What file name patterns match. Characters without a meaning of their own match themselves, and a
star matches any text; so a pattern of such characters matches its own text, with a star before
it every text that ends with it, and with a star on both sides every text that it stands in.
-/

namespace CodeAtlas.Glob

open List

def isPlain (char : Char) : Bool := char != '*' && char != '?' && char != '['

/-! ## The parts of a pattern -/

theorem parseFrom_plain (fuel : Nat) {text : List Char} (plain : text.all isPlain = true)
    (rest : List Char) :
    parseFrom (text.length + fuel) (text ++ rest) = text.map .literal ++ parseFrom fuel rest := by
  induction text with
  | nil => simp
  | cons char text induction =>
    rw [all_cons, Bool.and_eq_true] at plain
    have step : (char :: text).length + fuel = text.length + fuel + 1 := by
      rw [length_cons]
      omega
    have own : char ≠ '*' ∧ char ≠ '?' ∧ char ≠ '[' := by
      simpa [isPlain, and_assoc] using plain.1
    rw [step, cons_append, parseFrom, map_cons, cons_append, induction plain.2]
    · exact own.1
    · exact own.2.1
    · exact own.2.2

theorem parse_ofList (pattern : List Char) :
    parse (String.ofList pattern) = parseFrom pattern.length pattern := by
  rw [parse, String.toList_ofList, ← String.length_toList, String.toList_ofList]

/-! ## Matching -/

theorem matchFrom_literals (lead : List Char) (parts : List Glob) (text : List Char) :
    matchFrom (lead.map .literal ++ parts) text = true ↔
      ∃ rest, text = lead ++ rest ∧ matchFrom parts rest = true := by
  induction lead generalizing text with
  | nil => simp
  | cons char lead induction =>
    cases text with
    | nil =>
      rw [map_cons, cons_append, matchFrom]
      · simp
      · rintro ⟨⟩
    | cons first text =>
      rw [map_cons, cons_append, matchFrom, Bool.and_eq_true, induction]
      · simp only [accepts, beq_iff_eq, cons_append, List.cons.injEq]
        constructor
        · rintro ⟨rfl, rest, rfl, matched⟩
          exact ⟨rest, ⟨rfl, rfl⟩, matched⟩
        · rintro ⟨rest, ⟨rfl, rfl⟩, matched⟩
          exact ⟨rfl, rest, rfl, matched⟩
      · rintro ⟨⟩

theorem matchFrom_anyText (parts : List Glob) (text : List Char) :
    matchFrom (.anyText :: parts) text = true ↔
      ∃ rest, rest <:+ text ∧ matchFrom parts rest = true := by
  induction text with
  | nil =>
    rw [matchFrom]
    simp
  | cons char text induction =>
    rw [matchFrom, Bool.or_eq_true, induction]
    constructor
    · rintro (here | ⟨rest, ends, matched⟩)
      · exact ⟨char :: text, suffix_rfl, here⟩
      · exact ⟨rest, ends.trans (suffix_cons char text), matched⟩
    · rintro ⟨rest, ends, matched⟩
      rcases suffix_cons_iff.mp ends with rfl | later
      · exact .inl matched
      · exact .inr ⟨rest, later, matched⟩

theorem matchFrom_nil (text : List Char) : matchFrom [] text = true ↔ text = [] := by
  rw [matchFrom, List.isEmpty_iff]

theorem matchFrom_only_literals (lead text : List Char) :
    matchFrom (lead.map .literal) text = true ↔ text = lead := by
  have whole := matchFrom_literals lead [] text
  rw [append_nil] at whole
  simp [whole, matchFrom_nil]

/-! ## Patterns with stars at their ends -/

variable {pattern : List Char} (plain : pattern.all isPlain = true)

include plain

theorem parseFrom_only_plain : parseFrom pattern.length pattern = pattern.map .literal := by
  simpa [parseFrom] using parseFrom_plain 0 plain []

variable (text : String)

theorem isMatch_plain : isMatch text (String.ofList pattern) = true ↔ text.toList = pattern := by
  rw [isMatch, parse_ofList, parseFrom_only_plain plain, matchFrom_only_literals]

theorem isMatch_star_plain :
    isMatch text (String.ofList ('*' :: pattern)) = true ↔ pattern <:+ text.toList := by
  rw [isMatch, parse_ofList, length_cons, parseFrom, parseFrom_only_plain plain, matchFrom_anyText]
  simp [matchFrom_only_literals]

theorem isMatch_star_plain_star :
    isMatch text (String.ofList ('*' :: (pattern ++ ['*']))) = true ↔
      pattern <:+: text.toList := by
  have all : ∀ rest : List Char, matchFrom [.anyText] rest = true := fun rest =>
    (matchFrom_anyText [] rest).mpr ⟨[], nil_suffix, (matchFrom_nil []).mpr rfl⟩
  rw [isMatch, parse_ofList, length_cons, length_append, parseFrom,
    length_singleton, parseFrom_plain 1 plain, matchFrom_anyText]
  constructor
  · rintro ⟨rest, ends, matched⟩
    rcases (matchFrom_literals _ _ _).mp matched with ⟨after, rfl, _⟩
    exact (prefix_append _ after).isInfix.trans ends.isInfix
  · rintro ⟨before, after, whole⟩
    refine ⟨pattern ++ after, ⟨before, ?_⟩, (matchFrom_literals _ _ _).mpr ⟨after, rfl, all _⟩⟩
    rw [← append_assoc, whole]

end CodeAtlas.Glob
