import CodeAtlas.Decimal.Written
import Mathlib.Algebra.Order.Ring.Nat
import Mathlib.Data.List.Basic

/-!
The digits of whole numbers: what is written for a number reads back as the number, also when it is
filled with zeros on the left.
-/

namespace CodeAtlas.Decimal

def valueFrom (value : Nat) (digits : List Char) : Nat :=
  digits.foldl (fun value digit => value * 10 + (digit.toNat - 48)) value

theorem valueFrom_toDigits (value : Nat) : valueFrom 0 (Nat.toDigits 10 value) = value := by
  have read := @Nat.ofDigitChars_toDigits 10 value (by decide) (by decide)
  rw [Nat.ofDigitChars_eq_foldl] at read
  have same : (fun (sofar : Nat) (digit : Char) => 10 * sofar + (digit.toNat - '0'.toNat)) =
      fun sofar digit => sofar * 10 + (digit.toNat - 48) := by
    funext sofar digit
    rw [Nat.mul_comm]
    rfl
  rw [same] at read
  exact read

@[simp] theorem toList_natText (value : Nat) : (natText value).toList = Nat.toDigits 10 value :=
  String.toList_ofList

theorem isDigit_of_mem_natText {value : Nat} {char : Char} (member : char ∈ (natText value).toList) :
    char.isDigit = true := by
  rw [toList_natText] at member
  exact Nat.isDigit_of_mem_toDigits (by decide) (by decide) member

theorem ne_of_isDigit {char other : Char} (isDigit : char.isDigit = true)
    (noDigit : other.isDigit = false) : other ≠ char := by
  rintro rfl
  rw [noDigit] at isDigit
  cases isDigit

theorem exists_first_digit {value : Nat} (positive : 0 < value) :
    ∃ first rest, Nat.toDigits 10 value = first :: rest ∧ first ≠ '0' := by
  induction value using Nat.strongRecOn with
  | ind value induction =>
    rw [Nat.toDigits_eq_if (by decide)]
    split
    · rename_i small
      have notZero : ∀ digit < 10, 0 < digit → Nat.digitChar digit ≠ '0' := by decide
      exact ⟨_, [], rfl, notZero value small positive⟩
    · rcases induction (value / 10) (by omega) (by omega) with ⟨first, rest, digits, notZero⟩
      exact ⟨first, rest ++ [Nat.digitChar (value % 10)], by rw [digits]; rfl, notZero⟩

/-! ## Zeros on the left -/

theorem toList_paddedText (width value : Nat) :
    (paddedText width value).toList =
      List.replicate (width - (Nat.toDigits 10 value).length) '0' ++ Nat.toDigits 10 value := by
  rw [paddedText, Text.padLeft, String.toList_append, String.toList_ofList, toList_natText,
    ← String.length_toList, toList_natText]

theorem isDigit_of_mem_paddedText {width value : Nat} {char : Char}
    (member : char ∈ (paddedText width value).toList) : char.isDigit = true := by
  rw [toList_paddedText] at member
  rcases List.mem_append.mp member with zero | digit
  · rw [List.eq_of_mem_replicate zero]
    rfl
  · exact Nat.isDigit_of_mem_toDigits (by decide) (by decide) digit

theorem length_paddedText {width value : Nat} (filled : 0 < width) (fits : value < 10 ^ width) :
    (paddedText width value).toList.length = width := by
  have short := (@Nat.length_toDigits_le_iff 10 value width (by decide) filled).mpr fits
  rw [toList_paddedText, List.length_append, List.length_replicate]
  omega

theorem valueFrom_zeros (count : Nat) (digits : List Char) :
    valueFrom 0 (List.replicate count '0' ++ digits) = valueFrom 0 digits := by
  induction count with
  | zero => rfl
  | succ count induction => exact induction

theorem valueFrom_paddedText (width value : Nat) :
    valueFrom 0 (paddedText width value).toList = value := by
  rw [toList_paddedText, valueFrom_zeros, valueFrom_toDigits]

end CodeAtlas.Decimal
