import Mathlib
import RecordIndex.Text.Padded

/-! # Numbers in a line

The numbers of a line are its runs of digits. A number set in a column is read back from it, however
wide it is, as long as something other than a digit follows.
-/
namespace RecordIndex.Text

def numbers (line : List Char) : List Nat :=
  ((line.splitOnP fun c => !c.isDigit).filter (· ≠ [])).map (Nat.ofDigitChars 10 · 0)

@[simp] theorem numbers_nil : numbers [] = [] := by simp [numbers]

/-- No number goes on behind a character that is no digit. -/
theorem numbers_append_cons {c : Char} (hc : c.isDigit = false) (line rest : List Char) :
    numbers (line ++ c :: rest) = numbers line ++ numbers rest := by
  rw [numbers, List.splitOnP_append_cons line rest (by simp [hc]), List.filter_append,
    List.map_append]
  rfl

theorem numbers_cons {c : Char} (hc : c.isDigit = false) (rest : List Char) :
    numbers (c :: rest) = numbers rest := by
  simpa using numbers_append_cons hc [] rest

theorem numbers_label_append {label : List Char} (hl : ∀ c ∈ label, c.isDigit = false)
    (rest : List Char) : numbers (label ++ rest) = numbers rest := by
  induction label with
  | nil => rfl
  | cons c label ih =>
    obtain ⟨hc, hlabel⟩ := List.forall_mem_cons.mp hl
    rw [List.cons_append, numbers_cons hc, ih hlabel]

theorem numbers_digits (n : Nat) : numbers (Nat.toDigits 10 n) = [n] := by
  have hdigits : ∀ c ∈ Nat.toDigits 10 n, (!c.isDigit) = false := by
    intro c hc
    rw [Nat.isDigit_of_mem_toDigits (by decide) (by decide : 10 ≤ 10) hc, Bool.not_true]
  rw [numbers, List.splitOnP_eq_singleton hdigits, List.filter_cons_of_pos (by simp),
    List.filter_nil, List.map_singleton, Nat.ofDigitChars_ten_toDigits]

theorem numbers_column (width n : Nat) : numbers (column width n).toList = [n] := by
  have hblank : ∀ c ∈ List.replicate (width - (toString n).toList.length) ' ',
      c.isDigit = false := by
    intro c hc
    rw [List.eq_of_mem_replicate hc]
    rfl
  rw [column, toList_padLeft, numbers_label_append hblank, Nat.toString_eq_ofList_toDigits,
    String.toList_ofList, numbers_digits]

/-- A column is cut off from what follows by any label. -/
theorem numbers_column_append (width n : Nat) {label : List Char} (hne : label ≠ [])
    (hl : ∀ c ∈ label, c.isDigit = false) (rest : List Char) :
    numbers ((column width n).toList ++ (label ++ rest)) = n :: numbers rest := by
  obtain ⟨c, label, rfl⟩ := List.exists_cons_of_ne_nil hne
  obtain ⟨hc, hlabel⟩ := List.forall_mem_cons.mp hl
  rw [List.cons_append, numbers_append_cons hc, numbers_column, numbers_label_append hlabel]
  rfl

end RecordIndex.Text
