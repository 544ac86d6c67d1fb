import Mathlib
import RecordIndex.Census.Report
import RecordIndex.Proofs.Text.Numbers

/-! # Reading a census report

A row names its size and the counts at this size, and a size without a row counts nothing. So the
rows of a report determine the census, and a census is read back from the lines of its report.
-/
namespace RecordIndex.Census
open Text

theorem numbers_row (size chains keys elements : Nat) :
    numbers (row size chains keys elements).toList = [size, chains, keys, elements] := by
  have hmark : ∀ c ∈ (if size = topSize then ">" else "N").toList ++ "=".toList,
      c.isDigit = false := by
    split <;> simp
  have hchains : ∀ c ∈ " : nr chain ".toList, c.isDigit = false := by simp
  have hkeys : ∀ c ∈ ", nr keys ".toList, c.isDigit = false := by simp
  have helements : ∀ c ∈ ", nr elts ".toList, c.isDigit = false := by simp
  simp only [row, String.toList_append, List.append_assoc]
  rw [← List.append_assoc, numbers_label_append hmark,
    numbers_column_append 2 size (by simp) hchains, numbers_column_append 6 chains (by simp) hkeys,
    numbers_column_append 6 keys (by simp) helements, numbers_column]

def numbersAt (c : Census) (i : Fin (topSize + 1)) : Option (List Nat) :=
  if c.chains.get i = 0 ∧ c.keys.get i = 0 ∧ c.elements.get i = 0 then none
  else some [i, c.chains.get i, c.keys.get i, c.elements.get i]

theorem numbers_rows (c : Census) : (c.rows.map fun line => numbers line.toList) =
    (List.finRange (topSize + 1)).filterMap c.numbersAt := by
  rw [rows, List.map_filterMap]
  congr 1
  funext i
  simp only [numbersAt, Vector.get_eq_getElem, Fin.getElem_fin]
  split
  · rfl
  · rw [Option.map_some, numbers_row]

theorem head?_numbersAt {c : Census} {i : Fin (topSize + 1)} {ns : List Nat}
    (hi : c.numbersAt i = some ns) : ns.head? = some i.val := by
  rw [numbersAt] at hi
  split at hi
  · cases hi
  · obtain rfl := Option.some.inj hi
    rfl

/-- The first number of a row tells its size, so a size is found in its own row only. -/
theorem find?_numbersAt (c : Census) (i : Fin (topSize + 1)) :
    ((List.finRange (topSize + 1)).filterMap c.numbersAt).find? (·.head? = some i.val) =
      c.numbersAt i := by
  cases hfound : ((List.finRange (topSize + 1)).filterMap c.numbersAt).find?
      (·.head? = some i.val) with
  | none =>
    cases hi : c.numbersAt i with
    | none => rfl
    | some ns =>
      have hmem := List.mem_filterMap.mpr ⟨i, List.mem_finRange i, hi⟩
      exact absurd (by simpa using head?_numbersAt hi) (List.find?_eq_none.mp hfound ns hmem)
  | some ns =>
    obtain ⟨j, -, hj⟩ := List.mem_filterMap.mp (List.mem_of_find?_eq_some hfound)
    have hhead := List.find?_some hfound
    rw [head?_numbersAt hj, decide_eq_true_eq, Option.some_inj] at hhead
    rw [← Fin.ext hhead, hj]

/-! ## The census of a report -/

def countsIn (rows : List String) (size : Nat) : Nat × Nat × Nat :=
  match (rows.map fun line => numbers line.toList).find? (·.head? = some size) with
  | some [_, chains, keys, elements] => (chains, keys, elements)
  | _ => (0, 0, 0)

def ofRows (rows : List String) : Census where
  chains := Vector.ofFn fun i => (countsIn rows i).1
  keys := Vector.ofFn fun i => (countsIn rows i).2.1
  elements := Vector.ofFn fun i => (countsIn rows i).2.2

/-- The census that these are the lines of the report of: the first line is the heading and the last
one has the totals. -/
def reread (lines : List String) : Census := ofRows lines.tail.dropLast

theorem countsIn_rows (c : Census) (i : Fin (topSize + 1)) :
    countsIn c.rows i = (c.chains.get i, c.keys.get i, c.elements.get i) := by
  rw [countsIn, numbers_rows, find?_numbersAt, numbersAt]
  by_cases hi : c.chains.get i = 0 ∧ c.keys.get i = 0 ∧ c.elements.get i = 0
  · rw [if_pos hi, hi.1, hi.2.1, hi.2.2]
  · rw [if_neg hi]

theorem ofRows_rows (c : Census) : ofRows c.rows = c := by
  cases c with
  | mk chains keys elements =>
    simp only [ofRows, countsIn_rows, mk.injEq]
    refine ⟨?_, ?_, ?_⟩ <;>
    · apply Vector.ext
      intro i hi
      exact Vector.getElem_ofFn hi

theorem messages_report (c : Census) (table : String) :
    (c.report table).map Event.message = heading :: c.rows ++ [c.totals] := by
  rw [report, List.map_map]
  exact List.map_id _

/-- The lines of a report give back the census, whatever its counts are, so different censuses have
different reports. -/
theorem report_lossless (table : String) :
    (∀ c : Census, reread ((c.report table).map Event.message) = c) ∧
      Function.Injective fun c : Census => (c.report table).map Event.message := by
  have hreread : ∀ c : Census, reread ((c.report table).map Event.message) = c := by
    intro c
    rw [messages_report, reread, List.cons_append, List.tail_cons, List.dropLast_concat,
      ofRows_rows]
  exact ⟨hreread, Function.LeftInverse.injective hreread⟩

def crowd (keys : Nat) : Census := { Census.empty with keys := Census.empty.keys.set 20 keys }

/-- Counts that are wider than their column are told apart by the last digit. -/
theorem crowd_reports_differ : ((crowd 1234567).report "t").map Event.message ≠
    ((crowd 1234568).report "t").map Event.message := by
  intro he
  have hkeys := congrArg (fun c => c.keys.get 20) ((report_lossless "t").2 he)
  exact absurd hkeys (by decide)

end RecordIndex.Census
