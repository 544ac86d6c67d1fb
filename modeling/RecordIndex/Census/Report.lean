import RecordIndex.Census
import RecordIndex.Text.Padded
import RecordIndex.Text.Tenths

/-! # Census report

A heading, a row for each size of which the census knows a group, and a line of totals. The row of
the top size is marked, since it stands for larger groups too.
-/
namespace RecordIndex.Census
open Text

def heading : String := "nr occurrences of chains of len N, N-plicated keys, N-plicated elts"

def row (size chains keys elements : Nat) : String :=
  (if size = topSize then ">" else "N") ++ "=" ++ column 2 size ++
    " : nr chain " ++ column 6 chains ++ ", nr keys " ++ column 6 keys ++
    ", nr elts " ++ column 6 elements

/-- The rows in order of size, without those that count nothing. -/
def rows (c : Census) : List String :=
  (List.finRange (topSize + 1)).filterMap fun (i : Fin (topSize + 1)) =>
    if c.chains[i] = 0 ∧ c.keys[i] = 0 ∧ c.elements[i] = 0 then none
    else some (row i c.chains[i] c.keys[i] c.elements[i])

def totals (c : Census) : String :=
  "total nr of unique slots: " ++ column 6 c.slots ++ ", keys " ++ column 6 c.distinctKeys ++
    ", elts " ++ column 6 c.distinctElements ++
    ". Avg chain len " ++ padLeft 3 (tenths c.averageChain)

def report (c : Census) (table : String) : List Event :=
  (heading :: c.rows ++ [c.totals]).map (.reported table)

end RecordIndex.Census
