import RecordIndex.Table

/-! # Census of a table

How long the chains are, and how often keys and elements repeat. Two records with the same key are
the same element where a comparator holds of them; it may be any relation. Equal keys always share a
chain, so counts taken chain by chain are counts over the whole table.
-/
namespace RecordIndex

/-- Sizes from this one on are counted together. -/
def topSize : Nat := 20

/-- At `n` the number of groups of size `n`, at `topSize` that of all larger ones too. -/
abbrev Histogram := Vector Nat (topSize + 1)

namespace Histogram

def empty : Histogram := Vector.replicate _ 0

def add (h : Histogram) (size : Nat) : Histogram :=
  let i := min size topSize
  have : i < topSize + 1 := by omega
  h.set i (h[i] + 1)

def addAll (h : Histogram) (sizes : List Nat) : Histogram := sizes.foldl add h

def total (h : Histogram) : Nat := h.toList.foldl (· + ·) 0

end Histogram

structure Census where
  /-- Chains by the number of their records. -/
  chains : Histogram
  /-- Keys by the number of records that have them. -/
  keys : Histogram
  /-- Elements by the number of records that are the same. -/
  elements : Histogram
deriving DecidableEq

namespace Census
variable {α : Type}

def empty : Census := ⟨.empty, .empty, .empty⟩

def groups (chain : List (Record α)) : List (List (Record α)) :=
  (chain.mergeSort fun r s => r.key ≤ s.key).splitBy fun r s => r.key == s.key

/-- Counts the elements among records of one key. A record like none before it stands for its
element, whose size is the number of records from it on that are like it; a record is compared as
the second of the two. The records before are given apart, the nearest first. -/
def addElements (same : Record α → Record α → Bool) :
    List (Record α) → List (Record α) → Histogram → Histogram
  | _, [], h => h
  | before, r :: rest, h =>
    let h := if before.any (same · r) then h else h.add ((r :: rest).countP (same · r))
    addElements same (r :: before) rest h

def addChain (same : Record α → Record α → Bool) (c : Census) (chain : List (Record α)) :
    Census :=
  let groups := groups chain
  { chains := c.chains.add chain.length
    keys := c.keys.addAll (groups.map List.length)
    elements := groups.foldl (fun h group => addElements same [] group h) c.elements }

def take? (same : Record α → Record α → Bool) (b : Buckets) (a : Arena α) : Option Census :=
  b.foldlM (fun c head => (a.chain? head).map fun chain => c.addChain same (chain.map (·.2))) empty

def slots (c : Census) : Nat := c.chains.total

def emptySlots (c : Census) : Nat := c.chains[0]

def distinctKeys (c : Census) : Nat := c.keys.total

def distinctElements (c : Census) : Nat := c.elements.total

def averageChain (c : Census) : Float :=
  c.distinctElements.toFloat / (max (c.slots - c.emptySlots) 1).toFloat

end Census

def Table.census {α : Type} (t : Table) (a : Arena α) (same : Record α → Record α → Bool) :
    Except Failure Census :=
  match Census.take? same t.buckets a with
  | some c => .ok c
  | none => .error .corrupted

end RecordIndex
