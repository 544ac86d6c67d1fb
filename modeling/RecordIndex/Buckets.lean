import RecordIndex.Arena.Chain

/-! # Bucket arrays

An index is an array of chains. A record goes to the chain that its key selects, and the records of
the index are read in bucket order, each chain from its head.
-/
namespace RecordIndex

abbrev Buckets := Array (Option Handle)

namespace Buckets
variable {α : Type}

def slotOf (b : Buckets) (key : UInt64) : Nat := key.toNat % b.size

/-- All records, in bucket order and then in chain order. -/
def entries? (b : Buckets) (a : Arena α) : Option (List (Entry α)) :=
  b.foldrM (fun head rest => (a.chain? head).map (· ++ rest)) []

def pushFront (b : Buckets) (a : Arena α) (h : Handle) (key : UInt64) : Buckets × Arena α :=
  let i := b.slotOf key
  let next := b[i]?.join
  (b.setIfInBounds i (some h), a.link h next)

def firstFrom? (b : Buckets) (i : Nat) : Option (Nat × Handle) :=
  if hi : i < b.size then
    match b[i] with
    | some h => some (i, h)
    | none => b.firstFrom? (i + 1)
  else none
termination_by b.size - i

/-- One step of a walk: to the successor in the chain, or else to the first chain at or after
`resume`. The answer holds the record reached and where the next search for a chain begins. -/
def step? (b : Buckets) (successor : Option Handle) (resume : Nat) : Option (Handle × Nat) :=
  match successor with
  | some h => some (h, resume)
  | none => (b.firstFrom? resume).map fun (i, h) => (h, i + 1)

end Buckets
end RecordIndex
