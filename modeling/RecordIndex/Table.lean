import RecordIndex.Allocator
import RecordIndex.Buckets
import RecordIndex.Event
import RecordIndex.Policy
import RecordIndex.Text.Quoted

/-! # Index tables

A table indexes records of one arena by their keys. It owns a bucket array and never a record: the
chains run through the links of the records themselves.
-/
namespace RecordIndex

abbrev ArenaId := Nat

/-- Position of a table in its workspace; it is never given to a second table. -/
abbrev TableId := Nat

structure Table where
  id : TableId
  /-- The only arena whose records the table may index. -/
  arena : ArenaId
  name : String
  policy : Policy
  buckets : Buckets
  /-- Number of indexed records. -/
  count : Nat
  /-- Advanced by every structural change; cursors compare it. -/
  epoch : UInt64
  /-- Whether the table has said that it can grow no more. -/
  ceilingReported : Bool

namespace Table
variable {α : Type}

/-- An array of empty chains. A bucket takes eight bytes. -/
def newBuckets (m : Allocator) (table : String) (capacity : UInt64) : Except Failure Buckets :=
  if m.grants (8 * capacity.toNat) then .ok (Array.replicate capacity.toNat none)
  else .error (.allocationFailed table capacity.toNat)

def create (m : Allocator) (id : TableId) (arena : ArenaId) (name : String) (policy : Policy) :
    Except Failure Table := do
  if name.isEmpty then throw .missingName
  policy.validate
  let buckets ← newBuckets m name (policy.initial?.getD 0)
  return { id, arena, name, policy, buckets, count := 0, epoch := 0, ceilingReported := false }

def capacity (t : Table) : Nat := t.buckets.size

def isEmpty (t : Table) : Bool := t.count == 0

def loadFactor (t : Table) : Float := t.count.toFloat / t.capacity.toFloat

def description (t : Table) : String :=
  "HashTable \x7b name: " ++ Text.quoted t.name ++ ", count: " ++ toString t.count ++
    ", capacity: " ++ toString t.capacity ++ " \x7d"

def touch (t : Table) : Table := { t with epoch := t.epoch + 1 }

def entries (t : Table) (a : Arena α) : Except Failure (List (Entry α)) :=
  match t.buckets.entries? a with
  | some entries => .ok entries
  | none => .error .corrupted

def handles (t : Table) (a : Arena α) : Except Failure (List Handle) :=
  (t.entries a).map fun entries => entries.map (·.1)

end Table
end RecordIndex
