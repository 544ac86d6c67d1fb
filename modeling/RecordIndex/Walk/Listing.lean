import RecordIndex.Table

/-! # Listings

A listing yields the records of a table one by one, in bucket order and then in chain order, and
knows from the count of the table how many are still to come.
-/
namespace RecordIndex

structure Listing (α : Type) where
  buckets : Buckets
  arena : Arena α
  /-- The record yielded last. -/
  last : Option Handle
  /-- Where the search for the next chain begins. -/
  resume : Nat
  remaining : Nat

namespace Listing
variable {α : Type}

def of (t : Table) (a : Arena α) : Listing α := ⟨t.buckets, a, none, 0, t.count⟩

def sizeHint (l : Listing α) : Nat × Option Nat := (l.remaining, some l.remaining)

/-- How many records are still to come; the two bounds have to agree on it. -/
def length (l : Listing α) : Except Failure Nat :=
  if l.sizeHint.2 = some l.sizeHint.1 then .ok l.sizeHint.1 else .error .corrupted

def successor (l : Listing α) : Except Failure (Option Handle) :=
  match l.last with
  | none => .ok none
  | some h =>
    match l.arena.get? h with
    | some r => .ok r.next
    | none => .error .corrupted

def next? (l : Listing α) : Except Failure (Option (Entry α × Listing α)) := do
  match l.buckets.step? (← l.successor) l.resume with
  | none => return none
  | some (h, resume) =>
    match l.arena.get? h, l.remaining with
    | some r, remaining + 1 => return some ((h, r), { l with last := some h, resume, remaining })
    | _, _ => throw .corrupted

end Listing
end RecordIndex
