import RecordIndex.Table

/-! # Teardown

A table that is being taken apart gives up its records one by one, in bucket order and then in chain
order. A record is out of its chain, its links cleared, before it is handed over, and the link to
the next one is kept here; so whatever is done to it then cannot lead the teardown astray.
-/
namespace RecordIndex

structure Teardown where
  arena : ArenaId
  buckets : Buckets
  /-- The rest of the chain that was begun. -/
  successor : Option Handle
  /-- Where the search for the next chain begins. -/
  resume : Nat

namespace Teardown
variable {α : Type}

def of (t : Table) : Teardown := ⟨t.arena, t.buckets, none, 0⟩

def next? (d : Teardown) (a : Arena α) : Arena α × Except Failure (Option (Handle × Teardown)) :=
  match d.buckets.step? d.successor d.resume with
  | none => (a, .ok none)
  | some (h, resume) =>
    match a.get? h with
    | some r => (a.unlink h, .ok (some (h, { d with successor := r.next, resume })))
    | none => (a, .error .corrupted)

end Teardown
end RecordIndex
