import RecordIndex.Table.Removal

/-! # Cursors

A cursor walks a table in bucket order and then in chain order, and leaves the table free to change
between two steps. A structural change makes every cursor of the table stale until it is set on the
table anew, but for a removal through the cursor itself.
-/
namespace RecordIndex

/-- Where a cursor stands. `resume` is the bucket at which the search for the next chain begins. -/
inductive Place where
  /-- Before the first record. -/
  | start
  /-- On the record it passed last. -/
  | on (h : Handle) (resume : Nat)
  /-- Where the record it passed last was removed, in front of its successor. -/
  | gap (successor : Option Handle) (resume : Nat)
  /-- Past the last record. -/
  | finished
deriving DecidableEq

structure Cursor where
  table : TableId
  tableName : String
  epoch : UInt64
  place : Place

namespace Cursor
variable {α : Type}

def atStart (t : Table) : Cursor := ⟨t.id, t.name, t.epoch, .start⟩

/-- The cursor was set on this table, and the table has not changed since other than through it. -/
def isValid (c : Cursor) (t : Table) : Bool := c.table == t.id && c.epoch == t.epoch

def current? (c : Cursor) : Option Handle :=
  match c.place with
  | .on h _ => some h
  | _ => none

def isFinished (c : Cursor) : Bool := c.place == .finished

/-- The link to follow next and where to search for a chain if there is none; `none` past the
end. -/
def onward (c : Cursor) (a : Arena α) : Except Failure (Option (Option Handle × Nat)) :=
  match c.place with
  | .start => .ok (some (none, 0))
  | .on h resume =>
    match a.get? h with
    | some r => .ok (some (r.next, resume))
    | none => .error .corrupted
  | .gap successor resume => .ok (some (successor, resume))
  | .finished => .ok none

def advance (c : Cursor) (t : Table) (a : Arena α) : Except Failure (Cursor × Option Handle) := do
  match ← c.onward a with
  | none => return (c, none)
  | some (successor, resume) =>
    match t.buckets.step? successor resume with
    | some (h, resume) => return ({ c with place := .on h resume }, some h)
    | none => return ({ c with place := .finished }, none)

/-- Removes the record a valid cursor stands on; the cursor stays valid and goes on with the
successor of that record. -/
def removeCurrent (c : Cursor) (t : Table) (a : Arena α) :
    Table × Arena α × Except Failure (Cursor × Handle) :=
  match c.place with
  | .on h resume =>
    match a.get? h with
    | none => (t, a, .error .corrupted)
    | some r =>
      let (t, a, removed) := t.removeHandle a h r.key
      let c := { c with epoch := t.epoch, place := .gap r.next resume }
      (t, a, removed.map fun h => (c, h))
  | _ => (t, a, .error .noCurrentRecord)

end Cursor
end RecordIndex
