import RecordIndex.Table.Search

/-! # Removal

Removing a record takes it out of its chain and clears its links; the record itself stays in the
arena.
-/
namespace RecordIndex.Table
variable {α : Type}

/-- Takes the entry out of its chain; `before` is the record in front of it, if any. -/
def detach (t : Table) (a : Arena α) (before : Option Handle) (e : Entry α) :
    Table × Arena α × Except Failure Handle :=
  match t.count with
  | 0 => (t, a, .error .corrupted)
  | count + 1 =>
    let a := a.unlink e.1
    match before with
    | some p => ({ t with count }.touch, a.redirect p e.2.next, .ok e.1)
    | none =>
      let buckets := t.buckets.setIfInBounds (t.buckets.slotOf e.2.key) e.2.next
      ({ t with buckets, count }.touch, a, .ok e.1)

def removeFirst (t : Table) (a : Arena α) (key : UInt64) (p : Handle → Record α → Bool) :
    Table × Arena α × Except Failure (Option Handle) :=
  match t.locate a key p with
  | .error e => (t, a, .error e)
  | .ok none => (t, a, .ok none)
  | .ok (some (before, e)) =>
    let (t, a, removed) := t.detach a before e
    (t, a, removed.map some)

def remove (t : Table) (a : Arena α) (key : UInt64) :
    Table × Arena α × Except Failure (Option Handle) :=
  t.removeFirst a key (accepts key fun _ => true)

def removeSame (t : Table) (a : Arena α) (template : Record α)
    (same : Record α → Record α → Bool) : Table × Arena α × Except Failure (Option Handle) :=
  t.removeFirst a template.key (accepts template.key (same template))

def removeHandle (t : Table) (a : Arena α) (h : Handle) (key : UInt64) :
    Table × Arena α × Except Failure Handle :=
  match t.locate a key fun k _ => k == h with
  | .error e => (t, a, .error e)
  | .ok none => (t, a, .error .corrupted)
  | .ok (some (before, e)) => t.detach a before e

end RecordIndex.Table
