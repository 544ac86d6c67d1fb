import RecordIndex.Table

/-! # Search

A search goes through the chain of one key from its head, so among records of equal key it meets the
most recently inserted first.
-/
namespace RecordIndex.Table
variable {α : Type}

def locate (t : Table) (a : Arena α) (key : UInt64) (p : Handle → Record α → Bool) :
    Except Failure (Option (Option Handle × Entry α)) :=
  match t.buckets[t.buckets.slotOf key]? with
  | some head => a.locate p head
  | none => .error .corrupted

def accepts (key : UInt64) (accept : Record α → Bool) (_ : Handle) (r : Record α) : Bool :=
  r.key == key && accept r

def lookup (t : Table) (a : Arena α) (key : UInt64) : Except Failure (Option Handle) :=
  (t.locate a key (accepts key fun _ => true)).map fun found => found.map (·.2.1)

/-- The most recently inserted record with the key of `template` for which `same template` holds.
The template need not be a record of the arena. -/
def lookupSame (t : Table) (a : Arena α) (template : Record α) (same : Record α → Record α → Bool) :
    Except Failure (Option Handle) :=
  (t.locate a template.key (accepts template.key (same template))).map
    fun found => found.map (·.2.1)

end RecordIndex.Table
