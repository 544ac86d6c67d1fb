import RecordIndex.Census
import RecordIndex.Table.Insertion
import RecordIndex.Walk.Cursor
import RecordIndex.Walk.Listing
import RecordIndex.Walk.Teardown

/-! # Workspaces

A workspace holds arenas and the tables over them and names each by its position, which is never
used again. Every operation on a table names the arena too and is refused if it is not the one the
table was created over; a cursor is tried before the arena is. An operation that may change the
workspace returns it also when it is refused.
-/
namespace RecordIndex

inductive Holding where
  /-- A table in use. -/
  | active (t : Table)
  /-- A table that is being taken apart. -/
  | closing (d : Teardown)
  /-- Nothing any more. -/
  | gone

structure Workspace (α : Type) where
  arenas : Array (Arena α)
  tables : Array Holding

namespace Workspace
variable {α β : Type}

def empty : Workspace α := ⟨#[], #[]⟩

def arena? (w : Workspace α) (p : ArenaId) : Option (Arena α) := w.arenas[p]?

def table? (w : Workspace α) (t : TableId) : Option Table :=
  match w.tables[t]? with
  | some (.active table) => some table
  | _ => none

@[inline] def setArena (w : Workspace α) (p : ArenaId) (a : Arena α) : Workspace α :=
  { w with arenas := w.arenas.setIfInBounds p a }

@[inline] def setTable (w : Workspace α) (t : TableId) (h : Holding) : Workspace α :=
  { w with tables := w.tables.setIfInBounds t h }

def getArena (w : Workspace α) (p : ArenaId) : Except Failure (Arena α) :=
  match w.arena? p with
  | some a => .ok a
  | none => .error .unknownReference

def getTable (w : Workspace α) (t : TableId) : Except Failure Table :=
  match w.table? t with
  | some table => .ok table
  | none => .error .unknownReference

def arenaOf (w : Workspace α) (table : Table) (p : ArenaId) : Except Failure (Arena α) :=
  if p = table.arena then w.getArena p else .error (.foreignArena table.name)

def getPair (w : Workspace α) (t : TableId) (p : ArenaId) : Except Failure (Table × Arena α) := do
  let table ← w.getTable t
  return (table, ← w.arenaOf table p)

def getWalked (w : Workspace α) (c : Cursor) (t : TableId) (p : ArenaId) :
    Except Failure (Table × Arena α) := do
  let table ← w.getTable t
  if !c.isValid table then throw (.staleCursor c.tableName)
  return (table, ← w.arenaOf table p)

/-- Replaces an arena by what `f` makes of it. The workspace does not hold the arena meanwhile, so
`f` may update it in place. -/
@[inline] def onArena (w : Workspace α) (p : ArenaId) (f : Arena α → Arena α × Except Failure β) :
    Workspace α × Except Failure β :=
  match w.getArena p with
  | .error e => (w, .error e)
  | .ok a =>
    let w := w.setArena p .empty
    let (a, answer) := f a
    (w.setArena p a, answer)

@[inline] def onPair (w : Workspace α) (t : TableId) (p : ArenaId)
    (found : Except Failure (Table × Arena α)) (refuse : Failure → β)
    (f : Table → Arena α → Table × Arena α × β) : Workspace α × β :=
  match found with
  | .error e => (w, refuse e)
  | .ok (table, a) =>
    let w := (w.setArena p .empty).setTable t .gone
    let (table, a, answer) := f table a
    ((w.setArena p a).setTable t (.active table), answer)

/-! ## Arenas -/

def addArena (w : Workspace α) : Workspace α × ArenaId :=
  let p := w.arenas.size
  ({ w with arenas := w.arenas.push .empty }, p)

def alloc (w : Workspace α) (p : ArenaId) (r : Record α) : Workspace α × Except Failure Handle :=
  w.onArena p fun a =>
    let (a, h) := a.alloc r
    (a, .ok h)

def release (w : Workspace α) (p : ArenaId) (h : Handle) :
    Workspace α × Except Failure (Record α) :=
  w.onArena p (·.release h)

def rekey (w : Workspace α) (p : ArenaId) (h : Handle) (key : UInt64) :
    Workspace α × Except Failure Unit :=
  w.onArena p (·.rekey h key)

def setPayload (w : Workspace α) (p : ArenaId) (h : Handle) (payload : α) :
    Workspace α × Except Failure (Option α) :=
  w.onArena p fun a =>
    let (a, old) := a.setPayload h payload
    (a, .ok old)

/-! ## Tables -/

def create (w : Workspace α) (m : Allocator) (p : ArenaId) (name : String) (policy : Policy) :
    Workspace α × Except Failure TableId :=
  let t := w.tables.size
  match w.getArena p, Table.create m t p name policy with
  | .error e, _ => (w, .error e)
  | .ok _, .error e => (w, .error e)
  | .ok _, .ok table => ({ w with tables := w.tables.push (.active table) }, .ok t)

def insert (w : Workspace α) (m : Allocator) (t : TableId) (p : ArenaId) (h : Handle) :
    Workspace α × List Event × Except Failure Unit :=
  w.onPair t p (w.getPair t p) (fun e => ([], .error e)) (·.insert m · h)

def lookup (w : Workspace α) (t : TableId) (p : ArenaId) (key : UInt64) :
    Except Failure (Option Handle) := do
  let (table, a) ← w.getPair t p
  table.lookup a key

def lookupSame (w : Workspace α) (t : TableId) (p : ArenaId) (template : Record α)
    (same : Record α → Record α → Bool) : Except Failure (Option Handle) := do
  let (table, a) ← w.getPair t p
  table.lookupSame a template same

def remove (w : Workspace α) (t : TableId) (p : ArenaId) (key : UInt64) :
    Workspace α × Except Failure (Option Handle) :=
  w.onPair t p (w.getPair t p) .error (·.remove · key)

def removeSame (w : Workspace α) (t : TableId) (p : ArenaId) (template : Record α)
    (same : Record α → Record α → Bool) : Workspace α × Except Failure (Option Handle) :=
  w.onPair t p (w.getPair t p) .error (·.removeSame · template same)

def entries (w : Workspace α) (t : TableId) (p : ArenaId) : Except Failure (List (Entry α)) := do
  let (table, a) ← w.getPair t p
  table.entries a

def handles (w : Workspace α) (t : TableId) (p : ArenaId) : Except Failure (List Handle) := do
  let (table, a) ← w.getPair t p
  table.handles a

def listing (w : Workspace α) (t : TableId) (p : ArenaId) : Except Failure (Listing α) := do
  let (table, a) ← w.getPair t p
  return .of table a

def census (w : Workspace α) (t : TableId) (p : ArenaId) (same : Record α → Record α → Bool) :
    Except Failure Census := do
  let (table, a) ← w.getPair t p
  table.census a same

/-- Lets go of a table. The records it indexed stay linked for good. -/
def drop (w : Workspace α) (t : TableId) : Workspace α := w.setTable t .gone

/-! ## Cursors -/

def cursor (w : Workspace α) (t : TableId) : Except Failure Cursor := do
  return .atStart (← w.getTable t)

def advance (w : Workspace α) (c : Cursor) (t : TableId) (p : ArenaId) :
    Except Failure (Cursor × Option Handle) := do
  let (table, a) ← w.getWalked c t p
  c.advance table a

def removeCurrent (w : Workspace α) (c : Cursor) (t : TableId) (p : ArenaId) :
    Workspace α × Except Failure (Cursor × Handle) :=
  w.onPair t p (w.getWalked c t p) .error c.removeCurrent

end Workspace
end RecordIndex
