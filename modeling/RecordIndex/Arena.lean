import RecordIndex.Failure

/-! # Record arena

Records belong to an arena and are named by handles. A slot of the arena counts how often it was
filled and emptied; a handle carries the count at which its record was stored, so it resolves as
long as that record lives and never to a later tenant of the slot. Released slots are used again,
the last one released first.
-/
namespace RecordIndex

structure Handle where
  slot : Nat
  version : UInt32
deriving DecidableEq

/-- Slots are numbered from one in the text of a handle. -/
def Handle.text (h : Handle) : String := toString (h.slot + 1) ++ "v" ++ toString h.version

structure Record (α : Type) where
  key : UInt64
  payload : α
  next : Option Handle
  linked : Bool

namespace Record
variable {α : Type}

def detached (key : UInt64) (payload : α) : Record α := ⟨key, payload, none, false⟩

def detach (r : Record α) : Record α := { r with next := none, linked := false }

end Record

/-- The version is odd while the slot is filled. -/
structure Slot (α : Type) where
  version : UInt32
  content : Option (Record α)

structure Arena (α : Type) where
  slots : Array (Slot α)
  /-- Vacant slots, the last one released first. -/
  vacant : List Nat

namespace Arena
variable {α : Type}

def empty : Arena α := ⟨#[], []⟩

def size (a : Arena α) : Nat := a.slots.countP (·.content.isSome)

def get? (a : Arena α) (h : Handle) : Option (Record α) :=
  match a.slots[h.slot]? with
  | some s => if s.version = h.version then s.content else none
  | none => none

def contains (a : Arena α) (h : Handle) : Bool := (a.get? h).isSome

def modify (a : Arena α) (h : Handle) (f : Record α → Record α) : Arena α :=
  { a with slots := a.slots.modify h.slot fun s =>
      if s.version = h.version then { s with content := s.content.map f } else s }

theorem get?_modify (a : Arena α) (h k : Handle) (f : Record α → Record α) :
    (a.modify h f).get? k = if k = h then (a.get? k).map f else a.get? k := by
  obtain ⟨i, v⟩ := h
  obtain ⟨j, u⟩ := k
  by_cases hij : i = j
  · subst hij
    cases hc : a.slots[i]? with
    | none => simp [get?, modify, Array.getElem?_modify, hc]
    | some s =>
      by_cases hv : s.version = v <;>
        simp [get?, modify, Array.getElem?_modify, hc, hv] <;> grind
  · simp [get?, modify, Array.getElem?_modify, hij, Ne.symm hij]

@[simp] theorem get?_modify_self (a : Arena α) (h : Handle) (f : Record α → Record α) :
    (a.modify h f).get? h = (a.get? h).map f := by
  simp [get?_modify]

theorem get?_modify_of_ne (a : Arena α) {h k : Handle} (hk : k ≠ h) (f : Record α → Record α) :
    (a.modify h f).get? k = a.get? k := by
  simp [get?_modify, hk]

/-- Stores a record, in no chain whatever its links were. -/
def alloc (a : Arena α) (r : Record α) : Arena α × Handle :=
  match a.vacant with
  | [] =>
    let slot := a.slots.size
    (⟨a.slots.push ⟨1, some r.detach⟩, []⟩, ⟨slot, 1⟩)
  | i :: rest =>
    let version := (a.slots[i]?.elim 0 (·.version)) ||| 1
    (⟨a.slots.setIfInBounds i ⟨version, some r.detach⟩, rest⟩, ⟨i, version⟩)

def release (a : Arena α) (h : Handle) : Arena α × Except Failure (Record α) :=
  match a.get? h with
  | none => (a, .error .staleHandle)
  | some r =>
    if r.linked then (a, .error .stillLinked)
    else (⟨a.slots.modify h.slot fun s => ⟨s.version + 1, none⟩, h.slot :: a.vacant⟩, .ok r)

/-- Gives a record another key, unless it is in a chain: the chain was chosen by the old key. -/
def rekey (a : Arena α) (h : Handle) (key : UInt64) : Arena α × Except Failure Unit :=
  match a.get? h with
  | none => (a, .error .staleHandle)
  | some r =>
    if r.linked then (a, .error .stillLinked)
    else (a.modify h ({ · with key }), .ok ())

def setPayload (a : Arena α) (h : Handle) (payload : α) : Arena α × Option α :=
  match a.get? h with
  | none => (a, none)
  | some r => (a.modify h ({ · with payload }), some r.payload)

end Arena
end RecordIndex
