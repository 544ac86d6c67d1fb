import RecordIndex.Arena

/-! # Chains

A chain is a run of records, each of which names the next. It is read as the list of its records
with their handles, or searched up to the first record of a kind. Both fail where a link leads to no
live record, and where the links do not end within as many steps as the arena has slots.
-/
namespace RecordIndex

abbrev Entry (α : Type) := Handle × Record α

namespace Arena
variable {α : Type}

/-- The records met from `head` along the links, in at most `steps` steps, the last one first and in
front of those already passed. -/
def followBack? (a : Arena α) : Nat → Option Handle → List (Entry α) → Option (List (Entry α))
  | _, none, passed => some passed
  | 0, some _, _ => none
  | steps + 1, some h, passed =>
    match a.get? h with
    | none => none
    | some r => a.followBack? steps r.next ((h, r) :: passed)

@[simp] theorem followBack?_none (a : Arena α) (steps : Nat) (passed : List (Entry α)) :
    a.followBack? steps none passed = some passed := by
  cases steps <;> rfl

theorem followBack?_eq_append (a : Arena α) (steps : Nat) (head : Option Handle)
    (passed : List (Entry α)) :
    a.followBack? steps head passed = (a.followBack? steps head []).map (· ++ passed) := by
  induction steps generalizing head passed with
  | zero => cases head <;> simp [followBack?]
  | succ steps ih =>
    cases head with
    | none => simp
    | some h =>
      cases hr : a.get? h with
      | none => simp [followBack?, hr]
      | some r =>
        simp only [followBack?, hr]
        rw [ih r.next ((h, r) :: passed), ih r.next [(h, r)]]
        cases a.followBack? steps r.next [] <;> simp

def chain? (a : Arena α) (head : Option Handle) : Option (List (Entry α)) :=
  (a.followBack? a.slots.size head []).map List.reverse

/-- The first entry from `head` on that satisfies `p`, after the handle before it, in at most
`steps` steps; `before` is the handle in front of `head`. -/
def locateFrom (a : Arena α) (p : Handle → Record α → Bool) :
    Nat → Option Handle → Option Handle → Except Failure (Option (Option Handle × Entry α))
  | _, _, none => .ok none
  | 0, _, some _ => .error .corrupted
  | steps + 1, before, here@(some h) =>
    match a.get? h with
    | none => .error .corrupted
    | some r => if p h r then .ok (some (before, h, r)) else a.locateFrom p steps here r.next

def locate (a : Arena α) (p : Handle → Record α → Bool) (head : Option Handle) :
    Except Failure (Option (Option Handle × Entry α)) :=
  a.locateFrom p a.slots.size none head

def link (a : Arena α) (h : Handle) (next : Option Handle) : Arena α :=
  a.modify h ({ · with next, linked := true })

def redirect (a : Arena α) (h : Handle) (next : Option Handle) : Arena α :=
  a.modify h ({ · with next })

def unlink (a : Arena α) (h : Handle) : Arena α := a.modify h Record.detach

end Arena
end RecordIndex
