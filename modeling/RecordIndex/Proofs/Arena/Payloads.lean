import Mathlib
import RecordIndex.Proofs.Arena.Image

/-! # Payloads and chains

The payloads of an arena can be changed before an operation or after it, as the links do not depend
on them.
-/
namespace RecordIndex
variable {α β : Type} {f : α → β}

def Entry.map (f : α → β) (e : Entry α) : Entry β := (e.1, e.2.map f)

@[simp] theorem Entry.fst_map (e : Entry α) : (Entry.map f e).1 = e.1 := rfl

@[simp] theorem Entry.snd_map (e : Entry α) : (Entry.map f e).2 = e.2.map f := rfl

namespace Arena

def map (f : α → β) (a : Arena α) : Arena β := a.image (Record.map f)

@[simp] theorem size_slots_map (a : Arena α) : (a.map f).slots.size = a.slots.size :=
  size_slots_image a

@[simp] theorem map_empty : (empty : Arena α).map f = empty := image_empty

@[simp] theorem get?_map (a : Arena α) (h : Handle) :
    (a.map f).get? h = (a.get? h).map (Record.map f) := get?_image a h

theorem alloc_map (a : Arena α) (r : Record α) :
    (a.map f).alloc (r.map f) = ((a.alloc r).1.map f, (a.alloc r).2) := alloc_image a rfl

theorem release_map (a : Arena α) (h : Handle) :
    (a.map f).release h = ((a.release h).1.map f, (a.release h).2.map (Record.map f)) :=
  release_image (g := Record.map f) (fun _ => rfl) a h

theorem rekey_map (a : Arena α) (h : Handle) (key : UInt64) :
    (a.map f).rekey h key = ((a.rekey h key).1.map f, (a.rekey h key).2) :=
  rekey_image (g := Record.map f) (fun _ => rfl) (fun _ _ => rfl) a h key

theorem setPayload_map (a : Arena α) (h : Handle) (payload : α) :
    (a.map f).setPayload h (f payload) =
      ((a.setPayload h payload).1.map f, (a.setPayload h payload).2.map f) :=
  setPayload_image (g := Record.map f) (fun _ => rfl) (fun _ _ => rfl) a h payload

theorem link_map (a : Arena α) (h : Handle) (next : Option Handle) :
    (a.map f).link h next = (a.link h next).map f := modify_image a h fun _ => rfl

theorem redirect_map (a : Arena α) (h : Handle) (next : Option Handle) :
    (a.map f).redirect h next = (a.redirect h next).map f := modify_image a h fun _ => rfl

theorem unlink_map (a : Arena α) (h : Handle) : (a.map f).unlink h = (a.unlink h).map f :=
  modify_image a h fun _ => rfl

theorem followBack?_map (a : Arena α) (steps : Nat) (head : Option Handle)
    (passed : List (Entry α)) :
    (a.map f).followBack? steps head (passed.map (Entry.map f)) =
      (a.followBack? steps head passed).map (List.map (Entry.map f)) := by
  induction steps generalizing head passed with
  | zero => cases head <;> rfl
  | succ steps ih =>
    cases head with
    | none => rfl
    | some h =>
      simp only [followBack?, get?_map]
      cases a.get? h with
      | none => rfl
      | some r => exact ih r.next ((h, r) :: passed)

theorem chain?_map (a : Arena α) (head : Option Handle) :
    (a.map f).chain? head = (a.chain? head).map (List.map (Entry.map f)) := by
  have hback := followBack?_map (f := f) a a.slots.size head []
  rw [List.map_nil] at hback
  rw [chain?, size_slots_map, hback, chain?, Option.map_map, Option.map_map]
  congr 1
  funext passed
  exact List.map_reverse.symm

section
variable {p : Handle → Record α → Bool} {p' : Handle → Record β → Bool}

theorem locateFrom_map (hp : ∀ h r, p' h (r.map f) = p h r) (a : Arena α) (steps : Nat)
    (before head : Option Handle) :
    (a.map f).locateFrom p' steps before head =
      (a.locateFrom p steps before head).map
        (Option.map fun found => (found.1, Entry.map f found.2)) := by
  induction steps generalizing before head with
  | zero => cases head <;> rfl
  | succ steps ih =>
    cases head with
    | none => rfl
    | some h =>
      simp only [locateFrom, get?_map]
      cases a.get? h with
      | none => rfl
      | some r =>
        simp only [Option.map_some, hp]
        split
        · rfl
        · exact ih (some h) r.next

theorem locate_map (hp : ∀ h r, p' h (r.map f) = p h r) (a : Arena α) (head : Option Handle) :
    (a.map f).locate p' head =
      (a.locate p head).map (Option.map fun found => (found.1, Entry.map f found.2)) := by
  rw [locate, size_slots_map, locateFrom_map hp, locate]

end

/-- Where payloads are forgotten, it does not show that one was overwritten. -/
theorem map_setPayload (hf : ∀ x y, f x = f y) (a : Arena α) (h : Handle) (payload : α) :
    (a.setPayload h payload).1.map f = a.map f := by
  unfold setPayload
  cases a.get? h with
  | none => rfl
  | some r =>
    have hmodify : (a.map f).modify h (fun r => r) = (a.modify h ({ · with payload })).map f :=
      modify_image a h fun r => by rw [Record.map, Record.map, hf]
    exact hmodify.symm.trans (modify_same (a.map f) h)

end Arena
end RecordIndex
