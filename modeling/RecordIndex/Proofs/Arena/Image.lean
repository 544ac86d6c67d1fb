import Mathlib
import RecordIndex.Proofs.Arena.Contents

/-! # Images of an arena

A function on records that leaves alone what an operation looks at can be applied before the
operation or after it. The two functions used are the one that forgets successors and the one that
changes payloads.
-/
namespace RecordIndex
variable {α β : Type}

namespace Record

def bare (r : Record α) : Record α := { r with next := none }

def map (f : α → β) (r : Record α) : Record β := ⟨r.key, f r.payload, r.next, r.linked⟩

@[simp] theorem bare_bare (r : Record α) : r.bare.bare = r.bare := rfl

@[simp] theorem map_key (f : α → β) (r : Record α) : (r.map f).key = r.key := rfl

@[simp] theorem map_next (f : α → β) (r : Record α) : (r.map f).next = r.next := rfl

@[simp] theorem map_linked (f : α → β) (r : Record α) : (r.map f).linked = r.linked := rfl

end Record

def Slot.image (g : Record α → Record β) (s : Slot α) : Slot β := ⟨s.version, s.content.map g⟩

@[simp] theorem Slot.version_image (g : Record α → Record β) (s : Slot α) :
    (s.image g).version = s.version := rfl

namespace Arena

def image (g : Record α → Record β) (a : Arena α) : Arena β :=
  ⟨a.slots.map (Slot.image g), a.vacant⟩

def bare? (a : Arena α) (h : Handle) : Option (Record α) := (a.get? h).map Record.bare

variable {g : Record α → Record β}

@[simp] theorem size_slots_image (a : Arena α) : (a.image g).slots.size = a.slots.size :=
  Array.size_map

@[simp] theorem image_empty : (empty : Arena α).image g = empty := by
  simp [image, empty]

@[simp] theorem get?_image (a : Arena α) (h : Handle) : (a.image g).get? h = (a.get? h).map g := by
  rw [get?, image, Array.getElem?_map, get?]
  cases a.slots[h.slot]? with
  | none => rfl
  | some s => by_cases hv : s.version = h.version <;> simp [Slot.image, hv]

theorem map_modify {σ τ : Type} {g : σ → τ} {f : σ → σ} {f' : τ → τ} (hf : ∀ x, f' (g x) = g (f x))
    (xs : Array σ) (i : Nat) : (xs.map g).modify i f' = (xs.modify i f).map g := by
  refine Array.ext_getElem? fun j => ?_
  rw [Array.getElem?_map, Array.getElem?_modify, Array.getElem?_modify, Array.getElem?_map]
  split
  · rw [Option.map_map, Option.map_map]
    exact congrArg (Option.map · _) (funext hf)
  · rfl

theorem modify_image (a : Arena α) (h : Handle) {f : Record α → Record α}
    {f' : Record β → Record β} (hf : ∀ r, f' (g r) = g (f r)) :
    (a.image g).modify h f' = (a.modify h f).image g := by
  simp only [modify, image, mk.injEq, and_true]
  apply map_modify
  intro s
  rw [Slot.version_image]
  split
  · simp [Slot.image, Function.comp_def, hf]
  · rfl

theorem modify_same (a : Arena α) (h : Handle) : (a.modify h fun r => r) = a := by
  have hslots : a.slots.modify h.slot (fun s =>
      if s.version = h.version then { s with content := s.content.map fun r => r } else s) =
        a.slots := by
    refine Array.ext_getElem? fun i => ?_
    rw [Array.getElem?_modify]
    split
    · cases a.slots[i]? with
      | none => rfl
      | some s => simp
    · rfl
  rw [modify, hslots]

theorem alloc_image (a : Arena α) {r : Record α} {r' : Record β} (hr : r'.detach = g r.detach) :
    (a.image g).alloc r' = ((a.alloc r).1.image g, (a.alloc r).2) := by
  have hversion : ∀ i : Nat, ((a.slots.map (Slot.image g))[i]?.elim 0 (·.version)) =
      a.slots[i]?.elim 0 (·.version) := by
    intro i
    rw [Array.getElem?_map]
    cases a.slots[i]? <;> rfl
  unfold alloc
  cases hv : a.vacant with
  | nil => simp [image, hv, hr, Slot.image]
  | cons i rest =>
    simp only [image, hv, hversion, hr, Array.map_setIfInBounds]
    rfl

theorem release_image (hg : ∀ r, (g r).linked = r.linked) (a : Arena α) (h : Handle) :
    (a.image g).release h = ((a.release h).1.image g, (a.release h).2.map g) := by
  unfold release
  rw [get?_image]
  cases hr : a.get? h with
  | none => rfl
  | some r =>
    simp only [Option.map_some, hg]
    cases r.linked with
    | true => rfl
    | false =>
      refine Prod.ext ?_ rfl
      simp only [image, Bool.false_eq_true, if_false, mk.injEq, and_true]
      apply map_modify
      exact fun _ => rfl

theorem rekey_image (hg : ∀ r, (g r).linked = r.linked)
    (hkey : ∀ r key, { g r with key } = g { r with key }) (a : Arena α) (h : Handle)
    (key : UInt64) :
    (a.image g).rekey h key = ((a.rekey h key).1.image g, (a.rekey h key).2) := by
  unfold rekey
  rw [get?_image]
  cases hr : a.get? h with
  | none => rfl
  | some r =>
    simp only [Option.map_some, hg]
    cases r.linked with
    | true => rfl
    | false => exact Prod.ext (modify_image a h fun r => hkey r key) rfl

theorem setPayload_image {f : α → β} (hg : ∀ r, (g r).payload = f r.payload)
    (hpayload : ∀ r payload, { g r with payload := f payload } = g { r with payload })
    (a : Arena α) (h : Handle) (payload : α) :
    (a.image g).setPayload h (f payload) =
      ((a.setPayload h payload).1.image g, (a.setPayload h payload).2.map f) := by
  unfold setPayload
  rw [get?_image]
  cases hr : a.get? h with
  | none => rfl
  | some r =>
    refine Prod.ext (modify_image a h fun r => hpayload r payload) ?_
    rw [Option.map_some]
    exact congrArg some (hg r)

end Arena
end RecordIndex
