import Mathlib
import RecordIndex.Proofs.Arena.Contents

/-! # The register of an arena

Leaving the links of its records aside an arena is its register: which slots are vacant and in which
order, and for every slot its version and the key and the payload it holds. The register decides
which handles are live, and which are given out from now on.
-/
namespace RecordIndex
variable {α : Type}

def Slot.entry (s : Slot α) : UInt32 × Option (UInt64 × α) :=
  (s.version, s.content.map fun r => (r.key, r.payload))

inductive Request (α : Type) where
  | store (r : Record α)
  | release (h : Handle)

namespace Arena
variable {a a' : Arena α} {h : Handle} {r : Record α}

def register (a : Arena α) : List Nat × Array (UInt32 × Option (UInt64 × α)) :=
  (a.vacant, a.slots.map Slot.entry)

theorem label?_eq (a : Arena α) (h : Handle) :
    a.label? h = (a.register.2[h.slot]?).bind fun (version, entry) =>
      if version = h.version then entry else none := by
  rw [register, Array.getElem?_map]
  cases hs : a.slots[h.slot]? with
  | none => simp [label?, get?, hs]
  | some s =>
    by_cases hv : s.version = h.version <;> simp [label?, get?, hs, hv, Slot.entry]

theorem size_eq (a : Arena α) : a.size = a.register.2.countP (·.2.isSome) := by
  rw [register, Array.countP_map, size]
  congr 1
  funext s
  simp [Slot.entry]

theorem contains_eq (a : Arena α) (h : Handle) : a.contains h = (a.label? h).isSome := by
  rw [contains, label?, Option.isSome_map]

/-! ## Links leave the register alone -/

theorem register_modify (a : Arena α) (h : Handle) {f : Record α → Record α}
    (hf : ∀ r, (f r).key = r.key ∧ (f r).payload = r.payload) :
    (a.modify h f).register = a.register := by
  refine Prod.ext rfl (Array.ext_getElem? fun i => ?_)
  rw [register, register, Array.getElem?_map, Array.getElem?_map, slots_modify, Option.map_map]
  congr 1
  funext s
  obtain ⟨version, content⟩ := s
  by_cases hs : h.slot = i ∧ version = h.version
  · cases content <;> simp [hs, Slot.entry, hf]
  · simp [hs, Slot.entry]

@[simp] theorem register_link (a : Arena α) (h : Handle) (next : Option Handle) :
    (a.link h next).register = a.register := by
  apply register_modify
  exact fun _ => ⟨rfl, rfl⟩

@[simp] theorem register_redirect (a : Arena α) (h : Handle) (next : Option Handle) :
    (a.redirect h next).register = a.register := by
  apply register_modify
  exact fun _ => ⟨rfl, rfl⟩

@[simp] theorem register_unlink (a : Arena α) (h : Handle) :
    (a.unlink h).register = a.register := by
  apply register_modify
  exact fun _ => ⟨rfl, rfl⟩

/-! ## What the register decides -/

theorem label?_of_register (he : a'.register = a.register) (h : Handle) :
    a'.label? h = a.label? h := by
  rw [label?_eq, he, label?_eq]

/-- A linked record is its label and its thread. -/
theorem get?_of_thread? (hr : a.get? h = some r) (hl : r.linked = true)
    (ht : a'.thread? h = a.thread? h) (hlabel : a'.label? h = a.label? h) :
    a'.get? h = a.get? h := by
  obtain ⟨s, hs, hsl, hkey, hnext⟩ := exists_get?_of_thread? ht hr hl
  have hpayload : s.payload = r.payload := by
    rw [label?, label?, hs, hr] at hlabel
    exact (Prod.mk.inj (Option.some.inj hlabel)).2
  obtain ⟨key, payload, next, linked⟩ := r
  obtain ⟨key', payload', next', linked'⟩ := s
  simp_all

/-- The handle of the next record depends on the register, and so does the register with it. -/
theorem alloc_of_register (he : a'.register = a.register) (r : Record α) :
    (a'.alloc r).2 = (a.alloc r).2 ∧ (a'.alloc r).1.register = (a.alloc r).1.register := by
  obtain ⟨hv, hslots⟩ := Prod.mk.inj he
  have hentry : ∀ i : Nat, (a'.slots[i]?).map Slot.entry = (a.slots[i]?).map Slot.entry := by
    intro i
    rw [← Array.getElem?_map, hslots, Array.getElem?_map]
  unfold alloc
  rw [hv]
  cases a.vacant with
  | nil =>
    have hsize : a'.slots.size = a.slots.size := by simpa using congrArg Array.size hslots
    exact ⟨by rw [hsize], by simp [register, hslots]⟩
  | cons i rest =>
    have hversion : (a'.slots[i]?.elim 0 (·.version)) = (a.slots[i]?.elim 0 (·.version)) := by
      have hi := congrArg (·.elim 0 Prod.fst) (hentry i)
      simpa [Function.comp_def, Slot.entry] using hi
    simp only [hversion, true_and, register, hslots, Array.map_setIfInBounds]

theorem register_release (hr : (a.release h).2 = .ok r) :
    (a.release h).1.register =
      (h.slot :: a.vacant, (a.slots.map Slot.entry).modify h.slot fun e => (e.1 + 1, none)) := by
  unfold release at hr ⊢
  split
  · rename_i hget
    simp [hget] at hr
  · rename_i s hget
    cases hl : s.linked with
    | true => simp [hget, hl] at hr
    | false =>
      refine Prod.ext rfl (Array.ext_getElem? fun i => ?_)
      by_cases hi : h.slot = i <;>
        simp [register, Array.getElem?_modify, hi, Function.comp_def, Slot.entry]

/-- Two arenas with one register that both release a record have one register again. -/
theorem release_of_register (he : a'.register = a.register) {r' : Record α}
    (hr : (a.release h).2 = .ok r) (hr' : (a'.release h).2 = .ok r') :
    (a'.release h).1.register = (a.release h).1.register := by
  obtain ⟨hv, hslots⟩ := Prod.mk.inj he
  rw [register_release hr, register_release hr', hv, hslots]

def serve (a : Arena α) : List (Request α) → Option (List Handle)
  | [] => some []
  | .store r :: rest => ((a.alloc r).1.serve rest).map ((a.alloc r).2 :: ·)
  | .release h :: rest =>
    match a.release h with
    | (a, .ok _) => a.serve rest
    | (_, .error _) => none

/-- Requests that two arenas with one register both serve get the same handles. -/
theorem serve_of_register {requests : List (Request α)} (he : a'.register = a.register)
    {hs hs' : List Handle} (hserve : a.serve requests = some hs)
    (hserve' : a'.serve requests = some hs') : hs' = hs := by
  induction requests generalizing a a' hs hs' with
  | nil => exact (Option.some.inj hserve').symm.trans (Option.some.inj hserve)
  | cons request rest ih =>
    cases request with
    | store r =>
      obtain ⟨hhandle, hregister⟩ := alloc_of_register he r
      obtain ⟨ks, hks, rfl⟩ := Option.map_eq_some_iff.mp hserve
      obtain ⟨ks', hks', rfl⟩ := Option.map_eq_some_iff.mp hserve'
      rw [hhandle, ih hregister hks hks']
    | release h =>
      simp only [serve] at hserve hserve'
      split at hserve
      · rename_i b r hr
        split at hserve'
        · rename_i b' r' hr'
          have hregister := release_of_register he (congrArg Prod.snd hr) (congrArg Prod.snd hr')
          rw [hr, hr'] at hregister
          exact ih hregister hserve hserve'
        · cases hserve'
      · cases hserve

end Arena
end RecordIndex
