import Mathlib
import RecordIndex.Proofs.Arena.Image
import RecordIndex.Proofs.Arena.Path
import RecordIndex.Proofs.Arena.Register

/-! # Arenas alike

Two arenas are alike if they differ in the successors of their records only. What is stored in both,
released, given another key or another payload is answered in the same way and leaves them alike,
and so does linking a record in both, in front of whatever records.
-/
namespace RecordIndex.Arena
variable {α : Type} {a a' b b' : Arena α}

def Alike (a a' : Arena α) : Prop := a'.image Record.bare = a.image Record.bare

@[simp] theorem register_image_bare (a : Arena α) :
    (a.image Record.bare).register = a.register := by
  simp [register, image, Function.comp_def, Slot.image, Slot.entry, Record.bare]

theorem Alike.register (ha : a.Alike a') : a'.register = a.register := by
  rw [← register_image_bare a', ha, register_image_bare]

theorem Alike.bare? (ha : a.Alike a') (h : Handle) : a'.bare? h = a.bare? h := by
  have himage := congrArg (·.get? h) ha
  simpa [Arena.bare?] using himage

/-- Arenas are alike as soon as slots and live records say the same. -/
theorem alike_of_register (hr : a'.register = a.register) (hb : ∀ h, a'.bare? h = a.bare? h) :
    a.Alike a' := by
  obtain ⟨hvacant, hslots⟩ := Prod.mk.inj hr
  have hslot : ∀ i : Nat, (a'.slots[i]?).map (Slot.image Record.bare) =
      (a.slots[i]?).map (Slot.image Record.bare) := by
    intro i
    have hentry : (a'.slots[i]?).map Slot.entry = (a.slots[i]?).map Slot.entry := by
      rw [← Array.getElem?_map, hslots, Array.getElem?_map]
    cases hs : a.slots[i]? with
    | none =>
      rw [hs, Option.map_none, Option.map_eq_none_iff] at hentry
      rw [hentry]
    | some s =>
      rw [hs, Option.map_some] at hentry
      obtain ⟨s', hs', he⟩ := Option.map_eq_some_iff.mp hentry
      have hversion : s'.version = s.version := congrArg Prod.fst he
      have hbare := hb ⟨i, s.version⟩
      simp only [Arena.bare?, get?, hs, hs', hversion, if_true] at hbare
      simp [hs', Slot.image, hversion, hbare]
  refine congrArg₂ Arena.mk (Array.ext_getElem? fun i => ?_) hvacant
  rw [Array.getElem?_map, Array.getElem?_map]
  exact hslot i

/-! ## Storing and releasing -/

theorem Alike.alloc (ha : a.Alike a') (r : Record α) :
    (a'.alloc r).2 = (a.alloc r).2 ∧ (a.alloc r).1.Alike (a'.alloc r).1 := by
  have hr : r.detach = r.detach.bare := rfl
  have himage := alloc_image a' hr
  rw [ha, alloc_image a hr] at himage
  obtain ⟨harena, hhandle⟩ := Prod.mk.inj himage
  exact ⟨hhandle.symm, harena.symm⟩

theorem release_bare (ha : a.Sound) (h : Handle) :
    (a.release h).2.map Record.bare = (a.release h).2 := by
  unfold Arena.release
  cases hr : a.get? h with
  | none => rfl
  | some r =>
    cases hl : r.linked with
    | true => simp [hl, Except.map]
    | false =>
      have hnext := ha.loose h r hr hl
      obtain ⟨key, payload, next, linked⟩ := r
      simp_all [Except.map, Record.bare]

theorem Alike.release (ha : a.Alike a') (hs : a.Sound) (hs' : a'.Sound) (h : Handle) :
    (a'.release h).2 = (a.release h).2 ∧ (a.release h).1.Alike (a'.release h).1 := by
  have hlinked : ∀ r : Record α, r.bare.linked = r.linked := fun _ => rfl
  have himage := release_image hlinked a' h
  rw [ha, release_image hlinked a, release_bare hs, release_bare hs'] at himage
  obtain ⟨harena, hanswer⟩ := Prod.mk.inj himage
  exact ⟨hanswer.symm, harena.symm⟩

theorem Alike.rekey (ha : a.Alike a') (h : Handle) (key : UInt64) :
    (a'.rekey h key).2 = (a.rekey h key).2 ∧ (a.rekey h key).1.Alike (a'.rekey h key).1 := by
  have hlinked : ∀ r : Record α, r.bare.linked = r.linked := fun _ => rfl
  have hkey : ∀ (r : Record α) key, { r.bare with key } = ({ r with key } : Record α).bare :=
    fun _ _ => rfl
  have himage := rekey_image hlinked hkey a' h key
  rw [ha, rekey_image hlinked hkey a] at himage
  obtain ⟨harena, hanswer⟩ := Prod.mk.inj himage
  exact ⟨hanswer.symm, harena.symm⟩

theorem Alike.setPayload (ha : a.Alike a') (h : Handle) (payload : α) :
    (a'.setPayload h payload).2 = (a.setPayload h payload).2 ∧
      (a.setPayload h payload).1.Alike (a'.setPayload h payload).1 := by
  have hold : ∀ r : Record α, r.bare.payload = id r.payload := fun _ => rfl
  have hpayload : ∀ (r : Record α) payload,
      { r.bare with payload := id payload } = ({ r with payload } : Record α).bare :=
    fun _ _ => rfl
  have himage := setPayload_image hold hpayload a' h payload
  rw [ha, setPayload_image hold hpayload a] at himage
  obtain ⟨harena, hanswer⟩ := Prod.mk.inj himage
  rw [Option.map_id, id_eq, id_eq] at hanswer
  exact ⟨hanswer.symm, harena.symm⟩

/-! ## Linking -/

/-- A record that was and is linked has at most another successor. -/
theorem bare?_of_linked {h : Handle} (hlabel : b.label? h = a.label? h)
    (hl : ∃ r, a.get? h = some r ∧ r.linked = true)
    (hl' : ∃ r, b.get? h = some r ∧ r.linked = true) : b.bare? h = a.bare? h := by
  obtain ⟨r, hr, hrl⟩ := hl
  obtain ⟨r', hr', hrl'⟩ := hl'
  rw [label?, label?, hr, hr', Option.map_some, Option.map_some, Option.some_inj] at hlabel
  obtain ⟨hkey, hpayload⟩ := Prod.mk.inj hlabel
  rw [Arena.bare?, Arena.bare?, hr, hr', Option.map_some, Option.map_some, Record.bare,
    Record.bare, hkey, hpayload, hrl, hrl']

/-- Linking anew what was linked before changes nothing but successors. -/
theorem Links.bare? {hs : List Handle} (hl : a.Links b hs) {h : Handle}
    (hlinked : h ∈ hs → ∃ r, a.get? h = some r ∧ r.linked = true) :
    b.bare? h = a.bare? h := by
  by_cases hh : h ∈ hs
  · exact bare?_of_linked (hl.label h) (hlinked hh) (hl.linked h hh)
  · rw [Arena.bare?, Arena.bare?, hl.other h hh]

/-- A record that is linked in front of linked ones gets its mark, and that is all. -/
theorem Links.bare?_cons {h : Handle} {hs : List Handle} (hl : a.Links b (h :: hs))
    (hlinked : ∀ k ∈ hs, ∃ r, a.get? k = some r ∧ r.linked = true) (k : Handle) :
    b.bare? k = if k = h then (a.bare? h).map ({ · with linked := true }) else a.bare? k := by
  by_cases hk : k = h
  · subst hk
    obtain ⟨r', hr', hrl'⟩ := hl.linked k List.mem_cons_self
    have hlabel := hl.label k
    rw [label?, label?, hr', Option.map_some] at hlabel
    obtain ⟨r, hr, he⟩ := Option.map_eq_some_iff.mp hlabel.symm
    obtain ⟨hkey, hpayload⟩ := Prod.mk.inj he
    rw [if_pos rfl, Arena.bare?, Arena.bare?, hr, hr']
    simp [Record.bare, hkey, hpayload, hrl']
  · rw [if_neg hk]
    refine hl.bare? fun hm => hlinked k ?_
    exact (List.mem_cons.mp hm).resolve_left hk

end RecordIndex.Arena
