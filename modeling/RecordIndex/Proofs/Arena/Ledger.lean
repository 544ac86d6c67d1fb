import Mathlib
import RecordIndex.Proofs.Arena.Register

/-! # The ledger of an arena

A ledger says what an arena stands for: which handles are live and with which key and payload, which
have been given out so far, and how often each slot was emptied. The version of a slot is twice that
number, and one more while the slot is filled; so until it wraps around no handle is given out
twice.
-/
namespace RecordIndex
variable {α : Type}

structure Ledger (α : Type) where
  /-- Key and payload of the live handles. -/
  live : Handle → Option (UInt64 × α)
  /-- All handles given out, the last one first. -/
  issued : List Handle
  /-- Number of times that a record was taken out of the slot. -/
  releases : Nat → Nat

namespace Ledger
variable {L : Ledger α} {h : Handle}

def empty : Ledger α := ⟨fun _ => none, [], fun _ => 0⟩

def store (L : Ledger α) (h : Handle) (entry : UInt64 × α) : Ledger α :=
  { L with live := Function.update L.live h (some entry), issued := h :: L.issued }

def release (L : Ledger α) (h : Handle) : Ledger α :=
  { L with
    live := Function.update L.live h none
    releases := Function.update L.releases h.slot (L.releases h.slot + 1) }

def write (L : Ledger α) (h : Handle) (f : UInt64 × α → UInt64 × α) : Ledger α :=
  { L with live := Function.update L.live h ((L.live h).map f) }

theorem write_of_none {f : UInt64 × α → UInt64 × α} (hl : L.live h = none) : L.write h f = L := by
  rw [write, hl, Option.map_none, ← hl, Function.update_eq_self]

theorem live_store (L : Ledger α) (h k : Handle) (entry : UInt64 × α) :
    (L.store h entry).live k = if k = h then some entry else L.live k := Function.update_apply ..

theorem live_release (L : Ledger α) (h k : Handle) :
    (L.release h).live k = if k = h then none else L.live k := Function.update_apply ..

theorem releases_release (L : Ledger α) (h : Handle) (i : Nat) :
    (L.release h).releases i = if i = h.slot then L.releases h.slot + 1 else L.releases i :=
  Function.update_apply ..

theorem live_write (L : Ledger α) (h k : Handle) (f : UInt64 × α → UInt64 × α) :
    (L.write h f).live k = if k = h then (L.live h).map f else L.live k :=
  Function.update_apply ..

end Ledger

namespace Arena
variable {a a' : Arena α} {L : Ledger α} {h : Handle} {r : Record α}

def versionAt (n : Nat) (filled : Bool) : UInt32 := UInt32.ofNat (2 * n + filled.toNat)

theorem versionAt_or (n : Nat) : versionAt n false ||| 1 = versionAt n true := by
  apply UInt32.toNat_inj.mp
  have hor := Nat.two_pow_add_eq_or_of_lt (i := 1) (b := 1) (by decide) (n % 2 ^ 31)
  simp only [versionAt, UInt32.toNat_or, UInt32.toNat_ofNat', Bool.toNat_false, Bool.toNat_true]
  have hmod : (2 * n + 0) % 2 ^ 32 = 2 ^ 1 * (n % 2 ^ 31) := by omega
  have hone : (1 : UInt32).toNat = 1 := rfl
  rw [hmod, hone, ← hor]
  omega

theorem versionAt_succ (n : Nat) : versionAt n true + 1 = versionAt (n + 1) false := by
  rw [versionAt, versionAt, ← UInt32.ofNat_one, ← UInt32.ofNat_add]
  rfl

theorem versionAt_inj {m n : Nat} (hm : m < 2 ^ 31) (hn : n < 2 ^ 31)
    (he : versionAt m true = versionAt n true) : m = n := by
  have ht := congrArg UInt32.toNat he
  simp only [versionAt, UInt32.toNat_ofNat', Bool.toNat_true] at ht
  omega

def stamp (s : Slot α) : UInt32 × Bool := (s.version, s.content.isSome)

theorem stamp_eq (a : Arena α) (i : Nat) :
    (a.slots[i]?).map stamp = (a.register.2[i]?).map fun e => (e.1, e.2.isSome) := by
  rw [register, Array.getElem?_map, Option.map_map]
  congr 1
  funext s
  simp [stamp, Slot.entry]

structure Matches (a : Arena α) (L : Ledger α) : Prop where
  live : ∀ h, a.label? h = L.live h
  version : ∀ (i : Nat) s, a.slots[i]? = some s →
    s.version = versionAt (L.releases i) s.content.isSome
  unused : ∀ i : Nat, a.slots[i]? = none → L.releases i = 0
  issued : ∀ h ∈ L.issued, ∃ s n, a.slots[h.slot]? = some s ∧ h.version = versionAt n true ∧
    (n < L.releases h.slot ∨ n = L.releases h.slot ∧ s.content.isSome = true)
  known : ∀ h, (L.live h).isSome = true → h ∈ L.issued

theorem matches_empty : (empty : Arena α).Matches .empty where
  live h := by simp [empty, label?, get?, Ledger.empty]
  version i s hs := by simp [empty] at hs
  unused _ _ := rfl
  issued h hh := by cases hh
  known h hh := by cases hh

/-- As long as no slot is filled or emptied only the live handles are to be looked at. -/
theorem Matches.stamped {L' : Ledger α} (hm : a.Matches L)
    (hstamp : ∀ i : Nat, (a'.slots[i]?).map stamp = (a.slots[i]?).map stamp)
    (hlive : ∀ h, a'.label? h = L'.live h) (hissued : L'.issued = L.issued)
    (hreleases : L'.releases = L.releases)
    (hknown : ∀ h, (L'.live h).isSome = true → (L.live h).isSome = true) : a'.Matches L' where
  live := hlive
  version i s hs := by
    have hi := hstamp i
    rw [hs, Option.map_some] at hi
    obtain ⟨s', hs', he⟩ := Option.map_eq_some_iff.mp hi.symm
    obtain ⟨hversion, hfilled⟩ := Prod.mk.inj he
    rw [hreleases, ← hversion, ← hfilled]
    exact hm.version i s' hs'
  unused i hi := by
    rw [hreleases]
    apply hm.unused
    simpa [hi] using hstamp i
  issued h hh := by
    rw [hissued] at hh
    obtain ⟨s, n, hs, hv, hn⟩ := hm.issued h hh
    have hi := hstamp h.slot
    rw [hs, Option.map_some] at hi
    obtain ⟨s', hs', he⟩ := Option.map_eq_some_iff.mp hi
    rw [hreleases]
    exact ⟨s', n, hs', hv, by rw [(Prod.mk.inj he).2]; exact hn⟩
  known h hh := by
    rw [hissued]
    exact hm.known h (hknown h hh)

/-- Links are no concern of a ledger. -/
theorem Matches.congr (hm : a.Matches L) (he : a'.register = a.register) : a'.Matches L := by
  refine hm.stamped ?_ (fun h => (label?_of_register he h).trans (hm.live h)) rfl rfl fun _ => id
  intro i
  rw [stamp_eq, he, stamp_eq]

/-- A write changes what the handle stands for, and nothing else. -/
theorem Matches.modify (hm : a.Matches L) (h : Handle) {f : Record α → Record α}
    {g : UInt64 × α → UInt64 × α} (hf : ∀ r, ((f r).key, (f r).payload) = g (r.key, r.payload)) :
    (a.modify h f).Matches (L.write h g) := by
  refine hm.stamped ?_ ?_ rfl rfl ?_
  · intro i
    rw [slots_modify, Option.map_map]
    congr 1
    funext s
    simp only [Function.comp_apply]
    split <;> simp [stamp]
  · intro k
    rw [label?, get?_modify, Ledger.live_write, ← hm.live, ← hm.live]
    split
    · rename_i hk
      rw [hk, label?, Option.map_map, Option.map_map]
      congr 1
      funext r
      exact hf r
    · rfl
  · intro k hk
    rw [Ledger.live_write] at hk
    split at hk
    · rename_i he
      rwa [Option.isSome_map, ← he] at hk
    · exact hk

/-- A record is stored in a slot that is not filled, under the version that the slot has then. -/
theorem Matches.alloc_slots (hm : a.Matches L) (ha : a.Sound) (r : Record α) :
    let h := (a.alloc r).2
    h.version = versionAt (L.releases h.slot) true ∧
    (∀ j : Nat, (a.alloc r).1.slots[j]? =
      if j = h.slot then some ⟨h.version, some r.detach⟩ else a.slots[j]?) ∧
    ∀ s, a.slots[h.slot]? = some s → s.content.isSome = false := by
  cases hvac : a.vacant with
  | nil =>
    have hunused : L.releases a.slots.size = 0 := hm.unused _ (by simp)
    simp only [alloc, hvac]
    refine ⟨by rw [hunused]; rfl, fun j => ?_, fun s hs => by simp at hs⟩
    rw [Array.getElem?_push]
  | cons i rest =>
    obtain ⟨v, hi⟩ := ha.vacant_empty i (by simp [hvac])
    have hlt := (Array.getElem?_eq_some_iff.mp hi).1
    have hversion : v = versionAt (L.releases i) false := hm.version i _ hi
    simp only [alloc, hvac, hi, Option.elim, hversion, versionAt_or, true_and]
    refine ⟨fun j => ?_, fun s hs => by cases hs; rfl⟩
    by_cases hj : j = i
    · rw [if_pos hj, hj, Array.getElem?_setIfInBounds_self_of_lt hlt]
    · rw [if_neg hj, Array.getElem?_setIfInBounds_ne (Ne.symm hj)]

/-- The next handle was not given out before. -/
theorem Matches.fresh (hm : a.Matches L) (ha : a.Sound) (r : Record α)
    (hlt : L.releases (a.alloc r).2.slot < 2 ^ 31) : (a.alloc r).2 ∉ L.issued := by
  intro hh
  obtain ⟨hversion, -, hvacant⟩ := hm.alloc_slots ha r
  obtain ⟨s, n, hs, hv, hn⟩ := hm.issued _ hh
  have hless : n < L.releases (a.alloc r).2.slot := by
    rcases hn with hn | ⟨-, hfilled⟩
    · exact hn
    · rw [hvacant s hs] at hfilled
      cases hfilled
  have hsame := versionAt_inj (hless.trans hlt) hlt (hv.symm.trans hversion)
  exact hless.ne hsame

theorem Matches.alloc (hm : a.Matches L) (ha : a.Sound) (r : Record α) :
    (a.alloc r).1.Matches (L.store (a.alloc r).2 (r.key, r.payload)) := by
  obtain ⟨hversion, hslots, -⟩ := hm.alloc_slots ha r
  refine ⟨?_, ?_, ?_, ?_, ?_⟩
  · intro h
    rw [Ledger.live_store, label?]
    split
    · rename_i hh
      rw [hh, get?_alloc_self a r ha]
      rfl
    · rename_i hh
      rw [get?_alloc_of_ne a r ha hh]
      exact hm.live h
  · intro i s hs
    rw [hslots] at hs
    split at hs
    · rename_i hi
      cases hs
      rw [hi]
      exact hversion
    · exact hm.version i s hs
  · intro i hi
    rw [hslots] at hi
    split at hi
    · cases hi
    · exact hm.unused i hi
  · intro h hh
    rw [hslots]
    rcases List.mem_cons.mp hh with rfl | hh
    · exact ⟨_, _, if_pos rfl, hversion, Or.inr ⟨rfl, rfl⟩⟩
    · obtain ⟨s, n, hs, hv, hn⟩ := hm.issued h hh
      split
      · exact ⟨_, n, rfl, hv, hn.imp_right fun hn => ⟨hn.1, rfl⟩⟩
      · exact ⟨s, n, hs, hv, hn⟩
  · intro h hh
    rw [Ledger.live_store] at hh
    split at hh
    · rename_i hne
      exact List.mem_cons.mpr (Or.inl hne)
    · exact List.mem_cons_of_mem _ (hm.known h hh)

theorem release_slots (hr : (a.release h).2 = .ok r) :
    a.slots[h.slot]? = some ⟨h.version, some r⟩ ∧
    ∀ j : Nat, (a.release h).1.slots[j]? =
      if j = h.slot then some ⟨h.version + 1, none⟩ else a.slots[j]? := by
  rcases release_cases a h with ⟨e, he⟩ | ⟨s, hs, hl, hok, -⟩
  · rw [he] at hr
    cases hr
  · obtain rfl : s = r := Except.ok.inj (hok.symm.trans hr)
    have hslot := get?_eq_some.mp hs
    refine ⟨hslot, fun j => ?_⟩
    simp only [Arena.release, hs, hl, Bool.false_eq_true, ↓reduceIte, Array.getElem?_modify]
    by_cases hj : j = h.slot
    · rw [if_pos hj.symm, if_pos hj, hj, hslot]
      rfl
    · rw [if_neg (Ne.symm hj), if_neg hj]

theorem Matches.release (hm : a.Matches L) (hr : (a.release h).2 = .ok r) :
    (a.release h).1.Matches (L.release h) := by
  obtain ⟨hslot, hslots⟩ := release_slots hr
  have hversion : h.version = versionAt (L.releases h.slot) true := hm.version h.slot _ hslot
  refine ⟨?_, ?_, ?_, ?_, ?_⟩
  · intro k
    rcases release_cases a h with ⟨e, he⟩ | ⟨-, -, -, -, hget⟩
    · rw [he] at hr
      cases hr
    · rw [label?, hget, Ledger.live_release]
      split
      · rfl
      · exact hm.live k
  · intro i s hs
    rw [hslots] at hs
    rw [Ledger.releases_release]
    split at hs
    · rename_i hi
      cases hs
      rw [if_pos hi, hversion]
      exact versionAt_succ _
    · rename_i hi
      rw [if_neg hi]
      exact hm.version i s hs
  · intro i hi
    rw [hslots] at hi
    split at hi
    · cases hi
    · rename_i hne
      rw [Ledger.releases_release, if_neg hne]
      exact hm.unused i hi
  · intro k hk
    obtain ⟨s, n, hs, hv, hn⟩ := hm.issued k hk
    rw [hslots, Ledger.releases_release]
    split
    · rename_i he
      rw [he] at hn
      exact ⟨_, n, rfl, hv, Or.inl (by omega)⟩
    · exact ⟨s, n, hs, hv, hn⟩
  · intro k hk
    rw [Ledger.live_release] at hk
    split at hk
    · cases hk
    · exact hm.known k hk

/-! ## The live handles -/

def liveHandles (a : Arena α) : List Handle :=
  (a.slots.toList.zipIdx.filter (·.1.content.isSome)).map fun e => ⟨e.2, e.1.version⟩

theorem mem_liveHandles {a : Arena α} {h : Handle} :
    h ∈ a.liveHandles ↔ a.contains h = true := by
  have hmem : h ∈ a.liveHandles ↔
      ∃ s : Slot α, a.slots[h.slot]? = some s ∧ s.content.isSome = true ∧ s.version = h.version := by
    simp only [liveHandles, List.mem_map, List.mem_filter, Prod.exists,
      List.mk_mem_zipIdx_iff_getElem?, Array.getElem?_toList]
    constructor
    · rintro ⟨s, i, ⟨hs, hfilled⟩, rfl⟩
      exact ⟨s, hs, hfilled, rfl⟩
    · rintro ⟨s, hs, hfilled, hv⟩
      exact ⟨s, h.slot, ⟨hs, hfilled⟩, by rw [hv]⟩
  rw [hmem, contains, get?]
  cases hs : a.slots[h.slot]? with
  | none => simp
  | some s => by_cases hv : s.version = h.version <;> simp [hv]

theorem nodup_liveHandles (a : Arena α) : a.liveHandles.Nodup := by
  apply List.Nodup.of_map Handle.slot
  have hslots : a.liveHandles.map Handle.slot =
      (a.slots.toList.zipIdx.filter (·.1.content.isSome)).map Prod.snd := by
    rw [liveHandles, List.map_map]
    rfl
  rw [hslots]
  refine (List.filter_sublist.map Prod.snd).nodup ?_
  rw [List.zipIdx_map_snd]
  exact List.nodup_range'

theorem length_liveHandles (a : Arena α) : a.liveHandles.length = a.size := by
  rw [liveHandles, List.length_map, ← List.countP_eq_length_filter, size, ← Array.countP_toList]
  have hfst := List.countP_map (p := fun s : Slot α => s.content.isSome) (f := Prod.fst)
    (l := a.slots.toList.zipIdx)
  rw [List.zipIdx_map_fst] at hfst
  exact hfst.symm

end Arena
end RecordIndex
