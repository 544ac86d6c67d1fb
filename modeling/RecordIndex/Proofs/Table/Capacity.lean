import Mathlib
import RecordIndex.Proofs.Table.Insertion
import RecordIndex.Proofs.Table.Removal

/-! # The capacity and the largest count

A table grows when its count passes a new height for which the buckets do not suffice, and it never
shrinks. So its capacity is the first of its policy that suffices for the largest count so far.
-/
namespace RecordIndex
namespace Policy
variable {p : Policy} {c : UInt64} {capacity peak count : Nat}

def holds (p : Policy) (n : Nat) : Nat := n * p.maxLoad.toNat

/-- The word is long enough for the limit wherever it is asked for. -/
theorem loadLimit_lt_iff (p : Policy) (n : Nat) (hlt : count < 2 ^ 64 - 1) :
    p.loadLimit n < count + 1 ↔ p.holds n < count + 1 := by
  have hsize : UInt64.size - 1 = 2 ^ 64 - 1 := by decide
  rw [loadLimit, holds, hsize]
  omega

theorem loadLimit_le_holds (p : Policy) (n : Nat) : p.loadLimit n ≤ p.holds n := min_le_left ..

/-- The capacity is one of the policy. The smaller ones do not suffice for `peak` records, and it
does suffice itself unless it is the last. -/
structure Fits (p : Policy) (capacity peak : Nat) : Prop where
  entry : ∃ c ∈ p.capacities, c.toNat = capacity
  outgrown : ∀ c ∈ p.capacities, c.toNat < capacity → p.holds c.toNat < peak
  enough : peak ≤ p.holds capacity ∨ p.next? capacity = none

theorem Ascends.fits_initial (hp : p.Ascends) : p.Fits (p.initial?.getD 0).toNat 0 := by
  obtain ⟨c, hinitial, hmem, hleast⟩ := hp.initial?
  rw [hinitial, Option.getD_some]
  refine ⟨⟨c, hmem, rfl⟩, fun d hd hlt => ?_, Or.inl (Nat.zero_le _)⟩
  exact absurd hlt (Nat.not_lt.mpr (hleast d hd))

theorem Fits.raise (hf : p.Fits capacity peak) (hle : peak ≤ count)
    (henough : count ≤ p.holds capacity ∨ p.next? capacity = none) : p.Fits capacity count where
  entry := hf.entry
  outgrown c hc hlt := (hf.outgrown c hc hlt).trans_le hle
  enough := henough

theorem Ascends.holds_next (hp : p.Ascends) (hnext : p.next? capacity = some c) :
    p.holds capacity < p.holds c.toNat :=
  Nat.mul_lt_mul_of_pos_right (hp.next? hnext).2.1 hp.load

/-- Where growth is due, the count is at its peak, and the next capacity suffices for one more. -/
theorem Fits.grow (hf : p.Fits capacity peak) (hp : p.Ascends) (hcount : count ≤ peak)
    (hdue : p.holds capacity < count + 1) (hnext : p.next? capacity = some c) :
    count = peak ∧ p.Fits c.toNat (count + 1) := by
  obtain ⟨hmem, -, hgap⟩ := hp.next? hnext
  have hpeak : peak ≤ p.holds capacity := hf.enough.resolve_right (by simp [hnext])
  refine ⟨by omega, ⟨c, hmem, rfl⟩, fun d hd hdc => ?_, Or.inl ?_⟩
  · have hle : p.holds d.toNat ≤ p.holds capacity := Nat.mul_le_mul_right _ (hgap d hd hdc)
    omega
  · have hmore := hp.holds_next hnext
    omega

theorem Fits.least_or_last (hf : p.Fits capacity peak) (hp : p.Ascends) :
    IsLeast {n | ∃ c ∈ p.capacities, c.toNat = n ∧ peak ≤ p.holds n} capacity ∨
      (∀ c ∈ p.capacities, p.holds c.toNat < peak) ∧
        p.ceiling?.map UInt64.toNat = some capacity := by
  obtain ⟨c, hc, rfl⟩ := hf.entry
  by_cases henough : peak ≤ p.holds c.toNat
  · refine Or.inl ⟨⟨c, hc, rfl, henough⟩, ?_⟩
    rintro n ⟨d, hd, rfl, hle⟩
    by_contra hlt
    have := hf.outgrown d hd (Nat.not_le.mp hlt)
    omega
  · have hlast := next?_eq_none.mp (hf.enough.resolve_left henough)
    obtain ⟨top, htop, hmem, hgreatest⟩ := hp.ceiling?
    have he : top.toNat = c.toNat := Nat.le_antisymm (hlast top hmem) (hgreatest c hc)
    refine Or.inr ⟨fun d hd => ?_, by rw [htop, Option.map_some, he]⟩
    rcases Nat.lt_or_eq_of_le (hlast d hd) with hlt | hd'
    · exact hf.outgrown d hd hlt
    · rw [hd']
      exact Nat.not_le.mp henough

end Policy

namespace Table
variable {α : Type} {t t' : Table} {m : Allocator} {a a' : Arena α} {cs cs' : Chains} {peak : Nat}

structure Fits (t : Table) (peak : Nat) : Prop where
  ascends : t.policy.Ascends
  fits : t.policy.Fits t.capacity peak
  count : t.count ≤ peak

theorem fits_create {id : TableId} {q : ArenaId} {name : String} {policy : Policy}
    (hc : Table.create m id q name policy = .ok t) : t.Fits 0 := by
  obtain ⟨hv, rfl⟩ := create_eq hc
  have hp := Policy.validate_iff.mp hv
  have hfits := hp.fits_initial
  exact ⟨hp, by simpa [Table.capacity] using hfits, le_rfl⟩

theorem Fits.unlinked {h : Handle} (hf : t.Fits peak) (ht : t.Indexes a cs)
    (hu : Unlinked t a cs h t' a') : t'.Fits peak := by
  have hcount := hu.count ht
  refine ⟨hu.same.policy ▸ hf.ascends, ?_, by have := hf.count; omega⟩
  rw [hu.same.policy, hu.capacity ht]
  exact hf.fits

/-- Room is made for a record by one step of growth, and only if it is due. -/
theorem MakesRoom.fits {events : List Event} (hm : MakesRoom t t' events) (hf : t.Fits peak)
    (hlt : t.count < 2 ^ 64 - 1) : t.policy.Fits t'.capacity (max peak (t.count + 1)) := by
  have hcount := hf.count
  cases hm with
  | spare hroom hc =>
    rw [hc]
    refine hf.fits.raise (le_max_left _ _) ?_
    have hle : t.count + 1 ≤ t.policy.holds t.capacity :=
      Nat.not_lt.mp fun h => hroom.not_gt ((t.policy.loadLimit_lt_iff _ hlt).mpr h)
    exact hf.fits.enough.imp_left fun henough => max_le henough hle
  | full hdue hnext hc =>
    rw [hc]
    exact hf.fits.raise (le_max_left _ _) (Or.inr hnext)
  | grown c hdue hnext hc =>
    rw [hc]
    obtain ⟨hpeak, hfits⟩ := hf.fits.grow hf.ascends hcount
      ((t.policy.loadLimit_lt_iff _ hlt).mp hdue) hnext
    rwa [max_eq_right (by omega)]

theorem Fits.inserted {h : Handle} {key : UInt64} {events : List Event} (hf : t.Fits peak)
    (ht : t.Indexes a cs) (hi : Inserted t a cs h key t' a' cs' events)
    (hlt : t.count < 2 ^ 64 - 1) : t'.Fits (max peak t'.count) := by
  rw [hi.count ht]
  refine ⟨hi.same.policy ▸ hf.ascends, ?_, by rw [hi.count ht]; exact le_max_right _ _⟩
  rw [hi.same.policy]
  exact hi.room.fits hf hlt

/-- Below the ceiling the records keep to the load. -/
theorem Fits.count_le_holds (hf : t.Fits peak) {c : UInt64} (hc : c ∈ t.policy.capacities)
    (hlt : t.capacity < c.toNat) : t.count ≤ t.policy.holds t.capacity := by
  refine hf.count.trans (hf.fits.enough.resolve_right fun hnone => ?_)
  exact hlt.not_ge (Policy.next?_eq_none.mp hnone c hc)

theorem MakesRoom.capacity_cases {events : List Event} (hm : MakesRoom t t' events) :
    t'.capacity = t.capacity ∧ resizes events = 0 ∨
      (t.policy.next? t.capacity).map UInt64.toNat = some t'.capacity ∧ resizes events = 1 := by
  cases hm with
  | spare _ hc _ he => exact Or.inl ⟨hc, by rw [he]; rfl⟩
  | full _ _ hc _ he => exact Or.inl ⟨hc, by rw [he]; split <;> rfl⟩
  | grown c _ hnext hc _ he => exact Or.inr ⟨by rw [hnext, hc, Option.map_some], by rw [he]; rfl⟩

/-- One step of growth is all that an insertion may need. -/
theorem MakesRoom.one_step {events : List Event} (hm : MakesRoom t t' events) (hf : t.Fits peak)
    (hlt : t.count < 2 ^ 64 - 1) :
    (t'.capacity = t.capacity ∧ resizes events = 0 ∨
        (t.policy.next? t.capacity).map UInt64.toNat = some t'.capacity ∧ resizes events = 1) ∧
      (t.count + 1 ≤ t.policy.holds t'.capacity ∨ t.policy.next? t'.capacity = none) :=
  ⟨hm.capacity_cases, (hm.fits hf hlt).enough.imp_left (le_max_right _ _).trans⟩

theorem MakesRoom.capacity_le {events : List Event} (hm : MakesRoom t t' events) :
    t.capacity ≤ t'.capacity := by
  cases hm with
  | spare _ hc => exact hc.ge
  | full _ _ hc => exact hc.ge
  | grown c _ hnext hc =>
    have hlt : t.capacity < c.toNat := by simpa using List.find?_some hnext
    omega

/-! ## The load -/

structure Loaded (t : Table) : Prop where
  ascends : t.policy.Ascends
  load : t.count ≤ t.policy.holds t.capacity ∨ t.policy.next? t.capacity = none

theorem loaded_create {id : TableId} {q : ArenaId} {name : String} {policy : Policy}
    (hc : Table.create m id q name policy = .ok t) : t.Loaded := by
  obtain ⟨hv, rfl⟩ := create_eq hc
  exact ⟨Policy.validate_iff.mp hv, Or.inl (Nat.zero_le _)⟩

theorem Loaded.inserted {h : Handle} {key : UInt64} {events : List Event} (hl : t.Loaded)
    (ht : t.Indexes a cs) (hi : Inserted t a cs h key t' a' cs' events) : t'.Loaded := by
  refine ⟨hi.same.policy ▸ hl.ascends, ?_⟩
  rw [hi.same.policy, hi.count ht]
  cases hi.room with
  | spare hroom hc =>
    rw [hc]
    exact Or.inl (hroom.trans (t.policy.loadLimit_le_holds _))
  | full _ hnext hc =>
    rw [hc]
    exact Or.inr hnext
  | grown c _ hnext hc =>
    have hcount := hl.load.resolve_right (by simp [hnext])
    have hmore := hl.ascends.holds_next hnext
    rw [hc]
    exact Or.inl (by omega)

theorem Loaded.unlinked {h : Handle} (hl : t.Loaded) (ht : t.Indexes a cs)
    (hu : Unlinked t a cs h t' a') : t'.Loaded := by
  have hcount := hu.count ht
  refine ⟨hu.same.policy ▸ hl.ascends, ?_⟩
  rw [hu.same.policy, hu.capacity ht]
  exact hl.load.imp_left fun hle => by omega

/-- The table holds all that its capacity allows for, and the memory for the least larger capacity
of its policy is refused. -/
structure Outgrown (t : Table) (m : Allocator) (n : Nat) : Prop where
  count : t.count = t.capacity * t.policy.maxLoad.toNat
  next : IsLeast {k | ∃ c ∈ t.policy.capacities, c.toNat = k ∧ t.capacity < k} n
  refused : m.grants (8 * n) = false

theorem Loaded.outgrown_iff (hl : t.Loaded) (hlt : t.count < 2 ^ 64 - 1) {n : Nat} :
    t.Outgrown m n ↔ ∃ c, Cramped t m c ∧ c.toNat = n := by
  constructor
  · rintro ⟨hcount, hnext, hrefused⟩
    obtain ⟨c, -, rfl, -⟩ := hnext.1
    have hdue : t.policy.holds t.capacity < t.count + 1 := by
      rw [hcount]
      exact Nat.lt_succ_self _
    exact ⟨c, ⟨(t.policy.loadLimit_lt_iff _ hlt).mpr hdue, hl.ascends.next?_eq_some_iff.mpr hnext,
      hrefused⟩, rfl⟩
  · rintro ⟨c, ⟨hdue, hnext, hrefused⟩, rfl⟩
    have hdue := (t.policy.loadLimit_lt_iff _ hlt).mp hdue
    have hle := hl.load.resolve_right (by simp [hnext])
    have hcount : t.count = t.policy.holds t.capacity := by omega
    exact ⟨hcount, hl.ascends.next?_eq_some_iff.mp hnext, hrefused⟩

/-- From `2 ^ 60` buckets on the memory is refused by every allocator. -/
theorem outgrown_of_le {n : Nat} (hn : 2 ^ 60 ≤ n) : t.Outgrown m n ↔
    t.count = t.capacity * t.policy.maxLoad.toNat ∧
      IsLeast {k | ∃ c ∈ t.policy.capacities, c.toNat = k ∧ t.capacity < k} n := by
  refine ⟨fun ho => ⟨ho.count, ho.next⟩, fun ⟨hcount, hnext⟩ => ⟨hcount, hnext, ?_⟩⟩
  cases hg : m.grants (8 * n) with
  | false => rfl
  | true =>
    have hlt := m.lt_of_grants _ hg
    omega

theorem not_outgrown
    (hg : ∀ c ∈ t.policy.capacities, t.capacity < c.toNat → m.grants (8 * c.toNat) = true)
    (n : Nat) : ¬ t.Outgrown m n := by
  rintro ⟨-, hnext, hrefused⟩
  obtain ⟨c, hc, rfl, hlt⟩ := hnext.1
  rw [hg c hc hlt] at hrefused
  cases hrefused

end Table
end RecordIndex
