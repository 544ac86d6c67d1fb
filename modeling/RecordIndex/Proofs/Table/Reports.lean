import Mathlib
import RecordIndex.Proofs.Table.Capacity

/-! # What a table reports of its growth

A table reports each step of growth when it takes it, and once that it can grow no more. Which of
this it has done by a certain time can be told from the largest count it had until then.
-/
namespace RecordIndex
namespace Policy
variable {p : Policy} {c x : UInt64} {capacity peak count : Nat}

def steps (p : Policy) (capacity : Nat) : List (UInt64 × UInt64) :=
  (p.capacities.zip p.capacities.tail).filter (·.2.toNat ≤ capacity)

def Exceeded (p : Policy) (peak : Nat) : Prop := ∀ c ∈ p.capacities, p.holds c.toNat < peak

instance (p : Policy) (peak : Nat) : Decidable (p.Exceeded peak) :=
  inferInstanceAs (Decidable (∀ c ∈ p.capacities, p.holds c.toNat < peak))

/-- The events of a table that has come to a capacity and held at most `peak` records. A step is
taken where its first capacity is full to the load, and the ceiling is met when that is. -/
def growthLog (p : Policy) (name : String) (capacity peak : Nat) : List Event :=
  (p.steps capacity).map (fun (a, b) => .resized name a.toNat b.toNat (p.holds a.toNat)) ++
    if p.Exceeded peak then [.ceilingReached name capacity (p.holds capacity)] else []

theorem zip_tail_append (xs ys : List UInt64) (x c : UInt64) :
    (xs ++ x :: c :: ys).zip (xs ++ x :: c :: ys).tail =
      (xs ++ [x]).zip (xs ++ [x]).tail ++ (x, c) :: (c :: ys).zip ys := by
  induction xs with
  | nil => rfl
  | cons z xs ih => cases xs <;> simp_all

theorem filter_zip_tail_of_le {xs : List UInt64} {n : Nat} (h : ∀ a ∈ xs, a.toNat ≤ n) :
    (xs.zip xs.tail).filter (·.2.toNat ≤ n) = xs.zip xs.tail := by
  refine List.filter_eq_self.mpr fun e he => decide_eq_true (h e.2 ?_)
  exact List.mem_of_mem_tail (List.of_mem_zip he).2

theorem filter_zip_of_lt {xs ys : List UInt64} {n : Nat} (h : ∀ b ∈ ys, n < b.toNat) :
    (xs.zip ys).filter (·.2.toNat ≤ n) = [] := by
  refine List.filter_eq_nil_iff.mpr fun e he => ?_
  have hlt := h e.2 (List.of_mem_zip he).2
  simpa using hlt

/-- The capacity in front of the next one is the last of those that are no larger. -/
theorem Ascends.split_next (hp : p.Ascends) (hx : x ∈ p.capacities)
    (hn : p.next? x.toNat = some c) :
    ∃ before after, p.capacities = before ++ x :: c :: after ∧
      (∀ a ∈ before ++ [x], a.toNat ≤ x.toNat) ∧ x.toNat < c.toNat ∧
      ∀ b ∈ after, c.toNat < b.toNat := by
  obtain ⟨hlt, front, after, he, hfront⟩ := List.find?_eq_some_iff_append.mp hn
  have hxc : x.toNat < c.toNat := by simpa using hlt
  have hle : ∀ a ∈ front, a.toNat ≤ x.toNat := fun a ha => by simpa using hfront a ha
  have hasc := hp.ascending
  rw [he] at hasc hx
  obtain ⟨hascFront, hascRest, -⟩ := List.pairwise_append.mp hasc
  have hafter : ∀ b ∈ after, c.toNat < b.toNat := (List.pairwise_cons.mp hascRest).1
  have hmem : x ∈ front := by
    rcases List.mem_append.mp hx with hm | hm
    · exact hm
    · rcases List.mem_cons.mp hm with rfl | hm
      · exact absurd hxc (lt_irrefl _)
      · exact absurd (hafter x hm) hxc.not_gt
  obtain ⟨before, between, rfl⟩ := List.append_of_mem hmem
  -- what stands between would be larger than `x` and not
  obtain rfl : between = [] := by
    refine List.eq_nil_iff_forall_not_mem.mpr fun y hy => ?_
    have hxy := (List.pairwise_cons.mp (List.pairwise_append.mp hascFront).2.1).1 y hy
    exact hxy.not_ge (hle y (by simp [hy]))
  exact ⟨before, after, by simp [he], hle, hxc, hafter⟩

theorem Ascends.steps_next (hp : p.Ascends) (hx : x ∈ p.capacities)
    (hn : p.next? x.toNat = some c) : p.steps c.toNat = p.steps x.toNat ++ [(x, c)] := by
  obtain ⟨before, after, he, hle, hxc, hafter⟩ := hp.split_next hx hn
  have hle' : ∀ a ∈ before ++ [x], a.toNat ≤ c.toNat := fun a ha => (hle a ha).trans hxc.le
  have hafter' : ∀ b ∈ after, x.toNat < b.toNat := fun b hb => hxc.trans (hafter b hb)
  rw [steps, steps, he, zip_tail_append, List.filter_append, List.filter_append,
    filter_zip_tail_of_le hle, filter_zip_tail_of_le hle',
    List.filter_cons_of_pos (by simp), List.filter_cons_of_neg (by simpa using hxc),
    filter_zip_of_lt hafter, filter_zip_of_lt hafter', List.append_nil]

theorem Ascends.steps_initial (hp : p.Ascends) : p.steps (p.initial?.getD 0).toNat = [] := by
  obtain ⟨c, after, he⟩ := List.exists_cons_of_ne_nil hp.nonempty
  have hasc := hp.ascending
  rw [he] at hasc
  rw [steps, Policy.initial?, he]
  exact filter_zip_of_lt (List.pairwise_cons.mp hasc).1

theorem Ascends.not_exceeded_zero (hp : p.Ascends) : ¬ p.Exceeded 0 := by
  obtain ⟨c, -, hc, -⟩ := hp.initial?
  exact fun h => absurd (h c hc) (Nat.not_lt_zero _)

/-- A capacity that suffices for one more record is one that has sufficed so far. -/
theorem exceeded_max_iff (hc : c ∈ p.capacities) (henough : count ≤ p.holds c.toNat) :
    p.Exceeded (max peak count) ↔ p.Exceeded peak := by
  refine ⟨fun h d hd => ?_, fun h d hd => (h d hd).trans_le (le_max_left _ _)⟩
  have hpeak : p.holds c.toNat < peak := (lt_max_iff.mp (h c hc)).resolve_right (by omega)
  have hd' := h d hd
  omega

/-- The last capacity suffices for the most. -/
theorem exceeded_iff_of_next?_none (hx : x ∈ p.capacities) (hn : p.next? x.toNat = none) :
    p.Exceeded peak ↔ p.holds x.toNat < peak := by
  refine ⟨fun h => h x hx, fun h c hc => ?_⟩
  exact (Nat.mul_le_mul_right _ (next?_eq_none.mp hn c hc)).trans_lt h

/-- The ceiling is the capacity of a table that reports it. -/
theorem Fits.growthLog (hf : p.Fits capacity peak) (hp : p.Ascends) (name : String) :
    ∃ top, p.ceiling? = some top ∧ p.growthLog name capacity peak =
      (p.steps capacity).map (fun (a, b) => .resized name a.toNat b.toNat (p.holds a.toNat)) ++
        if p.holds top.toNat < peak then [.ceilingReached name top.toNat (p.holds top.toNat)]
        else [] := by
  obtain ⟨top, htop, hmem, hgreatest⟩ := hp.ceiling?
  obtain ⟨x, hx, rfl⟩ := hf.entry
  have hexceeded : p.Exceeded peak ↔ p.holds top.toNat < peak :=
    exceeded_iff_of_next?_none hmem (next?_eq_none.mpr hgreatest)
  refine ⟨top, htop, ?_⟩
  rw [Policy.growthLog]
  by_cases he : p.Exceeded peak
  · have hlast := next?_eq_none.mp (hf.enough.resolve_left (he x hx).not_ge)
    have hsame : top.toNat = x.toNat := Nat.le_antisymm (hlast top hmem) (hgreatest x hx)
    rw [if_pos he, if_pos (hexceeded.mp he), hsame]
  · rw [if_neg he, if_neg fun h => he (hexceeded.mpr h)]

end Policy

namespace Table
variable {α : Type} {t t' : Table} {a a' : Arena α} {cs cs' : Chains} {peak : Nat}
  {events : List Event}

structure Reported (t : Table) (peak : Nat) (events : List Event) : Prop where
  log : events = t.policy.growthLog t.name t.capacity peak
  ceiling : t.ceilingReported = true ↔ t.policy.Exceeded peak

theorem reported_create {m : Allocator} {id : TableId} {q : ArenaId} {name : String}
    {policy : Policy} (hc : Table.create m id q name policy = .ok t) : t.Reported 0 [] := by
  obtain ⟨hv, rfl⟩ := create_eq hc
  have hp := Policy.validate_iff.mp hv
  have hsteps := hp.steps_initial
  refine ⟨?_, by simpa using hp.not_exceeded_zero⟩
  simp only [Policy.growthLog, Table.capacity, Array.size_replicate, hsteps, List.map_nil,
    if_neg hp.not_exceeded_zero, List.append_nil]

theorem Reported.congr (hr : t.Reported peak events) (hsame : SameTable t t')
    (hc : t'.capacity = t.capacity) (hceiling : t'.ceilingReported = t.ceilingReported) :
    t'.Reported peak events := by
  refine ⟨?_, by rw [hceiling, hsame.policy]; exact hr.ceiling⟩
  rw [hsame.policy, hsame.name, hc]
  exact hr.log

/-- One more record is reported of only where the capacity does not suffice for it. Then the count
is at its peak, and the buckets are full to the load. -/
theorem Reported.makeRoom {new : List Event} (hr : t.Reported peak events) (hf : t.Fits peak)
    (hsame : SameTable t t') (hm : MakesRoom t t' new) (hlt : t.count < 2 ^ 64 - 1) :
    t'.Reported (max peak (t.count + 1)) (events ++ new) := by
  obtain ⟨x, hx, hxc⟩ := hf.fits.entry
  have hcount := hf.count
  have hdue_iff := t.policy.loadLimit_lt_iff t.capacity hlt
  cases hm with
  | spare hroom hc hceiling he =>
    have henough : t.count + 1 ≤ t.policy.holds x.toNat := by
      rw [hxc]
      exact Nat.not_lt.mp fun h => hroom.not_gt (hdue_iff.mpr h)
    have hexceeded : t.policy.Exceeded (max peak (t.count + 1)) ↔ t.policy.Exceeded peak :=
      Policy.exceeded_max_iff hx henough
    subst he
    refine ⟨?_, by rw [hceiling, hr.ceiling, hsame.policy, hexceeded]⟩
    rw [List.append_nil, hr.log, hsame.policy, hsame.name, hc, Policy.growthLog, Policy.growthLog]
    simp only [hexceeded]
  | full hdue hnext hc hceiling he =>
    rw [← hxc] at hnext
    have hdue : t.policy.holds x.toNat < t.count + 1 := by
      rw [hxc]
      exact hdue_iff.mp hdue
    have hexceeded : t.policy.Exceeded (max peak (t.count + 1)) :=
      (Policy.exceeded_iff_of_next?_none hx hnext).mpr (hdue.trans_le (le_max_right _ _))
    refine ⟨?_, by simp [hceiling, hsame.policy, hexceeded]⟩
    rw [hr.log, hsame.policy, hsame.name, hc, he, Policy.growthLog, Policy.growthLog,
      if_pos hexceeded]
    by_cases hbefore : t.policy.Exceeded peak
    · rw [if_pos hbefore, if_pos (hr.ceiling.mpr hbefore), List.append_nil]
    · have hfull : t.policy.holds t.capacity = t.count := by
        have hpeak : ¬ t.policy.holds x.toNat < peak :=
          fun h => hbefore ((Policy.exceeded_iff_of_next?_none hx hnext).mpr h)
        rw [← hxc]
        omega
      rw [if_neg hbefore, if_neg fun h => hbefore (hr.ceiling.mp h), List.append_nil, hfull]
  | grown c hdue hnext hc hceiling he =>
    have hmem := (hf.ascends.next? hnext).1
    have hmore := hf.ascends.holds_next hnext
    have hbelow : peak ≤ t.policy.holds t.capacity := hf.fits.enough.resolve_right (by simp [hnext])
    have hdue := hdue_iff.mp hdue
    have hfull : t.policy.holds t.capacity = t.count := by omega
    have hnot : ∀ n ≤ t.count + 1, ¬ t.policy.Exceeded n := by
      intro n hn h
      have hc := h c hmem
      omega
    have hbefore := hnot peak (by omega)
    have hafter := hnot (max peak (t.count + 1)) (by omega)
    refine ⟨?_, by rw [hceiling, hr.ceiling, hsame.policy]; exact iff_of_false hbefore hafter⟩
    rw [← hxc] at hnext
    rw [hr.log, hsame.policy, hsame.name, hc, he, Policy.growthLog, Policy.growthLog,
      if_neg hbefore, if_neg hafter, List.append_nil, List.append_nil, ← hxc,
      hf.ascends.steps_next hx hnext, List.map_append, hxc]
    simp only [List.map_cons, List.map_nil, hxc, hfull]

/-- Room for a record below the peak is made without a word. -/
theorem Reported.silent {new : List Event} (hr : t.Reported peak events) (hf : t.Fits peak)
    (hm : MakesRoom t t' new) (hlt : t.count < 2 ^ 64 - 1) (hbelow : t.count < peak) :
    new = [] := by
  obtain ⟨x, hx, hxc⟩ := hf.fits.entry
  have hdue_iff := t.policy.loadLimit_lt_iff t.capacity hlt
  cases hm with
  | spare _ _ _ he => exact he
  | full hdue hnext _ _ he =>
    rw [← hxc] at hnext
    have hexceeded : t.policy.Exceeded peak := by
      apply (Policy.exceeded_iff_of_next?_none hx hnext).mpr
      have hdue := hdue_iff.mp hdue
      rw [hxc]
      omega
    rw [he, if_pos (hr.ceiling.mpr hexceeded)]
  | grown c hdue hnext =>
    have hpeak := (hf.fits.grow hf.ascends hf.count (hdue_iff.mp hdue) hnext).1
    omega

end Table
end RecordIndex
