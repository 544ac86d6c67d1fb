import Mathlib
import RecordIndex.Proofs.Session.Capacity
import RecordIndex.Proofs.Session.Refusals
import RecordIndex.Proofs.Table.Reports

/-! # The growth log of a table in a run

What the operations on a table have emitted by the end of a run depends on two numbers only: the
capacity and the largest count that the table has had.
-/
namespace RecordIndex
variable {α β : Type}

def Deed.emits (t : TableId) : Deed → List Event
  | .inserted u _ events => if u = t then events else []
  | _ => []

namespace Workspace
variable {w w' : Workspace α} {held : Holdings} {deed : Deed} {peak : TableId → Nat}
  {events : TableId → List Event}

structure Reports (w : Workspace α) (peak : TableId → Nat) (events : TableId → List Event) :
    Prop where
  reported : ∀ t table, w.table? t = some table → peak t < 2 ^ 64 - 1 →
    table.Reported (peak t) (events t)
  fresh : ∀ t, w.tables.size ≤ t → events t = []

theorem Change.inserted_of_emits (hc : Change w deed w') {t : TableId}
    (ht : deed.emits t ≠ []) : ∃ table a cs h key table' a' cs', w.Uses t table a ∧
      w'.Uses t table' a' ∧ table.Inserted a cs h key table' a' cs' (deed.emits t) := by
  cases hc with
  | @inserted u _ _ _ a' _ _ _ _ _ hu _ _ _ hi =>
    by_cases hut : u = t
    · subst hut
      rw [Deed.emits, if_pos rfl]
      exact ⟨_, _, _, _, _, _, _, _, hu, put_uses hu hi.same.arena a', hi⟩
    · simp [Deed.emits, hut] at ht
  | _ => simp [Deed.emits] at ht

theorem Reports.step (hr : w.Reports peak events) (hb : w.Peaks peak) (hw : w.Sound held)
    (hc : Change w deed w') :
    w'.Reports (fun t => max (peak t) (w'.countOf t)) (fun t => events t ++ deed.emits t) := by
  constructor
  · intro t table' ht hlt
    obtain ⟨a', hu'⟩ := (hw.step hc).exists_uses ht
    have hpeak : peak t < 2 ^ 64 - 1 := (le_max_left _ _).trans_lt hlt
    rw [countOf_of_table? ht]
    cases hw.fate hc hu' with
    | kept hu _ hne =>
      have hquiet : deed.emits t = [] := by
        cases deed with
        | inserted u h events =>
          have hut : u ≠ t := fun he => hne (congrArg some he)
          simp [Deed.emits, hut]
        | _ => rfl
      rw [hquiet, List.append_nil, max_eq_left (hb.fits t _ hu.table? hpeak).count]
      exact hr.reported t _ hu.table? hpeak
    | opened hd hsize hnew =>
      have hcount := (Table.fits_create hnew).count
      rw [hd, hr.fresh t hsize.ge, hb.fresh t hsize.ge, max_eq_left hcount]
      exact Table.reported_create hnew
    | inserted hd hu hcs _ _ hi =>
      have hf := hb.fits t _ hu.table? hpeak
      have hroom := (hr.reported t _ hu.table? hpeak).makeRoom hf hi.same hi.room
        (hf.count.trans_lt hpeak)
      rw [hd, hi.count hcs]
      simpa [Deed.emits] using hroom
    | unlinked hd hu hcs hi =>
      have hf := hb.fits t _ hu.table? hpeak
      rw [hd, max_eq_left (hf.unlinked hcs hi).count]
      simpa [Deed.emits] using
        (hr.reported t _ hu.table? hpeak).congr hi.same (hi.capacity hcs) hi.ceiling
  · intro t ht
    have ht := (hw.size_le hc).trans ht
    have hquiet : deed.emits t = [] := by
      by_contra hne
      obtain ⟨_, _, _, _, _, _, _, _, hu, -⟩ := hc.inserted_of_emits hne
      exact hu.lt_size.not_ge ht
    rw [hr.fresh t ht, hquiet, List.append_nil]

end Workspace

namespace Session
variable {s : Session α} {held : Holdings} {acts : List (Action α)} {t : TableId} {table : Table}

def eventsOf (acts : List (Action α)) (t : TableId) : List Event :=
  track (fun s action events =>
    if action.pair?.map (·.1) = some t then events ++ s.emits action else events) empty [] acts

/-- Only an insertion emits events. -/
theorem exists_of_emits {action : Action α} (he : s.emits action ≠ []) :
    ∃ m t p h, action = .insert m t p h := by
  cases action with
  | insert m t p h => exact ⟨m, t, p, h, rfl⟩
  | _ => exact absurd rfl he

/-- The answer to an action tells what it has emitted. -/
theorem does_emits (hw : s.space.Sound held) (action : Action α) (t : TableId) :
    (s.does action).emits t = if action.pair?.map (·.1) = some t then s.emits action else [] := by
  by_cases hi : ∃ m u p h, action = .insert m u p h
  · obtain ⟨m, u, p, h, rfl⟩ := hi
    rw [does]
    cases ha : (s.act (.insert m u p h)).2 with
    | error e => simp [deed, Deed.emits, emits_of_refused hw ha]
    | ok answer =>
      rw [s.emits_of_ok ha]
      simp [deed, Deed.emits, Action.pair?]
  · have hquiet : s.emits action = [] := by
      by_contra hne
      exact hi (exists_of_emits hne)
    rw [hquiet, ite_self, does]
    unfold deed
    split <;> first | rfl | exact absurd ⟨_, _, _, _, rfl⟩ hi

@[simp] theorem eventsOf_concat (acts : List (Action α)) (action : Action α) (t : TableId) :
    eventsOf (acts ++ [action]) t = eventsOf acts t ++ ((run acts).does action).emits t := by
  rw [eventsOf, track_concat, does_emits (run_sound acts)]
  split
  · rfl
  · exact (List.append_nil _).symm

theorem run_reports (acts : List (Action α)) :
    (run acts).space.Reports (peak acts) (eventsOf acts) := by
  induction acts using List.reverseRecOn with
  | nil => exact ⟨by simp [empty], fun _ _ => rfl⟩
  | append_singleton acts action ih =>
    have hw := run_sound acts
    rw [run_concat, funext fun t => peak_concat acts action t,
      funext fun t => eventsOf_concat acts action t]
    exact ih.step (run_peaks acts) hw (act_change hw action)

/-- A table that is out of use emits nothing any more. -/
theorem eventsOf_out_of_use (ht : t < (run acts).space.tables.size)
    (hout : (run acts).space.table? t = none) (more : List (Action α)) :
    (run (acts ++ more)).space.table? t = none ∧ eventsOf (acts ++ more) t = eventsOf acts t := by
  induction more using List.reverseRecOn with
  | nil => simpa using hout
  | append_singleton more action ih =>
    obtain ⟨hnone, he⟩ := ih
    have hw := run_sound (acts ++ more)
    have hc := act_change hw action
    have hlt := ht.trans_le (run_size_le acts more)
    rw [← List.append_assoc, run_concat, eventsOf_concat, he]
    refine ⟨(hw.out_of_use hc hlt hnone).1, List.append_right_eq_self.mpr ?_⟩
    by_contra hne
    obtain ⟨_, _, _, _, _, _, _, _, hu, -⟩ := hc.inserted_of_emits hne
    simp [hu.table?] at hnone

/-- What the operations on a table in use have emitted is its steps of growth up to the capacity,
and then the one event of its ceiling if no capacity suffices for the largest count it has had. An
operation emits something only if it is an insertion at that count. Once the table is out of use its
log stays as it is. -/
theorem log_follows_peak (acts : List (Action α)) (ht : (run acts).space.table? t = some table)
    (hlt : peak acts t < 2 ^ 64 - 1) :
    let policy := table.policy
    IsGreatest {n | ∃ before, before <+: acts ∧ (run before).space.countOf t = n}
      (peak acts t) ∧
    policy.validate = .ok () ∧
    (∃ top, policy.ceiling? = some top ∧
      eventsOf acts t =
        ((policy.capacities.zip policy.capacities.tail).filter (·.2.toNat ≤ table.capacity)).map
          (fun (a, b) =>
            .resized table.name a.toNat b.toNat (a.toNat * policy.maxLoad.toNat)) ++
        if top.toNat * policy.maxLoad.toNat < peak acts t then
          [.ceilingReached table.name top.toNat (top.toNat * policy.maxLoad.toNat)]
        else []) ∧
    (∀ action p, action.pair? = some (t, p) → (run acts).emits action ≠ [] →
      (∃ m h, action = .insert m t p h) ∧ table.count = peak acts t) ∧
    ∀ action more, ((run acts).act action).1.space.table? t = none →
      eventsOf (acts ++ action :: more) t = eventsOf acts t := by
  intro policy
  have hw := run_sound acts
  have hf := (run_peaks acts).fits t table ht hlt
  have hr := (run_reports acts).reported t table ht hlt
  obtain ⟨top, htop, hlog⟩ := hf.fits.growthLog hf.ascends table.name
  refine ⟨isGreatest_peak acts t, Policy.validate_iff.mpr hf.ascends,
    ⟨top, htop, hr.log.trans hlog⟩, ?_, ?_⟩
  · intro action p hpair he
    have hemits := does_emits hw action t
    rw [hpair, Option.map_some, if_pos rfl] at hemits
    refine ⟨?_, ?_⟩
    · obtain ⟨m, u, q, h, rfl⟩ := exists_of_emits he
      cases hpair
      exact ⟨m, h, rfl⟩
    · by_contra hne
      obtain ⟨_, _, _, _, _, _, _, _, hu, -, hi⟩ :=
        (act_change hw action).inserted_of_emits (hemits ▸ he)
      obtain rfl : table = _ := Option.some.inj (ht.symm.trans hu.table?)
      have hsilent := hr.silent hf hi.room (hf.count.trans_lt hlt) (lt_of_le_of_ne hf.count hne)
      exact he (hemits.symm.trans hsilent)
  · intro action more hout
    obtain ⟨a, hu⟩ := hw.exists_uses ht
    have hc := act_change hw action
    have hlt' := hu.lt_size.trans_le (hw.size_le hc)
    rw [← run_concat] at hlt' hout
    rw [← List.singleton_append, ← List.append_assoc, (eventsOf_out_of_use hlt' hout more).2,
      eventsOf_concat]
    refine List.append_right_eq_self.mpr ?_
    by_contra hne
    obtain ⟨_, _, _, _, _, _, _, _, -, hu', -⟩ := hc.inserted_of_emits hne
    simp [hu'.table?] at hout

/-- The table takes its one step with one record in its bucket, and meets its ceiling with two. -/
theorem sample_log :
    (run sample).space.table? 0 = some sampleTable ∧ peak sample 0 < 2 ^ 64 - 1 ∧
      eventsOf sample 0 = [.resized "t" 1 2 1, .ceilingReached "t" 2 2] := by
  have ht : (run sample).space.table? 0 = some sampleTable := by rfl
  have hpeak : peak sample 0 = 3 := by decide +kernel
  have hlt : peak sample 0 < 2 ^ 64 - 1 := by
    rw [hpeak]
    decide
  obtain ⟨-, -, ⟨top, htop, hlog⟩, -⟩ := log_follows_peak sample ht hlt
  obtain rfl : 2 = top := Option.some.inj htop
  refine ⟨ht, hlt, hlog.trans ?_⟩
  rw [hpeak]
  decide

end Session
end RecordIndex
