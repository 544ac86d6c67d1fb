import Mathlib
import RecordIndex.Proofs.Session.Custody
import RecordIndex.Proofs.Table.Capacity
import RecordIndex.Proofs.Workspace.Fates

/-! # The capacity of a table in a run

The largest count that a table has had is kept along the run. Together with the policy it determines
the capacity, whatever was inserted and removed on the way and in which order.
-/
namespace RecordIndex
variable {α : Type}

namespace Workspace
variable {w w' : Workspace α} {held : Holdings} {deed : Deed} {t : TableId} {table' : Table}
  {a' : Arena α}

def countOf (w : Workspace α) (t : TableId) : Nat := (w.table? t).elim 0 (·.count)

theorem countOf_of_table? {table : Table} (ht : w.table? t = some table) :
    w.countOf t = table.count := by
  rw [countOf, ht, Option.elim]

theorem countOf_of_size_le (ht : w.tables.size ≤ t) : w.countOf t = 0 := by
  have hnone : w.tables[t]? = none := Array.getElem?_eq_none ht
  rw [countOf, table?, hnone, Option.elim]

structure Peaks (w : Workspace α) (peak : TableId → Nat) : Prop where
  fits : ∀ t table, w.table? t = some table → peak t < 2 ^ 64 - 1 → table.Fits (peak t)
  fresh : ∀ t, w.tables.size ≤ t → peak t = 0

theorem Peaks.step {peak : TableId → Nat} (hb : w.Peaks peak) (hw : w.Sound held)
    (hc : Change w deed w') : w'.Peaks fun t => max (peak t) (w'.countOf t) := by
  constructor
  · intro t table' ht hlt
    obtain ⟨a', hu'⟩ := (hw.step hc).exists_uses ht
    have hpeak : peak t < 2 ^ 64 - 1 := (le_max_left _ _).trans_lt hlt
    rw [countOf_of_table? ht]
    cases hw.fate hc hu' with
    | kept hu =>
      have hf := hb.fits t _ hu.table? hpeak
      rwa [max_eq_left hf.count]
    | opened _ hsize hnew =>
      have hf := Table.fits_create hnew
      rwa [hb.fresh t hsize.ge, max_eq_left hf.count]
    | inserted _ hu hcs _ _ hi =>
      have hf := hb.fits t _ hu.table? hpeak
      exact hf.inserted hcs hi (hf.count.trans_lt hpeak)
    | unlinked _ hu hcs hi =>
      have hf := (hb.fits t _ hu.table? hpeak).unlinked hcs hi
      rwa [max_eq_left hf.count]
  · intro t ht
    rw [countOf_of_size_le ht, hb.fresh t ((hw.size_le hc).trans ht), max_self]

/-- A table that is not new was in use before, under the same policy and with no more buckets. -/
theorem Sound.grew (hw : w.Sound held) (hc : Change w deed w') (hu' : w'.Uses t table' a')
    (ht : t ≠ w.tables.size) : ∃ table a, w.Uses t table a ∧ table'.policy = table.policy ∧
      table.capacity ≤ table'.capacity := by
  cases hw.fate hc hu' with
  | kept hu => exact ⟨_, _, hu, rfl, le_rfl⟩
  | opened _ hsize => exact absurd hsize ht
  | inserted _ hu _ _ _ hi => exact ⟨_, _, hu, hi.same.policy, hi.room.capacity_le⟩
  | unlinked _ hu hcs hi => exact ⟨_, _, hu, hi.same.policy, (hi.capacity hcs).ge⟩

theorem create_policy {m : Allocator} {p : ArenaId} {name : String} {policy : Policy}
    (he : w.create m p name policy = (w', .ok t)) (ht : w'.table? t = some table') :
    table'.policy = policy := by
  obtain ⟨a, table, -, hc, rfl, rfl⟩ := create_ok he
  have htable : table' = table := by simpa [table?] using ht.symm
  rw [htable, (Table.create_eq hc).2]

end Workspace

namespace Session
variable {s : Session α} {acts : List (Action α)} {t : TableId} {table : Table}

def peak (acts : List (Action α)) (t : TableId) : Nat :=
  track (fun s action n => max n ((s.act action).1.space.countOf t)) empty 0 acts

@[simp] theorem peak_concat (acts : List (Action α)) (action : Action α) (t : TableId) :
    peak (acts ++ [action]) t =
      max (peak acts t) (((run acts).act action).1.space.countOf t) :=
  track_concat ..

theorem run_peaks (acts : List (Action α)) : (run acts).space.Peaks (peak acts) := by
  induction acts using List.reverseRecOn with
  | nil => exact ⟨by simp [empty], fun _ _ => rfl⟩
  | append_singleton acts action ih =>
    rw [run_concat, funext fun t => peak_concat acts action t]
    exact ih.step (run_sound acts) (act_change (run_sound acts) action)

theorem isGreatest_peak (acts : List (Action α)) (t : TableId) :
    IsGreatest {n | ∃ before, before <+: acts ∧ (run before).space.countOf t = n}
      (peak acts t) := by
  induction acts using List.reverseRecOn with
  | nil =>
    have hempty : (run ([] : List (Action α))).space.countOf t = 0 :=
      Workspace.countOf_of_size_le (Nat.zero_le t)
    refine ⟨⟨[], List.prefix_rfl, hempty⟩, ?_⟩
    rintro n ⟨before, hb, rfl⟩
    rw [List.prefix_nil.mp hb, hempty]
    exact Nat.zero_le _
  | append_singleton acts action ih =>
    rw [peak_concat]
    constructor
    · rcases max_choice (peak acts t) (((run acts).act action).1.space.countOf t) with he | he
      · obtain ⟨before, hb, hn⟩ := ih.1
        rw [he]
        exact ⟨before, hb.trans (List.prefix_append ..), hn⟩
      · rw [he]
        exact ⟨acts ++ [action], List.prefix_rfl, by rw [run_concat]⟩
    · rintro n ⟨before, hb, rfl⟩
      rcases List.prefix_concat_iff.mp hb with rfl | hb
      · rw [run_concat]
        exact le_max_right _ _
      · exact (ih.2 ⟨before, hb, rfl⟩).trans (le_max_left _ _)

theorem run_size_le (acts more : List (Action α)) :
    (run acts).space.tables.size ≤ (run (acts ++ more)).space.tables.size := by
  induction more using List.reverseRecOn with
  | nil => rw [List.append_nil]
  | append_singleton more action ih =>
    rw [← List.append_assoc, run_concat]
    exact ih.trans ((run_sound _).size_le (act_change (run_sound _) action))

/-- A table never loses buckets. -/
theorem run_capacity_le (ht : (run acts).space.table? t = some table) (more : List (Action α)) :
    ∀ table', (run (acts ++ more)).space.table? t = some table' →
      table.capacity ≤ table'.capacity := by
  induction more using List.reverseRecOn with
  | nil =>
    intro table' ht'
    rw [List.append_nil, ht] at ht'
    rw [Option.some.inj ht']
  | append_singleton more action ih =>
    intro table' ht'
    have hw := run_sound (acts ++ more)
    rw [← List.append_assoc, run_concat] at ht'
    have hc := act_change hw action
    obtain ⟨a', hu'⟩ := (hw.step hc).exists_uses ht'
    obtain ⟨a, hu⟩ := (run_sound acts).exists_uses ht
    obtain ⟨table'', a'', hu'', -, hle⟩ :=
      hw.grew hc hu' (hu.lt_size.trans_le (run_size_le acts more)).ne
    exact (ih table'' hu''.table?).trans hle

theorem act_opened {action : Action α} {p : ArenaId} (hd : s.does action = .opened t p)
    (ht : (s.act action).1.space.table? t = some table) :
    ∃ m name, action = .create m p name table.policy := by
  unfold does deed at hd
  split at hd <;> cases hd
  rename_i m name policy hanswer
  refine ⟨m, name, ?_⟩
  simp only [act, after] at hanswer ht
  cases hc : (s.space.create m p name policy).2 with
  | error e => simp [hc, Except.map] at hanswer
  | ok u =>
    simp only [hc, Except.map, Except.ok.injEq, Reply.table.injEq] at hanswer
    subst hanswer
    rw [Workspace.create_policy (Prod.ext rfl hc) ht]

/-- A table in use was created in the run, with the policy that it still has. -/
theorem run_origin (acts : List (Action α)) :
    ∀ table, (run acts).space.table? t = some table → ∃ before m p name later,
      acts = before ++ .create m p name table.policy :: later ∧
        (run before).does (.create m p name table.policy) = .opened t p := by
  induction acts using List.reverseRecOn with
  | nil => exact fun table ht => by simp [empty] at ht
  | append_singleton acts action ih =>
    intro table ht
    have hw := run_sound acts
    have hc := act_change hw action
    rw [run_concat] at ht
    obtain ⟨a', hu'⟩ := (hw.step hc).exists_uses ht
    by_cases hnew : t = (run acts).space.tables.size
    · cases hw.fate hc hu' with
      | opened hd =>
        obtain ⟨m, name, rfl⟩ := act_opened hd ht
        exact ⟨acts, m, _, name, [], rfl, hd⟩
      | kept hu => exact absurd hnew hu.lt_size.ne
      | inserted _ hu => exact absurd hnew hu.lt_size.ne
      | unlinked _ hu => exact absurd hnew hu.lt_size.ne
    · obtain ⟨old, a, hu, hpolicy, -⟩ := hw.grew hc hu' hnew
      obtain ⟨before, m, p, name, later, rfl, hd⟩ := ih old hu.table?
      rw [hpolicy]
      exact ⟨before, m, p, name, later ++ [action], by simp, hd⟩

/-- The capacity of a table in use after a run is the least one of its policy that suffices for the
largest count it has had, or the last one where none does. So it never gets smaller, an insertion
needs at most one step of growth, the limit in a word decides as the exact one would, and below the
ceiling the records keep to the load. -/
theorem capacity_follows_peak (acts : List (Action α))
    (ht : (run acts).space.table? t = some table) (hlt : peak acts t < 2 ^ 64 - 1) :
    let policy := table.policy
    IsGreatest {n | ∃ before, before <+: acts ∧ (run before).space.countOf t = n}
      (peak acts t) ∧
    (∃ before m p name later, acts = before ++ .create m p name policy :: later ∧
      (run before).does (.create m p name policy) = .opened t p) ∧
    policy.validate = .ok () ∧
    (IsLeast {n | ∃ c ∈ policy.capacities, c.toNat = n ∧ peak acts t ≤ n * policy.maxLoad.toNat}
        table.capacity ∨
      (∀ c ∈ policy.capacities, c.toNat * policy.maxLoad.toNat < peak acts t) ∧
        policy.ceiling?.map UInt64.toNat = some table.capacity) ∧
    (∀ more table', (run (acts ++ more)).space.table? t = some table' →
      table.capacity ≤ table'.capacity) ∧
    (∀ m h events table',
      ((run acts).act (.insert m t table.arena h)).2 = .ok (.events events) →
      ((run acts).act (.insert m t table.arena h)).1.space.table? t = some table' →
      (table'.capacity = table.capacity ∧ Table.resizes events = 0 ∨
        (policy.next? table.capacity).map UInt64.toNat = some table'.capacity ∧
          Table.resizes events = 1) ∧
      (table'.count ≤ table'.capacity * policy.maxLoad.toNat ∨
        policy.next? table'.capacity = none)) ∧
    (policy.loadLimit table.capacity < table.count + 1 ↔
      table.capacity * policy.maxLoad.toNat < table.count + 1) ∧
    ∀ c ∈ policy.capacities, table.capacity < c.toNat →
      table.count ≤ table.capacity * policy.maxLoad.toNat := by
  intro policy
  have hw := run_sound acts
  have hf := (run_peaks acts).fits t table ht hlt
  have hcount : table.count < 2 ^ 64 - 1 := hf.count.trans_lt hlt
  refine ⟨isGreatest_peak acts t, run_origin acts table ht, Policy.validate_iff.mpr hf.ascends,
    hf.fits.least_or_last hf.ascends, run_capacity_le ht, ?_, policy.loadLimit_lt_iff _ hcount,
    fun c hc hlt => hf.count_le_holds hc hlt⟩
  intro m h events table' hanswer ht'
  have hd : (run acts).does (.insert m t table.arena h) = .inserted t h events := by
    rw [does, hanswer, deed]
  have hc := act_change hw (.insert m t table.arena h)
  rw [hd] at hc
  obtain ⟨a, hu⟩ := hw.exists_uses ht
  obtain ⟨a', hu'⟩ := (hw.step hc).exists_uses ht'
  obtain ⟨cs, cs', key, hcs, hi⟩ := hw.inserted hc hu hu'
  rw [hi.count hcs]
  exact hi.room.one_step hf hcount

/-- Two removals leave one record, for which the first capacity would do, in a table that stays at
its last one. -/
theorem sample_capacity :
    let acts := sample ++ [.remove 0 0 4, .remove 0 0 6]
    let table : Table := ⟨0, 0, "t", ⟨[1, 2], 1⟩, #[some ⟨0, 1⟩, none], 1, 6, true⟩
    (run acts).space.table? 0 = some table ∧ peak acts 0 = 3 ∧
      table.policy.ceiling?.map UInt64.toNat = some table.capacity := by
  intro acts table
  have ht : (run acts).space.table? 0 = some table := by rfl
  have hpeak : peak acts 0 = 3 := by decide +kernel
  obtain ⟨-, -, -, hcapacity, -⟩ := capacity_follows_peak acts ht (by rw [hpeak]; decide)
  refine ⟨ht, hpeak, ?_⟩
  rcases hcapacity with ⟨⟨c, hc, -, henough⟩, -⟩ | ⟨-, hlast⟩
  · rw [hpeak] at henough
    exact absurd henough (by decide)
  · exact hlast

end Session
end RecordIndex
