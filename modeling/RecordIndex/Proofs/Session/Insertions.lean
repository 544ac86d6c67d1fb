import Mathlib
import RecordIndex.Proofs.Session.Capacity
import RecordIndex.Proofs.Session.Redistribution
import RecordIndex.Proofs.Workspace.Closing

/-! # What becomes of an insertion

There are three ways for an insertion to fail, and the history decides which: the record is gone, it
is in a chain or was left in one, or the table is full to its load and the next capacity is out of
reach. In all other cases it succeeds, at the ceiling too.
-/
namespace RecordIndex.Session
variable {α : Type} {acts : List (Action α)} {t : TableId} {table : Table} {p : ArenaId}
  {h : Handle}

/-! ## Records left linked -/

/-- The table `t` listed the record when it went out of use, and nothing has taken the record out of
it since. -/
inductive Left (t : TableId) (p : ArenaId) (h : Handle) : List (Action α) → Prop where
  | retired {acts : List (Action α)} {action : Action α} (hl : (run acts).space.Lists t p h)
      (hretires : ((run acts).does action).retires = some t) : Left t p h (acts ++ [action])
  | kept {acts : List (Action α)} {action : Action α} (hleft : Left t p h acts)
      (htaken : (run acts).does action ≠ .taken t h) : Left t p h (acts ++ [action])

theorem not_left_nil : ¬ Left t p h ([] : List (Action α)) := by
  intro hleft
  generalize hacts : ([] : List (Action α)) = acts at hleft
  cases hleft <;> simp at hacts

theorem left_concat {action : Action α} : Left t p h (acts ++ [action]) ↔
    ((run acts).space.Lists t p h ∧ ((run acts).does action).retires = some t) ∨
      (Left t p h acts ∧ (run acts).does action ≠ .taken t h) := by
  constructor
  · intro hleft
    generalize hacts : acts ++ [action] = all at hleft
    cases hleft with
    | retired hl hretires =>
      obtain ⟨rfl, hlast⟩ := List.append_inj' hacts rfl
      cases hlast
      exact Or.inl ⟨hl, hretires⟩
    | kept hleft htaken =>
      obtain ⟨rfl, hlast⟩ := List.append_inj' hacts rfl
      cases hlast
      exact Or.inr ⟨hleft, htaken⟩
  · rintro (⟨hl, hretires⟩ | ⟨hleft, htaken⟩)
    · exact .retired hl hretires
    · exact .kept hleft htaken

theorem left_iff : Left t p h acts ↔ (run acts).space.Strands (holdings acts) t p h := by
  induction acts using List.reverseRecOn with
  | nil =>
    refine ⟨fun hleft => absurd hleft not_left_nil, fun hstrands => ?_⟩
    cases hstrands.mem
  | append_singleton acts action ih =>
    have hw := run_sound acts
    -- both sides say the same of the last action: it strands the record or does not take it out
    rw [left_concat, ih, run_concat, holdings_concat, hw.strands_step (act_change hw action)]

/-- The record is in a chain of a table in use, or a table that went out of use has left it
linked. -/
def InChain (acts : List (Action α)) (p : ArenaId) (h : Handle) : Prop :=
  (∃ u, (run acts).space.Lists u p h) ∨ ∃ u, Left u p h acts

theorem inChain_iff : InChain acts p h ↔
    ∃ u, (holdings acts u).arena = p ∧ h ∈ (holdings acts u).records := by
  have hw := run_sound acts
  constructor
  · rintro (⟨u, hl⟩ | ⟨u, hleft⟩)
    · exact ⟨u, (hw.lists_iff.mp hl).2⟩
    · obtain ⟨-, hp, hh⟩ := left_iff.mp hleft
      exact ⟨u, hp, hh⟩
  · rintro ⟨u, hp, hh⟩
    cases hu : (run acts).space.table? u with
    | some table => exact Or.inl ⟨u, hw.lists_iff.mpr ⟨⟨table, hu⟩, hp, hh⟩⟩
    | none => exact Or.inr ⟨u, left_iff.mpr ⟨hu, hp, hh⟩⟩

/-- The mark of a record tells whether it is in a chain. -/
theorem linked_iff {r : Record α} (hr : (run acts).recordOf p h = some r) :
    r.linked = true ↔ InChain acts p h := by
  have hw := run_sound acts
  obtain ⟨a, ha, hget⟩ := Option.bind_eq_some_iff.mp hr
  rw [inChain_iff]
  constructor
  · exact hw.owned p a h r ha hget
  · rintro ⟨u, rfl, hh⟩
    obtain ⟨b, s, hb, hs, hl⟩ := hw.linked u h hh
    obtain rfl := Option.some.inj (hb.symm.trans ha)
    obtain rfl := Option.some.inj (hs.symm.trans hget)
    exact hl

theorem exists_linked_iff : (∃ r, (run acts).recordOf p h = some r ∧ r.linked = true) ↔
    (∃ r, (run acts).recordOf p h = some r) ∧ InChain acts p h := by
  constructor
  · rintro ⟨r, hr, hl⟩
    exact ⟨⟨r, hr⟩, (linked_iff hr).mp hl⟩
  · rintro ⟨⟨r, hr⟩, hin⟩
    exact ⟨r, hr, (linked_iff hr).mpr hin⟩

theorem exists_unlinked_iff : (∃ r, (run acts).recordOf p h = some r ∧ r.linked = false) ↔
    (∃ r, (run acts).recordOf p h = some r) ∧ ¬ InChain acts p h := by
  constructor
  · rintro ⟨r, hr, hl⟩
    exact ⟨⟨r, hr⟩, fun hin => by simp [(linked_iff hr).mpr hin] at hl⟩
  · rintro ⟨⟨r, hr⟩, hout⟩
    exact ⟨r, hr, Bool.eq_false_iff.mpr fun hl => hout ((linked_iff hr).mp hl)⟩

/-! ## Tables that keep to their load -/

theorem run_loaded (acts : List (Action α)) :
    ∀ t table, (run acts).space.table? t = some table → table.Loaded := by
  induction acts using List.reverseRecOn with
  | nil =>
    intro t table ht
    simp [empty] at ht
  | append_singleton acts action ih =>
    intro t table ht
    rw [run_concat] at ht
    have hw := run_sound acts
    have hc := act_change hw action
    obtain ⟨a, hu⟩ := (hw.step hc).exists_uses ht
    -- only an insertion can pass the load, and it raises the capacity first
    cases hw.fate hc hu with
    | kept hu => exact ih t _ hu.table?
    | opened _ _ hnew => exact Table.loaded_create hnew
    | inserted _ hu hcs _ _ hi => exact (ih t _ hu.table?).inserted hcs hi
    | unlinked _ hu hcs hi => exact (ih t _ hu.table?).unlinked hcs hi

/-! ## The outcome -/

variable {m : Allocator} {a : Arena α} {cs : Chains}

/-- What an insertion that succeeds leaves behind. -/
theorem act_insert_head {s : Session α} (hu : s.space.Uses t table a) (hcs : table.Indexes a cs)
    {events : List Event} (ha : (s.act (.insert m t table.arena h)).2 = .ok (.events events)) :
    ∃ r table' a' rest, s.recordOf table.arena h = some r ∧
      (s.act (.insert m t table.arena h)).1.space.table? t = some table' ∧
      (s.act (.insert m t table.arena h)).1.space.arena? table.arena = some a' ∧
      table'.count = table.count + 1 ∧
      (table'.capacity = table.capacity ∨
        (table.policy.next? table.capacity).map UInt64.toNat = some table'.capacity) ∧
      table'.chain? a' (r.key.toNat % table'.capacity) = some (h :: rest) := by
  obtain ⟨table', a', hi, hsame, hact⟩ := act_insert_ok hu hcs ha
  rcases hcs.insert m h with ⟨e, he, -⟩ | ⟨r, table'', a'', cs', events', hr, -, hok, hins⟩
  · rw [hi] at he
    cases he
  · rw [hi] at hok
    cases hok
    obtain ⟨rest, hhead⟩ := Table.insert_head hins.indexes hi hr
    have hu' := Workspace.put_uses hu hsame.arena a'
    have harena := hu'.arenas
    rw [hsame.arena] at harena
    have hcapacity := hins.room.capacity_cases
    rw [hact]
    exact ⟨r, table', a', rest, (recordOf_uses hu h).trans hr, hu'.table?, harena, hins.count hcs,
      hcapacity.imp And.left And.left, (hins.indexes.chain? _).trans hhead⟩

/-- After a run with at most `2 ^ 64 - 2` records in the table, an insertion of a handle of the
right arena fails for a stale handle exactly if it does not resolve, else for a linked record
exactly if this is in a chain of a table in use or was left linked by one that is not, else for want
of memory exactly if the table is outgrown, and then under its name and with the next capacity.
Otherwise it succeeds. Then the record is the first in the chain of its key and the table has one
more. The next capacity cannot be had from `2 ^ 60` on, whoever is asked for it; where all larger
capacities are granted, at the ceiling in particular, an unlinked record is always taken in. -/
theorem insertion_outcome (acts : List (Action α)) (ht : (run acts).space.table? t = some table)
    (hlt : table.count < 2 ^ 64 - 1) (m : Allocator) (h : Handle) :
    let s := run acts
    let p := table.arena
    let answer := (s.act (.insert m t p h)).2
    (answer = .error .staleHandle ↔ s.recordOf p h = none) ∧
    (answer = .error .alreadyLinked ↔ (∃ r, s.recordOf p h = some r) ∧ InChain acts p h) ∧
    (∀ name n, answer = .error (.allocationFailed name n) ↔
      (∃ r, s.recordOf p h = some r) ∧ ¬ InChain acts p h ∧ name = table.name ∧
        table.Outgrown m n) ∧
    ((∃ events, answer = .ok (.events events)) ↔
      (∃ r, s.recordOf p h = some r) ∧ ¬ InChain acts p h ∧ ∀ n, ¬ table.Outgrown m n) ∧
    (∀ events, answer = .ok (.events events) → ∃ r table' a' rest, s.recordOf p h = some r ∧
      (s.act (.insert m t p h)).1.space.table? t = some table' ∧
      (s.act (.insert m t p h)).1.space.arena? p = some a' ∧
      table'.count = table.count + 1 ∧
      (table'.capacity = table.capacity ∨
        (table.policy.next? table.capacity).map UInt64.toNat = some table'.capacity) ∧
      table'.chain? a' (r.key.toNat % table'.capacity) = some (h :: rest)) ∧
    (∀ n, 2 ^ 60 ≤ n → (table.Outgrown m n ↔
      table.count = table.capacity * table.policy.maxLoad.toNat ∧
        IsLeast {k | ∃ c ∈ table.policy.capacities, c.toNat = k ∧ table.capacity < k} n)) ∧
    ((∀ c ∈ table.policy.capacities, table.capacity < c.toNat →
        m.grants (8 * c.toNat) = true) →
      ∀ r, s.recordOf p h = some r → r.linked = false →
        ∃ events, answer = .ok (.events events)) := by
  intro s p answer
  have hw := run_sound acts
  obtain ⟨a, hu⟩ := hw.exists_uses ht
  obtain ⟨-, -, cs, hcs, -⟩ := hw.uses hu
  have hloaded := run_loaded acts t table ht
  have hget : a.get? h = s.recordOf p h := (recordOf_uses hu h).symm
  have herror : ∀ e, answer = .error e ↔ table.Declines m a h e := fun e =>
    act_insert_error_iff hu hcs
  have hcramped : ∀ name n, answer = .error (.allocationFailed name n) ↔
      (∃ r, s.recordOf p h = some r) ∧ ¬ InChain acts p h ∧ name = table.name ∧
        table.Outgrown m n := by
    intro name n
    rw [herror, Table.declines_cramped_iff, hget, exists_unlinked_iff, ← hloaded.outgrown_iff hlt,
      and_assoc]
  have hok : (∃ events, answer = .ok (.events events)) ↔
      (∃ r, s.recordOf p h = some r) ∧ ¬ InChain acts p h ∧ ∀ n, ¬ table.Outgrown m n := by
    have hroom : (∀ c, ¬ Table.Cramped table m c) ↔ ∀ n, ¬ table.Outgrown m n := by
      simp [hloaded.outgrown_iff hlt]
    rw [← and_assoc, ← exists_unlinked_iff, ← hroom, ← hget, ← Table.not_declines_iff]
    exact act_insert_ok_iff hu hcs
  refine ⟨?_, ?_, hcramped, hok, fun events => act_insert_head hu hcs,
    fun n hn => Table.outgrown_of_le hn, ?_⟩
  · rw [herror, Table.declines_stale_iff, hget]
  · rw [herror, Table.declines_linked_iff, hget, exists_linked_iff]
  · intro hgrants r hr hl
    rw [hok, ← and_assoc, ← exists_unlinked_iff]
    exact ⟨⟨r, hr, hl⟩, Table.not_outgrown hgrants⟩

/-- The table "t" is full and cannot grow, and the table "u" was dropped with a record in it. -/
def stuck : List (Action Unit) :=
  [.addArena, .create .ample 0 "t" ⟨[1, 0x1000000000000000], 1⟩, .create .ample 0 "u" ⟨[1], 1⟩,
    .alloc 0 (.detached 4 ()), .alloc 0 (.detached 6 ()), .alloc 0 (.detached 8 ()),
    .insert .ample 0 0 ⟨0, 1⟩, .insert .ample 1 0 ⟨1, 1⟩, .drop 1]

def stuckTable : Table :=
  ⟨0, 0, "t", ⟨[1, 0x1000000000000000], 1⟩, #[some ⟨0, 1⟩], 1, 1, false⟩

theorem stuck_outgrown (m : Allocator) : stuckTable.Outgrown m (2 ^ 60) := by
  refine (Table.outgrown_of_le le_rfl).mpr
    ⟨rfl, ⟨0x1000000000000000, by simp [stuckTable], rfl, by decide⟩, ?_⟩
  rintro k ⟨c, hc, rfl, hlt⟩
  rcases List.mem_pair.mp hc with rfl | rfl
  · exact absurd hlt (by decide)
  · exact le_rfl

/-- Each of the three refusals, the second one for the record that the dropped table has left. -/
theorem stuck_insertions :
    ((run stuck).act (.insert .ample 0 0 ⟨3, 1⟩)).2 = .error .staleHandle ∧
      ((run stuck).act (.insert .ample 0 0 ⟨1, 1⟩)).2 = .error .alreadyLinked ∧
      ((run stuck).act (.insert .ample 0 0 ⟨2, 1⟩)).2 =
        .error (.allocationFailed "t" (2 ^ 60)) := by
  have ht : (run stuck).space.table? 0 = some stuckTable := by rfl
  have hlt : stuckTable.count < 2 ^ 64 - 1 := by decide
  have hlisted : (run stuck.dropLast).space.Lists 1 0 ⟨1, 1⟩ := ⟨[⟨1, 1⟩], by rfl, by simp⟩
  have hleft : Left 1 0 ⟨1, 1⟩ (stuck.dropLast ++ [.drop 1]) := .retired hlisted rfl
  have hin : InChain stuck 0 ⟨1, 1⟩ := Or.inr ⟨1, hleft⟩
  have hfree : (run stuck).recordOf 0 ⟨2, 1⟩ = some (.detached 8 ()) := by rfl
  have hout : ¬ InChain stuck 0 ⟨2, 1⟩ := fun hin => by cases (linked_iff hfree).mpr hin
  obtain ⟨hstale, -⟩ := insertion_outcome stuck ht hlt .ample ⟨3, 1⟩
  obtain ⟨-, hlinked, -⟩ := insertion_outcome stuck ht hlt .ample ⟨1, 1⟩
  obtain ⟨-, -, hcramped, -⟩ := insertion_outcome stuck ht hlt .ample ⟨2, 1⟩
  exact ⟨hstale.mpr rfl, hlinked.mpr ⟨⟨_, rfl⟩, hin⟩,
    (hcramped "t" (2 ^ 60)).mpr ⟨⟨_, hfree⟩, hout, rfl, stuck_outgrown .ample⟩⟩

/-- A table with one record whose next capacity fits an array but not an address space. -/
def hungry : List (Action Unit) :=
  [.addArena, .create .ample 0 "t" ⟨[1, 0x800000000000000], 1⟩, .alloc 0 (.detached 4 ()),
    .alloc 0 (.detached 6 ()), .insert .ample 0 0 ⟨0, 1⟩]

def hungryTable : Table :=
  ⟨0, 0, "t", ⟨[1, 0x800000000000000], 1⟩, #[some ⟨0, 1⟩], 1, 1, false⟩

/-- An allocator may refuse what an array could hold: the ceiling is below `2 ^ 60`, the record is
live and in no chain, and with 47 bits of address space it is not taken in. -/
theorem hungry_refused :
    (run hungry).space.table? 0 = some hungryTable ∧
    hungryTable.policy.ceiling? = some 0x800000000000000 ∧
    (0x800000000000000 : UInt64).toNat < 2 ^ 60 ∧
    (run hungry).recordOf 0 ⟨1, 1⟩ = some (.detached 6 ()) ∧
    ((run hungry).act (.insert (.below 0x800000000000) 0 0 ⟨1, 1⟩)).2 =
      .error (.allocationFailed "t" (2 ^ 59)) :=
  ⟨rfl, rfl, by decide, rfl, rfl⟩

end RecordIndex.Session
