import Mathlib
import RecordIndex.Proofs.Arena.Likeness
import RecordIndex.Proofs.Session.Custody

/-! # Growth as a redistribution

A growth that gets its memory deals every record out to its new chain. The old chains are gone
through from the last to the first, and what falls to a new chain is appended to it in its old
order. Nothing but the successors of these records changes.
-/
namespace RecordIndex
variable {α : Type}

namespace Table
variable {t t' : Table} {m : Allocator} {a a' : Arena α} {cs : Chains}

def chain? (t : Table) (a : Arena α) (i : Nat) : Option (List Handle) :=
  (t.buckets[i]?).bind fun head => (a.chain? head).map fun chain => chain.map (·.1)

theorem Indexes.chain? (ht : t.Indexes a cs) (i : Nat) : t.chain? a i = cs[i]? := by
  cases hi : cs[i]? with
  | none =>
    have hsize : t.buckets.size ≤ i := ht.threads.length ▸ List.getElem?_eq_none_iff.mp hi
    rw [Table.chain?, Array.getElem?_eq_none hsize, Option.bind_none]
  | some hs =>
    have hlt := ht.threads.lt_size hi
    have hpath := ht.threads.path i hs hi
    rw [Array.getElem?_eq_getElem hlt, Option.join_some] at hpath
    rw [Table.chain?, Array.getElem?_eq_getElem hlt, Option.bind_some, hpath.chain?,
      Option.map_some, Arena.map_fst_read hpath.live]

/-- The chains `cs` in the arena `a` have been dealt out to the chains `cs'` of `n` buckets, which
left the arena as `a'`. -/
structure Redistributed (a : Arena α) (cs : Chains) (n : Nat) (a' : Arena α) (cs' : Chains) :
    Prop where
  length : cs'.length = n
  /-- A new chain is made of its parts of the old chains, from the last chain to the first. -/
  chain : ∀ j < n,
    cs'[j]? = some (cs.reverse.map fun hs => hs.filter fun h => a.slotIn n h == j).flatten
  perm : cs'.flatten.Perm cs.flatten
  /-- Records of an old chain that meet in a new one are in their old order. -/
  order : ∀ hs ∈ cs, ∀ ks ∈ cs', (hs.filter fun h => h ∈ ks).Sublist ks
  /-- Every record has its key, its payload and its mark. -/
  bare : ∀ h, a'.bare? h = a.bare? h
  other : ∀ h, h ∉ cs.flatten → a'.get? h = a.get? h

/-- Dealing out takes a part of every old chain to a new chain, and it is all of the old chain that
the new one has. -/
theorem filter_sublist_regroup {n : Nat} {slot : Handle → Nat} {hs ks : List Handle} (hhs : hs ∈ cs)
    (hks : ks ∈ cs.regroup n slot) : (hs.filter fun h => h ∈ ks).Sublist ks := by
  obtain ⟨j, hj⟩ := List.getElem?_of_mem hks
  have hlt : j < n := by
    by_contra hge
    have hnone : (cs.regroup n slot)[j]? = none := by
      rw [Chains.regroup, Chains.getElem?_deal, List.getElem?_eq_none (by simpa using hge)]
      rfl
    rw [hnone] at hj
    cases hj
  rw [Chains.getElem?_regroup cs slot hlt, Option.some_inj] at hj
  subst hj
  have hpart : (hs.filter fun h => h ∈ cs.reverse.flatten.filter (slot · == j)) =
      hs.filter (slot · == j) := by
    apply List.filter_congr
    intro h hh
    have hmem : h ∈ cs.reverse.flatten :=
      List.mem_flatten.mpr ⟨hs, List.mem_reverse.mpr hhs, hh⟩
    simp only [List.mem_filter, hmem, true_and, Bool.decide_eq_true]
  rw [hpart]
  exact (List.sublist_flatten_of_mem (List.mem_reverse.mpr hhs)).filter _

/-- A growth for which there is memory succeeds, and it redistributes the records. -/
theorem Indexes.redistributed (ht : t.Indexes a cs) {capacity : UInt64}
    (hnext : t.policy.next? t.capacity = some capacity) :
    ∃ t' a' cs', (∀ m : Allocator, m.grants (8 * capacity.toNat) = true → t.grow m a =
        (t', a', [.resized t.name t.capacity capacity.toNat t.count], .ok ())) ∧
      SameTable t t' ∧ t'.count = t.count ∧ t'.Indexes a' cs' ∧
      Redistributed a cs capacity.toNat a' cs' := by
  have hlt : t.capacity < capacity.toNat := by simpa using List.find?_some hnext
  have hpos : 0 < capacity.toNat := by omega
  have hgrown := ht.relink hpos (.resized t.name t.capacity capacity.toNat t.count) rfl
  have hsize : (Table.relink (Array.replicate capacity.toNat none) a
      (a.read (cs.map List.reverse).flatten)).1.size = capacity.toNat :=
    (size_relink _ a _).trans Array.size_replicate
  refine ⟨_, _, _, fun m hg => ?_, hgrown.same, rfl, hgrown.indexes, ?_⟩
  · simp only [Table.grow, hnext, newBuckets_of_granted hg, ht.foldlM_relinkChain]
  · exact
      { length := hgrown.indexes.threads.length.trans hsize
        chain := fun j hj => by
          rw [Chains.getElem?_regroup cs _ hj, List.filter_flatten]
        perm := hgrown.perm
        order := fun hs hhs ks hks => filter_sublist_regroup hhs hks
        bare := fun h => hgrown.links.bare? fun hh => ht.linked hh
        other := hgrown.links.other }

theorem grants_of_grow {capacity : UInt64} (hnext : t.policy.next? t.capacity = some capacity)
    {events : List Event} (hgrow : t.grow m a = (t', a', events, .ok ())) :
    m.grants (8 * capacity.toNat) = true := by
  cases hg : m.grants (8 * capacity.toNat) with
  | true => rfl
  | false => simp [grow, hnext, newBuckets_of_refused hg] at hgrow

/-- An insertion that reports a growth grows the table and then pushes the record. -/
theorem insert_of_resizes {h : Handle} {events : List Event}
    (hi : t.insert m a h = (t', a', events, .ok ())) (hr : 0 < resizes events) :
    ∃ r grown b, a.get? h = some r ∧ r.linked = false ∧ t.grow m a = (grown, b, events, .ok ()) ∧
      grown.push b h r.key = (t', a') := by
  obtain ⟨r, grown, b, hget, hl, hroom, hpush⟩ := insert_eq_ok hi
  refine ⟨r, grown, b, hget, hl, ?_, hpush⟩
  unfold makeRoom at hroom
  split at hroom
  · exact hroom
  · simp only [Prod.mk.injEq, and_true] at hroom
    obtain ⟨-, -, rfl⟩ := hroom
    simp [resizes] at hr

end Table

namespace Session
variable {acts : List (Action α)} {t : TableId} {table : Table}

/-- When a table that is in use after a run has a next capacity, growth is a stable redistribution
of its chains for every allocator that grants the memory. An insertion that reports a growth has
done exactly this and then put the new record at the head of its chain. -/
theorem growth_redistributes (ht : (run acts).space.table? t = some table) {capacity : UInt64}
    (hnext : table.policy.next? table.capacity = some capacity) :
    let s := run acts
    let p := table.arena
    ∃ a cs grown b cs',
      s.space.arena? p = some a ∧
      cs.length = table.capacity ∧ (∀ i, table.chain? a i = cs[i]?) ∧
      (∀ m : Allocator, m.grants (8 * capacity.toNat) = true → table.grow m a =
        (grown, b, [.resized table.name table.capacity capacity.toNat table.count], .ok ())) ∧
      grown.capacity = capacity.toNat ∧ (∀ j, grown.chain? b j = cs'[j]?) ∧
      grown.count = table.count ∧
      Table.Redistributed a cs capacity.toNat b cs' ∧
      ∀ m h events, (s.act (.insert m t p h)).2 = .ok (.events events) →
        0 < Table.resizes events →
        ∃ r, s.recordOf p h = some r ∧ r.linked = false ∧
          events = [.resized table.name table.capacity capacity.toNat table.count] ∧
          (s.act (.insert m t p h)).1.space =
            s.space.put t (grown.push b h r.key).1 (grown.push b h r.key).2 := by
  intro s p
  have hw := run_sound acts
  obtain ⟨a, hu⟩ := hw.exists_uses ht
  obtain ⟨-, -, cs, hcs, -⟩ := hw.uses hu
  obtain ⟨grown, b, cs', hgrow, -, hcount, hcs', hdealt⟩ := hcs.redistributed hnext
  refine ⟨a, cs, grown, b, cs', hu.arenas, hcs.threads.length, hcs.chain?, hgrow,
    hcs'.threads.length.symm.trans hdealt.length, hcs'.chain?, hcount, hdealt, ?_⟩
  intro m h events hanswer hr
  obtain ⟨table', a', hi, -, hact⟩ := act_insert_ok hu hcs hanswer
  obtain ⟨r, grown', b', hget, hl, hgrow', hpush⟩ := Table.insert_of_resizes hi hr
  rw [hgrow m (Table.grants_of_grow hnext hgrow')] at hgrow'
  cases hgrow'
  refine ⟨r, (recordOf_uses hu h).trans hget, hl, rfl, ?_⟩
  rw [hact, hpush]

def crowded : List (Action Unit) :=
  [.addArena, .create .ample 0 "t" ⟨[2, 4], 2⟩, .alloc 0 (.detached 4 ()),
    .alloc 0 (.detached 6 ()), .alloc 0 (.detached 8 ()), .alloc 0 (.detached 5 ()),
    .alloc 0 (.detached 3 ()), .insert .ample 0 0 ⟨0, 1⟩, .insert .ample 0 0 ⟨1, 1⟩,
    .insert .ample 0 0 ⟨2, 1⟩, .insert .ample 0 0 ⟨3, 1⟩]

def crowdedTable : Table :=
  ⟨0, 0, "t", ⟨[2, 4], 2⟩, #[some ⟨2, 1⟩, some ⟨3, 1⟩], 4, 4, false⟩

/-- Of the three records that share a chain two meet again, and they are in their old order. -/
theorem crowded_redistributed : ∃ a grown b, (run crowded).space.arena? 0 = some a ∧
    crowdedTable.grow .ample a = (grown, b, [.resized "t" 2 4 4], .ok ()) ∧
    crowdedTable.chain? a 0 = some [⟨2, 1⟩, ⟨1, 1⟩, ⟨0, 1⟩] ∧
    grown.chain? b 0 = some [⟨2, 1⟩, ⟨0, 1⟩] ∧ grown.chain? b 2 = some [⟨1, 1⟩] := by
  have ht : (run crowded).space.table? 0 = some crowdedTable := by rfl
  have hnext : crowdedTable.policy.next? crowdedTable.capacity = some 4 := by rfl
  obtain ⟨a, -, grown, b, -, ha, -, -, hgrows, -⟩ := growth_redistributes ht hnext
  have hgrow := hgrows .ample (by decide)
  have harena : crowdedTable.arena = 0 := rfl
  rw [harena] at ha
  have hold : ((run crowded).space.arena? 0).bind (crowdedTable.chain? · 0) =
      some [⟨2, 1⟩, ⟨1, 1⟩, ⟨0, 1⟩] := by decide +kernel
  have hnew : ((run crowded).space.arena? 0).map (fun a =>
      let (grown, b, _) := crowdedTable.grow .ample a
      (grown.chain? b 0, grown.chain? b 2)) =
        some (some [⟨2, 1⟩, ⟨0, 1⟩], some [⟨1, 1⟩]) := by decide +kernel
  rw [ha, Option.bind_some] at hold
  rw [ha, Option.map_some, hgrow, Option.some_inj] at hnew
  obtain ⟨hnew₀, hnew₂⟩ := Prod.mk.inj hnew
  exact ⟨a, grown, b, ha, hgrow, hold, hnew₀, hnew₂⟩

end Session
end RecordIndex
