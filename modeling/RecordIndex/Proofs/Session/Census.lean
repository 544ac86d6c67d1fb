import Mathlib
import RecordIndex.Proofs.Census.Table
import RecordIndex.Proofs.Session.Custody

/-! # The census of a run

A census is taken chain by chain, and yet it is one of the whole table: equal keys share a chain,
whatever became of the table before. Keys and chains are counted from the keys of the records and
the capacity alone, elements from the records and the comparator alone.
-/
namespace RecordIndex.Session
variable {α : Type} {t : TableId} {table : Table}
open Census

/-- A table that is in use after a run lists its records, and every census counts these. -/
theorem run_census (acts : List (Action α)) (ht : (run acts).space.table? t = some table) :
    ∃ es : List (Entry α), ((run acts).act (.entries t table.arena)).2 = .ok (.entries es) ∧
      (es.map (·.1)).Nodup ∧ es.length = table.count ∧ ∀ same, ∃ c,
        ((run acts).act (.census t table.arena same)).2 = .ok (.census c) ∧
        Table.Counts same (es.map (·.2)) table.capacity c := by
  have hw := run_sound acts
  obtain ⟨a, hu⟩ := hw.exists_uses ht
  obtain ⟨-, -, cs, hcs, -⟩ := hw.uses hu
  obtain ⟨-, -, hentries, -⟩ := act_read hu hcs
  have hfst := Arena.map_fst_read hcs.threads.live
  refine ⟨a.read cs.flatten, hentries, ?_, ?_, fun same => ?_⟩
  · rw [hfst]
    exact hcs.threads.nodup
  · have hlength := congrArg List.length hfst
    rwa [List.length_map, ← hcs.count] at hlength
  · obtain ⟨c, hc, hcounts⟩ := hcs.census_counts same
    rw [Table.map_snd_read]
    exact ⟨c, by rw [act_census hu, hc]; rfl, hcounts⟩

theorem counts_of_answers {acts : List (Action α)} (ht : (run acts).space.table? t = some table)
    {same : Record α → Record α → Bool} {es : List (Entry α)} {c : Census}
    (hes : ((run acts).act (.entries t table.arena)).2 = .ok (.entries es))
    (hc : ((run acts).act (.census t table.arena same)).2 = .ok (.census c)) :
    Table.Counts same (es.map (·.2)) table.capacity c := by
  obtain ⟨es', hes', -, -, hall⟩ := run_census acts ht
  obtain ⟨c', hc', hcounts⟩ := hall same
  rw [hes] at hes'
  rw [hc] at hc'
  cases hes'
  cases hc'
  exact hcounts

/-! ## Keys and chains -/

/-- The census of a table that is in use after a run, by any comparator, has at each size the number
of keys that so many records have, and of buckets that so many keys fall to by their remainder; the
top size stands for all larger ones. Another table with the same keys has the same counts of keys,
and with the same capacity those of chains too, whatever became of either. -/
theorem census_counts_keys (acts : List (Action α))
    (ht : (run acts).space.table? t = some table) (same : Record α → Record α → Bool) :
    let s := run acts
    let p := table.arena
    ∃ es c, (s.act (.entries t p)).2 = .ok (.entries es) ∧
      (s.act (.census t p same)).2 = .ok (.census c) ∧
      let keys := keysOf (es.map (·.2))
      (∀ i : Fin (topSize + 1), c.keys.get i =
        (keys.toFinset.filter fun key => min (keys.count key) topSize = i).card) ∧
      (∀ i : Fin (topSize + 1), c.chains.get i = ((Finset.range table.capacity).filter fun b =>
        min (keys.countP fun key => key.toNat % table.capacity = b) topSize = i).card) ∧
      c.slots = table.capacity ∧ c.distinctKeys = keys.toFinset.card ∧ c.keys.get 0 = 0 ∧
      ∀ {β : Type} (acts' : List (Action β)) {t' : TableId} {table' : Table},
        (run acts').space.table? t' = some table' → ∀ same' es' c',
        ((run acts').act (.entries t' table'.arena)).2 = .ok (.entries es') →
        ((run acts').act (.census t' table'.arena same')).2 = .ok (.census c') →
        keysOf (es'.map (·.2)) = keys →
          c'.keys = c.keys ∧ (table'.capacity = table.capacity → c'.chains = c.chains) := by
  intro s p
  obtain ⟨es, hes, -, -, hall⟩ := run_census acts ht
  obtain ⟨c, hc, hcounts⟩ := hall same
  refine ⟨es, c, hes, hc, ?_⟩
  intro keys
  have hkeys : ∀ i : Fin (topSize + 1), c.keys.get i =
      (keys.toFinset.filter fun key => min (keys.count key) topSize = i).card := by
    intro i
    rw [hcounts.keys, Histogram.get_bySize]
  refine ⟨hkeys, ?_, hcounts.slots, hcounts.distinctKeys, ?_, ?_⟩
  · intro i
    rw [hcounts.chains, Histogram.get_bySize]
  · refine (hkeys 0).trans (Finset.card_eq_zero.mpr (Finset.filter_eq_empty_iff.mpr ?_))
    intro key hkey hzero
    have hpos := Multiset.count_pos.mpr (Multiset.mem_toFinset.mp hkey)
    have htop : 0 < topSize := by decide
    rw [Fin.val_zero] at hzero
    omega
  · intro β acts' t' table' ht' same' es' c' hes' hc' hsame
    have hcounts' := counts_of_answers ht' hes' hc'
    refine ⟨by rw [hcounts'.keys, hcounts.keys, hsame], fun hcapacity => ?_⟩
    rw [hcounts'.chains, hcounts.chains, hsame, hcapacity]

def repeated : List (Action Nat) :=
  [.addArena, .create .ample 0 "t" ⟨[5], 10⟩, .alloc 0 (.detached 1 7),
    .alloc 0 (.detached 1 7), .alloc 0 (.detached 1 8), .alloc 0 (.detached 6 9),
    .alloc 0 (.detached 2 5),
    .insert .ample 0 0 ⟨0, 1⟩, .insert .ample 0 0 ⟨1, 1⟩, .insert .ample 0 0 ⟨2, 1⟩,
    .insert .ample 0 0 ⟨3, 1⟩, .insert .ample 0 0 ⟨4, 1⟩]

def repeatedEntries : List (Entry Nat) :=
  [(⟨3, 1⟩, ⟨6, 9, some ⟨2, 1⟩, true⟩), (⟨2, 1⟩, ⟨1, 8, some ⟨1, 1⟩, true⟩),
    (⟨1, 1⟩, ⟨1, 7, some ⟨0, 1⟩, true⟩), (⟨0, 1⟩, ⟨1, 7, none, true⟩),
    (⟨4, 1⟩, ⟨2, 5, none, true⟩)]

theorem entries_repeated :
    ((run repeated).act (.entries 0 0)).2 = .ok (.entries repeatedEntries) := by rfl

/-- The keys 1 and 6 share a chain of four records, and the key 1 has three of them. -/
theorem repeated_keys : ∃ c, ((run repeated).act (.census 0 0 fun _ _ => true)).2 =
    .ok (.census c) ∧ c.keys.get 1 = 2 ∧ c.keys.get 3 = 1 ∧ c.chains.get 4 = 1 ∧ c.slots = 5 ∧
      c.distinctKeys = 3 := by
  obtain ⟨table, ht, hp, hcapacity⟩ : ∃ table, (run repeated).space.table? 0 = some table ∧
    table.arena = 0 ∧ table.capacity = 5 := ⟨_, rfl, rfl, rfl⟩
  obtain ⟨es, c, hes, hc, hkeys, hchains, hslots, hdistinct, -⟩ :=
    census_counts_keys repeated ht fun _ _ => true
  rw [hp, entries_repeated] at hes
  rw [hp] at hc
  rw [hcapacity] at hchains hslots
  cases hes
  refine ⟨c, hc, (hkeys 1).trans ?_, (hkeys 3).trans ?_, (hchains 4).trans ?_, hslots,
    hdistinct.trans ?_⟩
  · decide
  · decide
  · decide
  · decide

/-! ## Elements -/

/-- If the comparator is an equivalence on the records of a table that is in use after a run, the
census has at each size the number of classes of so many records, those of equal keys that it takes
for the same. Another table whose records correspond to these one to one, so that classes correspond
to classes, has the same counts, in whatever chains the records are. The comparator that accepts all
yields the counts of the keys. -/
theorem census_counts_elements (acts : List (Action α))
    (ht : (run acts).space.table? t = some table) (same : Record α → Record α → Bool) :
    let s := run acts
    let p := table.arena
    ∃ es c plain, (s.act (.entries t p)).2 = .ok (.entries es) ∧ (es.map (·.1)).Nodup ∧
      (s.act (.census t p same)).2 = .ok (.census c) ∧
      (s.act (.census t p fun _ _ => true)).2 = .ok (.census plain) ∧
      plain.elements = plain.keys ∧
      let rs := es.map (·.2)
      ∀ hsame : Equivalence fun i j : Fin rs.length => same (rs.get i) (rs.get j) = true,
        (∀ i : Fin (topSize + 1), c.elements.get i = (Finset.univ.filter fun q :
          Quotient (elementSetoid hsame) => min (elementSize hsame q) topSize = i).card) ∧
        c.distinctElements = Fintype.card (Quotient (elementSetoid hsame)) ∧
        ∀ {β : Type} (acts' : List (Action β)) {t' : TableId} {table' : Table},
          (run acts').space.table? t' = some table' → ∀ same' es' c',
          ((run acts').act (.entries t' table'.arena)).2 = .ok (.entries es') →
          ((run acts').act (.census t' table'.arena same')).2 = .ok (.census c') →
          let rs' := es'.map (·.2)
          ∀ (hsame' : Equivalence fun i j : Fin rs'.length => same' (rs'.get i) (rs'.get j) = true)
            (e : Fin rs.length ≃ Fin rs'.length),
            (∀ i j, elementSetoid hsame i j ↔ elementSetoid hsame' (e i) (e j)) →
              c'.elements = c.elements := by
  intro s p
  obtain ⟨es, hes, hnodup, -, hall⟩ := run_census acts ht
  obtain ⟨c, hc, hcounts⟩ := hall same
  obtain ⟨plain, hplain, hcountsPlain⟩ := hall fun _ _ => true
  refine ⟨es, c, plain, hes, hnodup, hc, hplain, ?_, ?_⟩
  · rw [hcountsPlain.elements, addAll_elementSizes_true, hcountsPlain.keys]
  intro rs hsame
  obtain ⟨hclasses, hlength⟩ := addAll_elementSizes hsame
  rw [← hcounts.elements] at hclasses
  refine ⟨?_, ?_, ?_⟩
  · intro i
    rw [hclasses, Histogram.get_bySize]
  · rw [hcounts.distinctElements]
    exact hlength
  · intro β acts' t' table' ht' same' es' c' hes' hc' rs' hsame' e he
    have hcounts' := counts_of_answers ht' hes' hc'
    have hclasses' := (addAll_elementSizes hsame').1
    rw [← hcounts'.elements] at hclasses'
    rw [hclasses, hclasses']
    exact bySize_elementSize_congr hsame e he

def samePayload (r s : Record Nat) : Bool := r.payload == s.payload

theorem equivalence_samePayload (rs : List (Record Nat)) :
    Equivalence fun i j : Fin rs.length => samePayload (rs.get i) (rs.get j) = true := by
  simp only [samePayload, beq_iff_eq]
  exact ⟨fun _ => rfl, Eq.symm, Eq.trans⟩

/-- By their payloads the three records of the key 1 are two elements. -/
theorem repeated_elements : ∃ c, ((run repeated).act (.census 0 0 samePayload)).2 =
    .ok (.census c) ∧ c.elements.get 1 = 3 ∧ c.elements.get 2 = 1 ∧ c.distinctElements = 4 := by
  obtain ⟨table, ht, hp⟩ : ∃ table, (run repeated).space.table? 0 = some table ∧
    table.arena = 0 := ⟨_, rfl, rfl⟩
  obtain ⟨es, c, -, hes, -, hc, -, -, hclasses⟩ := census_counts_elements repeated ht samePayload
  obtain ⟨hsizes, hdistinct, -⟩ := hclasses (equivalence_samePayload _)
  rw [hp, entries_repeated] at hes
  rw [hp] at hc
  cases hes
  refine ⟨c, hc, (hsizes 1).trans ?_, (hsizes 2).trans ?_, hdistinct.trans ?_⟩
  · decide
  · decide
  · decide

/-! ## Elements of any comparator -/

/-- Whatever the comparator is, a census counts at least as many elements as keys and at most as
many as records. An element of no records is counted only for a record that the comparator tells
from itself, and if it accepts nothing, every record counts as one. -/
theorem census_bounded (acts : List (Action α)) (ht : (run acts).space.table? t = some table)
    (same : Record α → Record α → Bool) :
    let s := run acts
    let p := table.arena
    ∃ es c, (s.act (.entries t p)).2 = .ok (.entries es) ∧
      (s.act (.census t p same)).2 = .ok (.census c) ∧
      c.distinctKeys ≤ c.distinctElements ∧ c.distinctElements ≤ table.count ∧
      c.elements.get 0 ≤ es.countP (fun e => !same e.2 e.2) ∧
      ((∀ e ∈ es, same e.2 e.2 = true) → c.elements.get 0 = 0) ∧
      ((∀ e ∈ es, ∀ f ∈ es, same e.2 f.2 = false) →
        c.distinctElements = table.count ∧ c.elements.get 0 = table.count) := by
  intro s p
  obtain ⟨es, hes, -, hcount, hall⟩ := run_census acts ht
  obtain ⟨c, hc, hcounts⟩ := hall same
  have hzero : c.elements.get 0 ≤ es.countP fun e => !same e.2 e.2 := by
    rw [hcounts.elements_zero]
    refine (countP_elementSizes_le same _).trans_eq ?_
    rw [List.countP_map]
    rfl
  refine ⟨es, c, hes, hc, ?_, ?_, hzero, ?_, ?_⟩
  · rw [hcounts.distinctKeys, hcounts.distinctElements, elementSizes_eq, List.length_map]
    exact card_keysOf_le same _
  · have hle := (leaders_sublist (sameElement same) [] (es.map (·.2))).length_le
    rw [List.length_map] at hle
    rw [hcounts.distinctElements, elementSizes_eq, List.length_map, ← hcount]
    exact hle
  · intro hrefl
    have hnone : es.countP (fun e => !same e.2 e.2) = 0 := by
      rw [List.countP_eq_zero]
      intro e he
      simp [hrefl e he]
    omega
  · intro hnever
    have hsizes : elementSizes (sameElement same) [] (es.map (·.2)) =
        List.replicate (es.map (·.2)).length 0 := by
      apply elementSizes_of_never
      intro r hr u hu
      obtain ⟨e, he, rfl⟩ := List.mem_map.mp hr
      obtain ⟨f, hf, rfl⟩ := List.mem_map.mp hu
      exact hnever e he f hf
    rw [hcounts.distinctElements, hcounts.elements_zero, hsizes, List.length_map, hcount]
    simp [List.countP_replicate]

/-- Records that are told apart from themselves all count as elements of no records. -/
theorem repeated_bounds : ∃ c, ((run repeated).act (.census 0 0 fun _ _ => false)).2 =
    .ok (.census c) ∧ c.distinctKeys ≤ 5 ∧ c.distinctElements = 5 ∧ c.elements.get 0 = 5 := by
  obtain ⟨table, ht, hp, hcount⟩ : ∃ table, (run repeated).space.table? 0 = some table ∧
    table.arena = 0 ∧ table.count = 5 := ⟨_, rfl, rfl, rfl⟩
  obtain ⟨es, c, -, hc, hkeys, -, -, -, hnever⟩ := census_bounded repeated ht fun _ _ => false
  obtain ⟨hdistinct, hzero⟩ := hnever fun _ _ _ _ => rfl
  rw [hp] at hc
  rw [hcount] at hdistinct hzero
  exact ⟨c, hc, hdistinct ▸ hkeys, hdistinct, hzero⟩

end RecordIndex.Session
