import Mathlib
import RecordIndex.Proofs.Census.Elements
import RecordIndex.Proofs.Table.Indexing

/-! # The census of a table

Equal keys share a chain, so the groups that a census finds chain by chain are the stacks of the
table. What it counts of keys and elements does not depend on the buckets.
-/
namespace RecordIndex.Table
open Census
variable {α : Type} {t : Table} {a : Arena α} {cs : Chains}

def recordsOf (a : Arena α) (hs : List Handle) : List (Record α) := hs.filterMap a.get?

theorem map_snd_read (a : Arena α) (hs : List Handle) :
    (a.read hs).map (·.2) = recordsOf a hs := by
  rw [Arena.read, recordsOf, List.map_filterMap]
  congr 1
  funext h
  cases a.get? h <;> rfl

theorem length_recordsOf {hs : List Handle} (hl : ∀ h ∈ hs, ∃ r, a.get? h = some r) :
    (recordsOf a hs).length = hs.length := by
  rw [← map_snd_read, List.length_map, ← List.length_map (f := Prod.fst), Arena.map_fst_read hl]

/-- The records of one key are those of its stack. -/
theorem filter_recordsOf (a : Arena α) (hs : List Handle) (key : UInt64) :
    (recordsOf a hs).filter (·.key == key) = recordsOf a (hs.filter (a.hasKey key)) := by
  induction hs with
  | nil => rfl
  | cons h hs ih =>
    cases hr : a.get? h with
    | none =>
      have hkey : a.hasKey key h = false := by simp [Arena.hasKey, Arena.label?, hr]
      simpa [recordsOf, hr, hkey] using ih
    | some r =>
      have hkey := Arena.hasKey_of_get? hr key
      by_cases hk : r.key = key
      · simpa [recordsOf, hr, hkey, hk] using ih
      · simpa [recordsOf, hr, hkey, hk] using ih

theorem Indexes.slotOf_of_mem (ht : t.Indexes a cs) {i : Nat} {hs : List Handle}
    (hi : cs[i]? = some hs) {r : Record α} (hr : r ∈ recordsOf a hs) :
    t.buckets.slotOf r.key = i := by
  obtain ⟨h, hh, hget⟩ := List.mem_filterMap.mp hr
  obtain ⟨r', hr', -, hslot⟩ := ht.placed i hs hi h hh
  rw [hget] at hr'
  cases hr'
  exact hslot

theorem Indexes.apart (ht : t.Indexes a cs) :
    (cs.map (recordsOf a)).Pairwise fun c c' => ∀ r ∈ c, ∀ s ∈ c', r.key ≠ s.key := by
  rw [List.pairwise_map, List.pairwise_iff_getElem]
  intro i j hi hj hij r hr s hs he
  have hsame := ht.slotOf_of_mem (List.getElem?_eq_getElem hi) hr
  rw [he, ht.slotOf_of_mem (List.getElem?_eq_getElem hj) hs] at hsame
  omega

/-- A census counts the chains by their lengths, the keys by their stacks, and the elements within
each stack. -/
theorem Indexes.census_stacks (ht : t.Indexes a cs) :
    ∃ ks : List UInt64, ks.Nodup ∧ (∀ key, key ∈ ks ↔ stack a cs key ≠ []) ∧ ∀ same,
      t.census a same = .ok ⟨Histogram.empty.addAll (cs.map List.length),
        Histogram.empty.addAll (ks.map fun key => (stack a cs key).length),
        Histogram.empty.addAll (ks.flatMap fun key =>
          Census.elementSizes same [] (recordsOf a (stack a cs key)))⟩ := by
  have hflat : (cs.map (recordsOf a)).flatten = recordsOf a cs.flatten :=
    List.filterMap_flatten.symm
  obtain ⟨ks, hn, hmem, hks⟩ := Census.flatMap_groups ht.apart
  rw [hflat] at hmem hks
  have hgroup : ∀ key, (recordsOf a cs.flatten).filter (·.key == key) =
      recordsOf a (stack a cs key) := fun key => filter_recordsOf a cs.flatten key
  have hlive : ∀ key, ∀ h ∈ stack a cs key, ∃ r, a.get? h = some r := fun key h hh =>
    ht.threads.live h (List.mem_filter.mp hh).1
  refine ⟨ks, hn, fun key => ?_, fun same => ?_⟩
  · have hlength := length_recordsOf (hlive key)
    rw [hmem, ← List.length_pos_iff, ← hlength, List.length_pos_iff, ← hgroup, ne_eq,
      List.filter_eq_nil_iff]
    simp
  · have hlengths : ∀ hs ∈ cs, (recordsOf a hs).length = hs.length := fun hs hm =>
      length_recordsOf fun h hh => ht.threads.live h (List.mem_flatten_of_mem hm hh)
    have hfold : (cs.map (recordsOf a)).foldl (Census.addChain same) Census.empty =
        cs.foldl (fun c hs => c.addChain same ((a.read hs).map (·.2))) Census.empty := by
      rw [List.foldl_map]
      simp only [map_snd_read]
    rw [ht.census, ← hfold, Census.foldl_addChain, hks, List.map_map, List.map_map,
      List.flatMap_map]
    simp only [Function.comp_def, hgroup, List.map_congr_left hlengths,
      fun key => length_recordsOf (hlive key)]
    rfl

/-! ## The census by keys and classes -/

theorem Indexes.length_chain (ht : t.Indexes a cs) {i : Nat} {hs : List Handle}
    (hi : cs[i]? = some hs) :
    hs.length = (recordsOf a cs.flatten).countP fun r => t.buckets.slotOf r.key = i := by
  have hothers : ∀ ks : Chains, (∀ hs ∈ ks, ∃ j, cs[j]? = some hs ∧ j ≠ i) →
      (recordsOf a ks.flatten).countP (fun r => t.buckets.slotOf r.key = i) = 0 := by
    intro ks hks
    rw [List.countP_eq_zero]
    intro r hr
    obtain ⟨h, hh, hget⟩ := List.mem_filterMap.mp hr
    obtain ⟨hs, hm, hh⟩ := List.mem_flatten.mp hh
    obtain ⟨j, hj, hne⟩ := hks hs hm
    have hslot := ht.slotOf_of_mem hj (List.mem_filterMap.mpr ⟨h, hh, hget⟩)
    simpa [hslot] using hne
  have hself : (recordsOf a hs).countP (fun r => t.buckets.slotOf r.key = i) = hs.length := by
    rw [← length_recordsOf fun h hh => ht.threads.live h (Chains.mem_flatten_of_getElem? hi hh),
      List.countP_eq_length]
    intro r hr
    simpa using ht.slotOf_of_mem hi hr
  have hsplit : recordsOf a cs.flatten = recordsOf a (cs.take i).flatten ++
      (recordsOf a hs ++ recordsOf a (cs.drop (i + 1)).flatten) := by
    conv_lhs => rw [Chains.flatten_eq hi]
    simp only [recordsOf, List.filterMap_append]
  rw [hsplit, List.countP_append, List.countP_append, hself,
    hothers _ fun _ => Chains.exists_of_mem_take, hothers _ fun _ => Chains.exists_of_mem_drop]
  omega

theorem Indexes.chain_lengths (ht : t.Indexes a cs) :
    cs.map List.length = (List.range t.capacity).map fun b =>
      (keysOf (recordsOf a cs.flatten)).countP fun key => key.toNat % t.capacity = b := by
  apply List.ext_getElem
  · rw [List.length_map, List.length_map, List.length_range]
    exact ht.threads.length
  · intro i hi _
    rw [List.length_map] at hi
    simp only [List.getElem_map, List.getElem_range, countP_keysOf]
    exact ht.length_chain (List.getElem?_eq_getElem hi)

theorem Indexes.count_keysOf (ht : t.Indexes a cs) (key : UInt64) :
    (keysOf (recordsOf a cs.flatten)).count key = (stack a cs key).length := by
  have hlive : ∀ h ∈ stack a cs key, ∃ r, a.get? h = some r := fun h hh =>
    ht.threads.live h (List.mem_filter.mp hh).1
  rw [← length_recordsOf hlive, stack, ← filter_recordsOf, ← List.countP_eq_length_filter,
    Multiset.count, countP_keysOf]
  apply List.countP_congr
  intro r _
  rw [decide_eq_true_eq, beq_iff_eq, eq_comm]

/-- The census counts the chains by the number of keys that fall to them, the keys by their
multiplicities, and the elements by the sizes that a scan of all the records finds. -/
structure Counts (same : Record α → Record α → Bool) (rs : List (Record α)) (capacity : Nat)
    (c : Census) : Prop where
  chains : c.chains = .bySize (Finset.range capacity) fun b =>
    (keysOf rs).countP fun key => key.toNat % capacity = b
  keys : c.keys = .bySize (keysOf rs).toFinset (keysOf rs).count
  slots : c.slots = capacity
  distinctKeys : c.distinctKeys = (keysOf rs).toFinset.card
  elements : c.elements = Histogram.empty.addAll (elementSizes (sameElement same) [] rs)

theorem Indexes.census_counts (ht : t.Indexes a cs) (same : Record α → Record α → Bool) :
    ∃ c, t.census a same = .ok c ∧ Counts same (recordsOf a cs.flatten) t.capacity c := by
  obtain ⟨ks, hn, hmem, hcensus⟩ := ht.census_stacks
  have hkeys : ks.toFinset = (keysOf (recordsOf a cs.flatten)).toFinset := by
    ext key
    rw [List.mem_toFinset, hmem, Multiset.mem_toFinset, ← Multiset.count_pos, ht.count_keysOf,
      List.length_pos_iff]
  refine ⟨_, hcensus same, ?_, ?_, ?_, ?_, ?_⟩
  · rw [ht.chain_lengths, Histogram.addAll_map List.nodup_range, List.toFinset_range]
  · rw [← hkeys, ← Histogram.addAll_map hn]
    simp only [ht.count_keysOf]
  · rw [Census.slots, Histogram.total_addAll_empty, List.length_map]
    exact ht.threads.length
  · rw [Census.distinctKeys, Histogram.total_addAll_empty, List.length_map, ← hkeys,
      List.toFinset_card_of_nodup hn]
  · simp only [stack, ← filter_recordsOf]
    apply Histogram.addAll_perm
    apply flatMap_elementSizes_perm same hn
    intro r hr
    rw [← List.mem_toFinset, hkeys, Multiset.mem_toFinset]
    exact List.mem_map_of_mem hr

theorem Counts.distinctElements {same : Record α → Record α → Bool} {rs : List (Record α)}
    {capacity : Nat} {c : Census} (hc : Counts same rs capacity c) :
    c.distinctElements = (elementSizes (sameElement same) [] rs).length := by
  rw [Census.distinctElements, hc.elements, Histogram.total_addAll_empty]

theorem Counts.elements_zero {same : Record α → Record α → Bool} {rs : List (Record α)}
    {capacity : Nat} {c : Census} (hc : Counts same rs capacity c) :
    c.elements.get 0 = (elementSizes (sameElement same) [] rs).countP (· = 0) := by
  have hzero : ∀ n, min n topSize = 0 ↔ n = 0 := by
    intro n
    rw [topSize]
    omega
  rw [Vector.get_eq_getElem, hc.elements, Histogram.getElem_addAll, Histogram.getElem_empty,
    Nat.zero_add]
  simp only [Fin.val_zero, hzero]

end RecordIndex.Table
