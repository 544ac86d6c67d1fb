import Mathlib
import RecordIndex.Proofs.Table.Insertion

/-! # What a table takes for granted

The operations of a table index its buckets by keys, follow links without asking where they lead,
and count down without asking how far. In a table with chains nothing of this can go wrong, and no
chain is followed over more records than the table counts.
-/
namespace RecordIndex.Table
variable {α : Type} {t : Table} {a : Arena α} {cs : Chains}

structure Safe (t : Table) (a : Arena α) : Prop where
  /-- Every key has a bucket; in particular there is one. -/
  slot : ∀ key, t.buckets.slotOf key < t.buckets.size
  /-- To collect a chain takes no more steps than there are records. -/
  collect : ∀ head ∈ t.buckets, ∃ passed,
    a.followBack? t.count head [] = some passed ∧ a.chain? head = some passed.reverse
  /-- To search a chain takes no more steps either. -/
  search : ∀ head ∈ t.buckets, ∀ p, ∃ found,
    a.locateFrom p t.count none head = .ok found ∧ a.locate p head = .ok found
  /-- What a removal has found is counted, and it is live, as is the record in front of it. -/
  found : ∀ key p before e, t.locate a key p = .ok (some (before, e)) →
    0 < t.count ∧ a.get? e.1 = some e.2 ∧
      ∀ k, before = some k → k ≠ e.1 ∧ ∃ r, a.get? k = some r
  /-- Growth moves as many records as the table counts. When the turn of a chain comes, those before
  it have been relinked, and still it is collected in no more steps than there are records. Each
  record is live and has a bucket when its own turn comes. -/
  relink : ∃ order : List (Entry α), order.length = t.count ∧ ∀ n : Nat, 0 < n →
    let fresh : Buckets := Array.replicate n none
    t.buckets.foldlM relinkChain (fresh, a) = some (Table.relink fresh a order) ∧
    (∀ (i : Nat) head, t.buckets[i]? = some head → ∃ moved passed rest,
      order = moved ++ (passed ++ rest) ∧
      let state := Table.relink fresh a moved
      (t.buckets.toList.take i).foldlM relinkChain (fresh, a) = some state ∧
      state.2.followBack? t.count head [] = some passed ∧
      state.2.chain? head = some passed.reverse) ∧
    ∀ moved e rest, order = moved ++ e :: rest →
      let state := Table.relink fresh a moved
      state.1.slotOf e.2.key < state.1.size ∧ ∃ r, state.2.get? e.1 = some r ∧ r.key = e.2.key
  /-- A record for which room is made is still live then, and there is a bucket for it. -/
  room : ∀ m t' a' events, t.makeRoom m a = (t', a', events, .ok ()) →
    ∀ h r, a.get? h = some r →
      t'.buckets.slotOf r.key < t'.buckets.size ∧ ∃ r', a'.get? h = some r' ∧ r'.key = r.key

theorem Indexes.exists_path (ht : t.Indexes a cs) {head : Option Handle} {i : Nat}
    (hi : t.buckets[i]? = some head) :
    ∃ hs, cs[i]? = some hs ∧ a.Path head hs none ∧ hs.length ≤ t.count := by
  have hlt := (Array.getElem?_eq_some_iff.mp hi).1
  obtain ⟨hs, hcs⟩ := ht.threads.exists_chain hlt
  have hpath := ht.threads.path i hs hcs
  rw [hi, Option.join_some] at hpath
  refine ⟨hs, hcs, hpath, ?_⟩
  rw [ht.count]
  exact (List.sublist_flatten_of_mem (List.mem_of_getElem? hcs)).length_le

theorem Indexes.found (ht : t.Indexes a cs) {key : UInt64} {p : Handle → Record α → Bool}
    {before : Option Handle} {e : Entry α} (hl : t.locate a key p = .ok (some (before, e))) :
    0 < t.count ∧ a.get? e.1 = some e.2 ∧
      ∀ k, before = some k → k ≠ e.1 ∧ ∃ r, a.get? k = some r := by
  have hlt := slotOf_lt ht.nonempty key
  have hget : t.buckets[t.buckets.slotOf key]? = some t.buckets[t.buckets.slotOf key] :=
    getElem?_pos ..
  obtain ⟨hs, -, hpath, hlen⟩ := ht.exists_path hget
  simp only [Table.locate, hget] at hl
  rcases hpath.locate p with ⟨hnone, -⟩ | ⟨xs, h, ys, r, rfl, hr, -, hsome⟩
  · rw [hnone] at hl
    cases hl
  · rw [hsome] at hl
    cases hl
    refine ⟨by simp at hlen; omega, hr, fun k hk => ?_⟩
    have hkx := List.mem_of_getLast? hk
    have hdis := (List.nodup_append.mp hpath.nodup).2.2
    exact ⟨hdis k hkx h (by simp), hpath.live k (by simp [hkx])⟩

/-- The chains in front of a bucket have no record in common with its own, so it is collected after
them as it is at first. -/
theorem Indexes.collect_relinked (ht : t.Indexes a cs) {i : Nat} {head : Option Handle}
    (hi : t.buckets[i]? = some head) (b : Buckets) :
    ∃ hs, cs[i]? = some hs ∧
      let state := Table.relink b a (a.read ((cs.take i).map List.reverse).flatten)
      (t.buckets.toList.take i).foldlM relinkChain (b, a) = some state ∧
      state.2.followBack? t.count head [] = some (a.read hs.reverse) ∧
      state.2.chain? head = some (a.read hs.reverse).reverse := by
  obtain ⟨hs, hcs, hpath, hlen⟩ := ht.exists_path hi
  have hsplit := ht.threads.nodup
  rw [Chains.flatten_eq hcs] at hsplit
  obtain ⟨hbefore, -, hdis⟩ := List.nodup_append.mp hsplit
  have hfold := Table.foldlM_relinkChain (List.forall₂_take i ht.threads.forall₂) hbefore b
    fun k _ => rfl
  refine ⟨hs, hcs, hfold, ?_⟩
  -- none of the records relinked so far is in the chain
  have hother : ∀ k ∈ hs, (Table.relink b a
      (a.read ((cs.take i).map List.reverse).flatten)).2.get? k = a.get? k := by
    intro k hk
    refine get?_relink b a fun hm => ?_
    obtain ⟨e, he, rfl⟩ := List.mem_map.mp hm
    have hmem := (Chains.flatten_map_reverse_perm _).mem_iff.mp (Arena.mem_read.mp he).1
    exact hdis _ hmem _ (List.mem_append_left _ hk) rfl
  have hpath' := hpath.congr fun k hk r hr => ⟨r, (hother k hk).trans hr, rfl⟩
  rw [hpath'.followBack? _ hlen, hpath'.chain?, read_congr hother, Arena.read_reverse,
    List.reverse_reverse]
  exact ⟨rfl, rfl⟩

theorem Indexes.safe (ht : t.Indexes a cs) : t.Safe a where
  slot := slotOf_lt ht.nonempty
  collect head hh := by
    obtain ⟨i, hi⟩ := Array.getElem?_of_mem hh
    obtain ⟨hs, -, hpath, hlen⟩ := ht.exists_path hi
    exact ⟨_, hpath.followBack? _ hlen, by rw [hpath.chain?, List.reverse_reverse]⟩
  search head hh p := by
    obtain ⟨i, hi⟩ := Array.getElem?_of_mem hh
    obtain ⟨hs, -, hpath, hlen⟩ := ht.exists_path hi
    have hsize := Arena.length_le_size hpath.nodup hpath.live
    have he := hpath.locateFrom_eq p hlen hsize none
    rcases hpath.locate p with ⟨hl, -⟩ | ⟨xs, h, ys, r, -, -, -, hl⟩
    · exact ⟨_, he.trans hl, hl⟩
    · exact ⟨_, he.trans hl, hl⟩
  found _ _ _ _ hl := ht.found hl
  relink := by
    have hperm := Chains.flatten_map_reverse_perm cs
    have hlive : ∀ h ∈ (cs.map List.reverse).flatten, ∃ r, a.get? h = some r := fun h hh =>
      ht.threads.live h (hperm.mem_iff.mp hh)
    refine ⟨a.read (cs.map List.reverse).flatten, ?_, fun n hn => ⟨ht.foldlM_relinkChain _, ?_, ?_⟩⟩
    · rw [ht.count, ← hperm.length_eq, ← List.length_map (·.1), Arena.map_fst_read hlive]
    · intro i head hi
      obtain ⟨hs, hcs, hcollect⟩ := ht.collect_relinked hi (Array.replicate n none)
      refine ⟨_, _, a.read ((cs.drop (i + 1)).map List.reverse).flatten, ?_, hcollect⟩
      conv_lhs => rw [Chains.eq_append hcs]
      simp [Arena.read_append]
    · intro moved e rest horder state
      have hsize : state.1.size = n := (size_relink _ a moved).trans Array.size_replicate
      have hmem : e ∈ a.read (cs.map List.reverse).flatten := by simp [horder]
      refine ⟨Nat.mod_lt _ (hsize ▸ hn), ?_⟩
      exact Arena.exists_get?_of_label? (label?_relink _ a moved e.1) (Arena.mem_read.mp hmem).2
  room m t' a' events hm h r hr := by
    rcases ht.makeRoom m with ⟨capacity, -, he⟩ | ⟨u, b, cs', events', he, hg, -⟩
    · rw [he] at hm
      cases (Prod.mk.inj (Prod.mk.inj (Prod.mk.inj hm).2).2).2
    · rw [he] at hm
      cases hm
      exact ⟨slotOf_lt hg.indexes.nonempty r.key, Arena.exists_get?_of_label? (hg.links.label h) hr⟩

end RecordIndex.Table
