import Mathlib
import RecordIndex.Proofs.Table.Growth
import RecordIndex.Table.Removal

/-! # Removal from a table

Every removal ends in the same step: one record leaves its chain and its links are cleared. A search
that finds nothing changes nothing.
-/
namespace RecordIndex.Table
variable {α : Type} {t : Table} {a : Arena α} {cs : Chains}

structure Unlinked (t : Table) (a : Arena α) (cs : Chains) (h : Handle) (t' : Table)
    (a' : Arena α) : Prop where
  same : SameTable t t'
  member : h ∈ cs.flatten
  indexes : t'.Indexes a' (cs.without h)
  detached : ∃ r, a.get? h = some r ∧ a'.get? h = some r.detach
  label : ∀ k, a'.label? k = a.label? k
  other : ∀ k, k ∉ cs.flatten → a'.get? k = a.get? k
  sound : a.Sound → a'.Sound
  epoch : t'.epoch = t.epoch + 1
  ceiling : t'.ceilingReported = t.ceilingReported

/-- The record leaves the stack of its key, and no other stack changes. -/
theorem Unlinked.stack {h : Handle} {t' : Table} {a' : Arena α} (hu : Unlinked t a cs h t' a')
    (hn : cs.flatten.Nodup) (key : UInt64) :
    stack a' (cs.without h) key = (stack a cs key).erase h := by
  have hkeys : a'.hasKey key = a.hasKey key := funext fun k => Arena.hasKey_congr (hu.label k) key
  rw [Table.stack, Table.stack, hkeys, Chains.flatten_without hn, hn.erase_eq_filter,
    (hn.filter _).erase_eq_filter, List.filter_filter, List.filter_filter]
  exact List.filter_congr fun k _ => Bool.and_comm ..

theorem Unlinked.capacity {h : Handle} {t' : Table} {a' : Arena α}
    (hu : Unlinked t a cs h t' a') (ht : t.Indexes a cs) : t'.capacity = t.capacity := by
  rw [Table.capacity, Table.capacity, ← hu.indexes.threads.length, ← ht.threads.length,
    Chains.length_without]

theorem Unlinked.count {h : Handle} {t' : Table} {a' : Arena α} (hu : Unlinked t a cs h t' a')
    (ht : t.Indexes a cs) : t'.count + 1 = t.count := by
  rw [hu.indexes.count, ht.count, Chains.flatten_without ht.threads.nodup]
  exact List.length_erase_add_one hu.member

theorem Indexes.cut (ht : t.Indexes a cs) {h : Handle} {r : Record α} {xs ys : List Handle}
    (hi : cs[t.buckets.slotOf r.key]? = some (xs ++ h :: ys)) (hr : a.get? h = some r)
    (t' : Table) (hb : t'.buckets =
      if xs.getLast? = none then t.buckets.setIfInBounds (t.buckets.slotOf r.key) r.next
      else t.buckets)
    (hc : t'.count + 1 = t.count) : t'.Indexes (a.cut xs.getLast? h r.next) (cs.without h) := by
  have hn := ht.threads.nodup
  have hmem : h ∈ cs.flatten := Chains.mem_flatten_of_getElem? hi (by simp)
  have hsize : t'.buckets.size = t.buckets.size := by
    rw [hb]
    split <;> simp
  refine ⟨hb ▸ ht.threads.without hi hr, ?_, ?_, ?_⟩
  · rw [capacity, hsize]
    exact ht.nonempty
  · intro j ks hj k hk
    rw [Chains.getElem?_without] at hj
    obtain ⟨hs, hjs, rfl⟩ := Option.map_eq_some_iff.mp hj
    have hks := Chains.nodup_of_getElem? hn hjs
    obtain ⟨hne, hm⟩ := hks.mem_erase_iff.mp hk
    obtain ⟨s, hs', hl, hslot⟩ := ht.placed j hs hjs k hm
    have hslot' : ∀ key, t'.buckets.slotOf key = t.buckets.slotOf key := by
      intro key
      rw [Buckets.slotOf, hsize, Buckets.slotOf]
    by_cases hbefore : xs.getLast? = some k
    · rw [hbefore]
      exact ⟨_, Arena.get?_cut_before hs' _ hne, hl, (hslot' s.key).trans hslot⟩
    · exact ⟨s, by rw [Arena.get?_cut a _ _ hne hbefore, hs'], hl, (hslot' s.key).trans hslot⟩
  · have hlen := List.length_erase_of_mem hmem
    rw [Chains.flatten_without hn, hlen, ← ht.count]
    omega

/-- A record found in its chain is taken out of it; the count never stands in the way. -/
theorem Indexes.detach (ht : t.Indexes a cs) {h : Handle} {r : Record α} {xs ys : List Handle}
    (hi : cs[t.buckets.slotOf r.key]? = some (xs ++ h :: ys)) (hr : a.get? h = some r) :
    ∃ t' a', t.detach a xs.getLast? (h, r) = (t', a', .ok h) ∧ Unlinked t a cs h t' a' := by
  have hmem : h ∈ cs.flatten := Chains.mem_flatten_of_getElem? hi (by simp)
  have hchain := Chains.nodup_of_getElem? ht.threads.nodup hi
  rw [List.nodup_append] at hchain
  have hbefore : ∀ p, xs.getLast? = some p → p ≠ h ∧ p ∈ cs.flatten := by
    intro p hp
    have hpx := List.mem_of_getLast? hp
    exact ⟨hchain.2.2 p hpx h (by simp), Chains.mem_flatten_of_getElem? hi (by simp [hpx])⟩
  have hself : (a.cut xs.getLast? h r.next).get? h = some r.detach :=
    Arena.get?_cut_self hr _ fun he => (hbefore h he).1 rfl
  have hother : ∀ k, k ∉ cs.flatten → (a.cut xs.getLast? h r.next).get? k = a.get? k := by
    intro k hk
    refine Arena.get?_cut a _ _ (fun he => hk (he ▸ hmem)) fun he => hk (hbefore k he).2
  have hsound : a.Sound → (a.cut xs.getLast? h r.next).Sound := fun ha =>
    ha.cut _ fun p hp => ⟨(hbefore p hp).1, ht.linked (hbefore p hp).2⟩
  cases hc : t.count with
  | zero =>
    rw [ht.count, List.length_eq_zero_iff] at hc
    simp [hc] at hmem
  | succ count =>
    have hcut := ht.cut hi hr
    unfold Table.detach
    simp only [hc]
    cases hx : xs.getLast? with
    | none =>
      rw [hx] at hcut hself hother hsound
      refine ⟨_, _, rfl, ⟨rfl, rfl, rfl, rfl⟩, hmem, hcut _ rfl hc.symm, ⟨r, hr, hself⟩, ?_,
        hother, hsound, rfl, rfl⟩
      exact fun k => Arena.label?_cut a none h r.next k
    | some p =>
      rw [hx] at hcut hself hother hsound
      refine ⟨_, _, rfl, ⟨rfl, rfl, rfl, rfl⟩, hmem, hcut _ rfl hc.symm, ⟨r, hr, hself⟩, ?_,
        hother, hsound, rfl, rfl⟩
      exact fun k => Arena.label?_cut a (some p) h r.next k

theorem Indexes.removeFirst (ht : t.Indexes a cs) {key : UInt64} {p : Handle → Record α → Bool}
    (hp : KeyedBy a key p) :
    (t.removeFirst a key p = (t, a, .ok none) ∧ (stack a cs key).find? (a.meets p) = none) ∨
      ∃ h t' a', t.removeFirst a key p = (t', a', .ok (some h)) ∧
        (stack a cs key).find? (a.meets p) = some h ∧ Unlinked t a cs h t' a' := by
  unfold Table.removeFirst
  rcases ht.locate hp with ⟨hl, hf⟩ | ⟨xs, h, ys, r, hi, hr, -, hf, hl⟩
  · exact Or.inl ⟨by rw [hl], hf⟩
  · obtain ⟨t', a', hd, hu⟩ := ht.detach hi hr
    exact Or.inr ⟨h, t', a', by simp only [hl, hd]; rfl, hf, hu⟩

theorem Indexes.remove (ht : t.Indexes a cs) (key : UInt64) :
    (t.remove a key = (t, a, .ok none) ∧ (stack a cs key).head? = none) ∨
      ∃ h t' a', t.remove a key = (t', a', .ok (some h)) ∧
        (stack a cs key).head? = some h ∧ Unlinked t a cs h t' a' := by
  have hf := ht.removeFirst (keyedBy_accepts a key fun _ => true)
  rw [ht.find?_accepts_true] at hf
  exact hf

theorem Indexes.removeSame (ht : t.Indexes a cs) (template : Record α)
    (same : Record α → Record α → Bool) :
    (t.removeSame a template same = (t, a, .ok none) ∧
      (stack a cs template.key).find? (a.meets fun _ => same template) = none) ∨
      ∃ h t' a', t.removeSame a template same = (t', a', .ok (some h)) ∧
        (stack a cs template.key).find? (a.meets fun _ => same template) = some h ∧
        Unlinked t a cs h t' a' := by
  have hf := ht.removeFirst (keyedBy_accepts a template.key (same template))
  rw [find?_accepts] at hf
  exact hf

/-- A record of the table is found in its own chain and taken out; no other record is found. -/
theorem Indexes.removeHandle (ht : t.Indexes a cs) {h : Handle} {r : Record α}
    (hr : a.get? h = some r) :
    (t.removeHandle a h r.key = (t, a, .error .corrupted) ∧ h ∉ cs.flatten) ∨
      ∃ t' a', t.removeHandle a h r.key = (t', a', .ok h) ∧ Unlinked t a cs h t' a' := by
  unfold Table.removeHandle
  rcases ht.locate (keyedBy_self hr) with ⟨hl, hf⟩ | ⟨xs, k, ys, s, hi, hs, -, hf, hl⟩
  · refine Or.inl ⟨by rw [hl], fun hh => ?_⟩
    have hmem : h ∈ stack a cs r.key :=
      List.mem_filter.mpr ⟨hh, by rw [Arena.hasKey_of_get? hr, beq_self_eq_true]⟩
    have hnone := List.find?_eq_none.mp hf h hmem
    simp [hr] at hnone
  · have hk := List.find?_some hf
    rw [Arena.meets_of_get? hs, beq_iff_eq] at hk
    subst hk
    obtain ⟨t', a', hd, hu⟩ := ht.detach hi hs
    exact Or.inr ⟨t', a', by simp only [hl, hd], hu⟩

end RecordIndex.Table
