import Mathlib
import RecordIndex.Proofs.Session.Redistribution
import RecordIndex.Proofs.Walk.Listing

/-! # Listings of a run

The listing of a table counts down from the count of the table, while it goes along the chains. It
comes to the end of the one and of the other at once, and there it stays.
-/
namespace RecordIndex.Session
variable {α : Type}

/-- The listing of a table that is in use after a run yields the chains of its buckets one after the
other, each from its head, as different handles with their records, which are linked. Before every
call it knows exactly how many are to come. Past the last one it yields nothing and stays as it
is. -/
theorem listings_exact (acts : List (Action α)) {t : TableId} {table : Table}
    (ht : (run acts).space.table? t = some table) :
    let s := run acts
    let p := table.arena
    ∃ (a : Arena α) (cs : Chains) (es : List (Entry α)) (first : Listing α),
      s.space.arena? p = some a ∧
      cs.length = table.capacity ∧ (∀ i, table.chain? a i = cs[i]?) ∧
      es.map (·.1) = cs.flatten ∧ cs.flatten.Nodup ∧
      (∀ e ∈ es, s.recordOf p e.1 = some e.2 ∧ e.2.linked = true) ∧
      es.length = table.count ∧ (s.act (.handles t p)).2 = .ok (.handles (es.map (·.1))) ∧
      (s.act (.listing t p)).2 = .ok (.listing first) ∧
      ∀ i, ∃ l l', first.after i = .ok l ∧ l.length = .ok (table.count - i) ∧
        l.sizeHint = (table.count - i, some (table.count - i)) ∧
        (es.drop i).length = table.count - i ∧
        l.pull = .ok (es[i]?, l') ∧ first.after (i + 1) = .ok l' ∧
        (table.count ≤ i → l' = l) := by
  intro s p
  have hw := run_sound acts
  obtain ⟨a, hu⟩ := hw.exists_uses ht
  obtain ⟨-, -, cs, hcs, -⟩ := hw.uses hu
  obtain ⟨-, -, -, hhandles, hlisting, -⟩ := act_read hu hcs
  have hlive := hcs.threads.live
  have hfst := Arena.map_fst_read hlive
  have hcount : (a.read cs.flatten).length = table.count := by
    have hlength := congrArg List.length hfst
    rwa [List.length_map, ← hcs.count] at hlength
  refine ⟨a, cs, a.read cs.flatten, .of table a, hu.arenas, hcs.threads.length, hcs.chain?, hfst,
    hcs.threads.nodup, ?_, hcount, by rw [hfst]; exact hhandles, hlisting, ?_⟩
  · intro e he
    obtain ⟨hh, hr⟩ := Arena.mem_read.mp he
    obtain ⟨r, hr', hl⟩ := hcs.linked hh
    obtain rfl : e.2 = r := Option.some.inj (hr.symm.trans hr')
    exact ⟨(recordOf_uses hu e.1).trans hr, hl⟩
  · intro i
    obtain ⟨l, hafter, ha, hahead⟩ := (Listing.ahead_of hcs).after i
    obtain ⟨l', hpull, -, -, hend⟩ := hahead.pull
    have hrest : (cs.flatten.drop i).length = table.count - i := by rw [List.length_drop, hcs.count]
    have hlength := hahead.length
    rw [hrest] at hlength
    have ha' : l.arena = a := ha
    rw [ha', Arena.read_drop hlive, List.head?_drop] at hpull
    refine ⟨l, l', hafter, hlength.2, hlength.1, by rw [List.length_drop, hcount], hpull, ?_, ?_⟩
    · simp only [Listing.after, hafter, hpull, Except.map]
    · intro hle
      exact hend (List.length_eq_zero_iff.mp (by omega))

/-- Three calls exhaust the listing, and a fourth one finds it so. -/
theorem sample_listing : ∃ first l : Listing Unit,
    ((run sample).act (.listing 0 0)).2 = .ok (.listing first) ∧ first.after 3 = .ok l ∧
      l.length = .ok 0 ∧ l.pull = .ok (none, l) := by
  have ht : (run sample).space.table? 0 = some sampleTable := by rfl
  obtain ⟨-, -, es, first, -, -, -, -, -, -, hlength, -, hlisting, hcalls⟩ :=
    listings_exact sample ht
  obtain ⟨l, l', hafter, hzero, -, -, hpull, -, hend⟩ := hcalls 3
  have hnone : es[3]? = none := List.getElem?_eq_none (hlength.trans rfl).le
  rw [hnone, hend le_rfl] at hpull
  exact ⟨first, l, hlisting, hafter, hzero, hpull⟩

end RecordIndex.Session
