import Mathlib
import RecordIndex.Proofs.Session.Redistribution
import RecordIndex.Proofs.Session.Searches

/-! # Two ways to remove a record

A removal through a cursor searches the chain for the record itself, a removal by comparison for a
record that is accepted. When the comparison selects the record of the cursor, both find the same
record in front of it, so the two removals leave the same table and the same arena.
-/
namespace RecordIndex
variable {α : Type}

namespace Table
variable {t t' : Table} {a a' : Arena α} {cs : Chains} {h : Handle} {r : Record α}

/-- A search depends only on the record it finds; the one in front of it is determined then. -/
theorem Indexes.locate_congr (ht : t.Indexes a cs) {key : UInt64} {p q : Handle → Record α → Bool}
    (hp : KeyedBy a key p) (hq : KeyedBy a key q)
    (he : (stack a cs key).find? (a.meets p) = (stack a cs key).find? (a.meets q)) :
    t.locate a key p = t.locate a key q := by
  rcases ht.locate hp with ⟨hl, hf⟩ | ⟨xs, h, ys, r, hi, hr, -, hf, hl⟩ <;>
    rcases ht.locate hq with ⟨hl', hf'⟩ | ⟨xs', h', ys', r', hi', hr', -, hf', hl'⟩
  · rw [hl, hl']
  · rw [hf, hf'] at he
    cases he
  · rw [hf, hf'] at he
    cases he
  · obtain rfl : h = h' := Option.some.inj (hf.symm.trans (he.trans hf'))
    obtain rfl : r = r' := Option.some.inj (hr.symm.trans hr')
    have hchain : xs ++ h :: ys = xs' ++ h :: ys' := Option.some.inj (hi.symm.trans hi')
    -- the chain has the record once, so it splits there in one way
    have hn := Chains.nodup_of_getElem? ht.threads.nodup hi
    have hrest := (List.nodup_cons.mp (List.nodup_middle.mp hn)).1
    rw [List.mem_append, not_or] at hrest
    obtain ⟨rfl, -⟩ := (List.append_cons_inj_of_notMem hrest.1 hrest.2).mp hchain
    rw [hl, hl']

/-- A record of the table is what a search for itself finds. -/
theorem find?_self (hr : a.get? h = some r) (hh : h ∈ cs.flatten) :
    (stack a cs r.key).find? (a.meets fun k _ => k == h) = some h := by
  have hkey : a.hasKey r.key h = true := by rw [Arena.hasKey_of_get? hr, beq_self_eq_true]
  have hmem : h ∈ stack a cs r.key := List.mem_filter.mpr ⟨hh, hkey⟩
  cases hf : (stack a cs r.key).find? (a.meets fun k _ => k == h) with
  | none =>
    have hnone := List.find?_eq_none.mp hf h hmem
    simp [hr] at hnone
  | some k =>
    have hk := List.find?_some hf
    obtain ⟨s, hs⟩ : ∃ s, a.get? k = some s := by
      cases hs : a.get? k with
      | none => simp [Arena.meets, hs] at hk
      | some s => exact ⟨s, rfl⟩
    rw [Arena.meets_of_get? hs, beq_iff_eq] at hk
    rw [hk]

/-- A removal by comparison that comes to a record removes it as a removal of the record itself
does. -/
theorem Indexes.removeSame_of_removeHandle (ht : t.Indexes a cs) (hr : a.get? h = some r)
    {template : Record α} {same : Record α → Record α → Bool} (hkey : template.key = r.key)
    (hfirst : (stack a cs r.key).find? (a.meets (accepts r.key (same template))) = some h)
    (he : t.removeHandle a h r.key = (t', a', .ok h)) :
    t.removeSame a template same = (t', a', .ok (some h)) := by
  have hmem := (List.mem_filter.mp (List.mem_of_find?_eq_some hfirst)).1
  have hlocate := ht.locate_congr (keyedBy_accepts a r.key (same template)) (keyedBy_self hr)
    (hfirst.trans (find?_self hr hmem).symm)
  rw [Table.removeSame, hkey, Table.removeFirst, hlocate]
  unfold Table.removeHandle at he
  split at he
  · cases he
  · cases he
  · rename_i before e hl
    simp only [he]
    rfl

end Table

namespace Cursor

theorem removeCurrent_on {c : Cursor} {t t' : Table} {a a' : Arena α} {h : Handle} {r : Record α}
    {resume : Nat} (hp : c.place = .on h resume) (hr : a.get? h = some r)
    (he : t.removeHandle a h r.key = (t', a', .ok h)) :
    c.removeCurrent t a =
      (t', a', .ok ({ c with epoch := t'.epoch, place := .gap r.next resume }, h)) := by
  simp only [removeCurrent, hp, hr, he]
  rfl

theorem exists_place {c : Cursor} {h : Handle} (hc : c.current? = some h) :
    ∃ resume, c.place = .on h resume := by
  unfold current? at hc
  split at hc
  · rename_i k resume hp
    cases hc
    exact ⟨resume, hp⟩
  · cases hc

end Cursor

namespace Session
variable {s : Session α} {t : TableId} {table : Table} {a : Arena α} {cs : Chains} {c : Nat}
  {cur : Cursor} {h : Handle}

/-- The removal through the cursor and the one by comparison put the same table and the same arena
in the place of the old ones. -/
theorem act_removals (hu : s.space.Uses t table a) (hcs : table.Indexes a cs)
    (hc : s.cursors[c]? = some cur) (hv : cur.isValid table = true) (hon : cur.current? = some h)
    {template : Record α} {same : Record α → Record α → Bool}
    (hfirst : (Table.stack a cs template.key).find?
      (a.meets (Table.accepts template.key (same template))) = some h) :
    ∃ table' a' cur', table.Unlinked a cs h table' a' ∧
      s.act (.removeCurrent c t table.arena) =
        ({ s with space := s.space.put t table' a' }.setCursor c cur', .ok (.handle h)) ∧
      s.act (.removeSame t table.arena template same) =
        ({ s with space := s.space.put t table' a' }, .ok (.found (some h))) := by
  obtain ⟨resume, hp⟩ := Cursor.exists_place hon
  have hmem := (List.mem_filter.mp (List.mem_of_find?_eq_some hfirst)).1
  obtain ⟨r, hr⟩ := hcs.threads.live h hmem
  have hkey : r.key = template.key := by
    have hmeets := List.find?_some hfirst
    rw [Arena.meets_of_get? hr] at hmeets
    exact Table.keyedBy_accepts a template.key (same template) h r hr hmeets
  rcases hcs.removeHandle hr with ⟨-, hn⟩ | ⟨table', a', he, hi⟩
  · exact absurd hmem hn
  · have hsame := hcs.removeSame_of_removeHandle hr hkey.symm (hkey ▸ hfirst) he
    have hcursor : s.space.removeCurrent cur t table.arena = (s.space.put t table' a',
        .ok ({ cur with epoch := table'.epoch, place := .gap r.next resume }, h)) := by
      rw [Workspace.removeCurrent, hu.getWalked hv]
      exact Workspace.onPair_put (Cursor.removeCurrent_on hp hr he) hi.same
    have hsearch : s.space.removeSame t table.arena template same =
        (s.space.put t table' a', .ok (some h)) := by
      rw [Workspace.removeSame, hu.getPair]
      exact Workspace.onPair_put hsame hi.same
    refine ⟨table', a', { cur with epoch := table'.epoch, place := .gap r.next resume }, hi, ?_, ?_⟩
    · simp only [act_removeCurrent_eq hc, hcursor]
    · simp only [act, after, hsearch, Except.map]

/-- When a valid cursor stands on the first record of a chain that has the key of the template and
is accepted by the comparison, the removal through the cursor and the one by comparison return this
record and leave the same tables and the same arenas. The record is gone from its chain and no
other chain is touched. -/
theorem removals_agree (acts : List (Action α)) (ht : (run acts).space.table? t = some table)
    (hc : (run acts).cursors[c]? = some cur) (hv : cur.isValid table = true)
    (hon : cur.current? = some h) (ha : (run acts).space.arena? table.arena = some a)
    (template : Record α) (same : Record α → Record α → Bool) {chain : List Handle}
    (hchain : table.chain? a (table.buckets.slotOf template.key) = some chain)
    (hfirst : chain.find? (fun k => (a.get? k).any fun r =>
      r.key == template.key && same template r) = some h) :
    let s := run acts
    let p := table.arena
    (s.act (.removeCurrent c t p)).2 = .ok (.handle h) ∧
    (s.act (.removeSame t p template same)).2 = .ok (.found (some h)) ∧
    (s.act (.removeCurrent c t p)).1.space = (s.act (.removeSame t p template same)).1.space ∧
    ∃ table' a', (s.act (.removeCurrent c t p)).1.space.table? t = some table' ∧
      (s.act (.removeCurrent c t p)).1.space.arena? p = some a' ∧
      (∀ i, table'.chain? a' i = (table.chain? a i).map (·.erase h)) ∧
      table'.count + 1 = table.count ∧ table'.epoch = table.epoch + 1 := by
  intro s p
  have hw := run_sound acts
  obtain ⟨b, hu⟩ := hw.exists_uses ht
  obtain rfl : b = a := Option.some.inj (hu.arenas.symm.trans ha)
  obtain ⟨-, -, cs, hcs, -⟩ := hw.uses hu
  rw [hcs.chain?] at hchain
  have hstack : (Table.stack b cs template.key).find?
      (b.meets (Table.accepts template.key (same template))) = some h := by
    rw [hcs.stack_eq hchain, Table.find?_filter_hasKey (Table.keyedBy_accepts _ _ _)]
    exact hfirst
  obtain ⟨table', a', cur', hi, hcursor, hsame⟩ := act_removals hu hcs hc hv hon hstack
  have hu' := Workspace.put_uses hu hi.same.arena a'
  refine ⟨by rw [hcursor], by rw [hsame], by rw [hcursor, hsame]; rfl, table', a', ?_, ?_, ?_,
    hi.count hcs, hi.epoch⟩
  · rw [hcursor]
    exact hu'.table?
  · have harena := hu'.arenas
    rw [hi.same.arena] at harena
    rw [hcursor]
    exact harena
  · intro i
    rw [hi.indexes.chain?, hcs.chain?, Chains.getElem?_without]

def rankedWalk : List (Action Nat) :=
  ranked ++ [.cursor 0, .advance 0 0 0, .advance 0 0 0, .advance 0 0 0]

theorem ranked_removals :
    let search := Action.removeSame 0 0 (.detached 4 5) fun x y => x.payload < y.payload
    ((run rankedWalk).act (.removeCurrent 0 0 0)).2 = .ok (.handle ⟨0, 1⟩) ∧
      ((run rankedWalk).act search).2 = .ok (.found (some ⟨0, 1⟩)) ∧
      ((run rankedWalk).act (.removeCurrent 0 0 0)).1.space =
        ((run rankedWalk).act search).1.space := by
  obtain ⟨table, ht⟩ : ∃ table, (run rankedWalk).space.table? 0 = some table :=
    Option.isSome_iff_exists.mp (by decide +kernel)
  obtain ⟨cur, hc⟩ : ∃ cur, (run rankedWalk).cursors[0]? = some cur :=
    Option.isSome_iff_exists.mp (by decide +kernel)
  obtain ⟨a, ha⟩ : ∃ a, (run rankedWalk).space.arena? 0 = some a :=
    Option.isSome_iff_exists.mp (by decide +kernel)
  have hcur : ((run rankedWalk).space.table? 0).bind (fun table =>
      (run rankedWalk).cursors[0]?.map fun cur =>
        (table.arena, cur.isValid table, cur.current?)) = some (0, true, some ⟨0, 1⟩) := by
    decide +kernel
  let chain : List Handle := [⟨2, 1⟩, ⟨1, 1⟩, ⟨0, 1⟩]
  have hfind : ((run rankedWalk).space.table? 0).bind (fun table =>
      ((run rankedWalk).space.arena? 0).map fun a => (table.chain? a (table.buckets.slotOf 4),
        chain.find? fun k => (a.get? k).any fun r => r.key == 4 && decide (5 < r.payload))) =
          some (some chain, some ⟨0, 1⟩) := by decide +kernel
  simp only [ht, hc, ha, Option.bind_some, Option.map_some, Option.some_inj, Prod.mk.injEq]
    at hcur hfind
  obtain ⟨hp, hv, hon⟩ := hcur
  obtain ⟨hchain, hfirst⟩ := hfind
  have hagree := removals_agree rankedWalk ht hc hv hon (hp ▸ ha) (.detached 4 5)
    (fun x y => x.payload < y.payload) hchain hfirst
  rw [hp] at hagree
  exact ⟨hagree.1, hagree.2.1, hagree.2.2.1⟩

end Session
end RecordIndex
