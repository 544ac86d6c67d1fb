import Mathlib
import RecordIndex.Proofs.Session.Custody

/-! # Searches as scans

A search goes through a single bucket, yet it finds what a scan of the whole snapshot would find
first. Whatever became of the records before, those of one key are together in one chain, in the
order of the snapshot, and nothing is asked of the comparison.
-/
namespace RecordIndex
variable {α : Type}

namespace Table

/-- The first record of the key that is accepted, among those of the key and among all. -/
theorem find?_scan (a : Arena α) (cs : Chains) (key : UInt64) (accept : Record α → Bool) :
    (stack a cs key).find? (a.meets fun _ => accept) =
      cs.flatten.find? (a.meets (accepts key accept)) := by
  rw [← find?_accepts, stack, find?_filter_hasKey (keyedBy_accepts a key accept)]

end Table

namespace Session

theorem meets_accepts {s : Session α} {t : TableId} {table : Table} {a : Arena α}
    (hu : s.space.Uses t table a) (key : UInt64) (accept : Record α → Bool) :
    a.meets (Table.accepts key accept) = fun h =>
      (s.recordOf table.arena h).any fun r => r.key == key && accept r := by
  funext h
  rw [recordOf_uses hu, Arena.meets]
  rfl

/-- A search of a table that is in use after a run finds the first handle of the snapshot whose
record has the key and is accepted by the comparison, and it finds nothing if there is none. A
search by the key alone is the case of a comparison that accepts everything. -/
theorem searches_scan (acts : List (Action α)) {t : TableId} {table : Table}
    (ht : (run acts).space.table? t = some table) :
    let s := run acts
    let p := table.arena
    ∃ hs, (s.act (.handles t p)).2 = .ok (.handles hs) ∧
      (∀ h ∈ hs, ∃ r, s.recordOf p h = some r) ∧
      (∀ template same, (s.act (.lookupSame t p template same)).2 = .ok (.found (hs.find? fun h =>
        (s.recordOf p h).any fun r => r.key == template.key && same template r))) ∧
      (∀ key, (s.act (.lookup t p key)).2 =
        .ok (.found (hs.find? fun h => (s.recordOf p h).any fun r => r.key == key))) ∧
      ∀ template, (s.act (.lookup t p template.key)).2 =
        (s.act (.lookupSame t p template fun _ _ => true)).2 := by
  intro s p
  have hw := run_sound acts
  obtain ⟨a, hu⟩ := hw.exists_uses ht
  obtain ⟨-, -, cs, hcs, -⟩ := hw.uses hu
  obtain ⟨hlookup, hsame, -, hhandles, -⟩ := act_read hu hcs
  have hscan : ∀ template same, (s.act (.lookupSame t p template same)).2 =
      .ok (.found (cs.flatten.find? fun h =>
        (s.recordOf p h).any fun r => r.key == template.key && same template r)) := by
    intro template same
    rw [hsame, Table.find?_scan, meets_accepts hu]
  have hkey : ∀ key, (s.act (.lookup t p key)).2 =
      .ok (.found (cs.flatten.find? fun h => (s.recordOf p h).any fun r => r.key == key)) := by
    intro key
    rw [hlookup, ← hcs.find?_accepts_true, Table.find?_accepts, Table.find?_scan,
      meets_accepts hu]
    simp only [Bool.and_true, s, p]
  refine ⟨cs.flatten, hhandles, fun h hh => ?_, hscan, hkey, fun template => ?_⟩
  · obtain ⟨r, hr⟩ := hcs.threads.live h hh
    exact ⟨r, (recordOf_uses hu h).trans hr⟩
  · rw [hkey, hscan]
    simp only [Bool.and_true]

def ranked : List (Action Nat) :=
  [.addArena, .create .ample 0 "t" ⟨[1, 2], 1⟩, .alloc 0 (.detached 4 7),
    .alloc 0 (.detached 6 8), .alloc 0 (.detached 4 3), .insert .ample 0 0 ⟨0, 1⟩,
    .insert .ample 0 0 ⟨1, 1⟩, .insert .ample 0 0 ⟨2, 1⟩]

/-- The record inserted last has the key but not the larger payload, so the search goes on. -/
theorem ranked_search :
    ((run ranked).act (.lookupSame 0 0 (.detached 4 5) fun x y => x.payload < y.payload)).2 =
      .ok (.found (some ⟨0, 1⟩)) := by
  obtain ⟨table, ht, hp⟩ : ∃ table, (run ranked).space.table? 0 = some table ∧ table.arena = 0 :=
    ⟨_, rfl, rfl⟩
  obtain ⟨hs, hhandles, -, hscan, -⟩ := searches_scan ranked ht
  rw [hp] at hhandles hscan
  have hsnapshot : (run ranked).space.handles 0 0 = .ok [⟨2, 1⟩, ⟨1, 1⟩, ⟨0, 1⟩] := by rfl
  simp only [act, read, hsnapshot, Except.map, Except.ok.injEq, Reply.handles.injEq] at hhandles
  subst hhandles
  rw [hscan]
  rfl

end Session
end RecordIndex
