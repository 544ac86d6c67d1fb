import Mathlib
import RecordIndex.Proofs.Session.Capacity

/-! # The order of a snapshot

As long as a table keeps its capacity a record has a place in its snapshot, in front of the records
of its own bucket and of all later ones that were there before it. Taking a record out moves no
other. So two records that stay in the table stay in the order in which they are.
-/
namespace RecordIndex
variable {α : Type}

namespace Chains

theorem flatten_push_drop {cs : Chains} {i : Nat} (hi : i < cs.length) (h : Handle) :
    (cs.push i h).flatten = (cs.take i).flatten ++ h :: (cs.drop i).flatten := by
  rw [flatten_push (List.getElem?_eq_getElem hi), List.drop_eq_getElem_cons hi, List.flatten_cons]

theorem erase_flatten_push {cs : Chains} {i : Nat} (hi : i < cs.length) {h : Handle}
    (hh : h ∉ cs.flatten) : (cs.push i h).flatten.erase h = cs.flatten := by
  have hsplit : cs.flatten = (cs.take i).flatten ++ (cs.drop i).flatten := by
    rw [← List.flatten_append, List.take_append_drop]
  have htake : h ∉ (cs.take i).flatten := fun hm =>
    hh (hsplit ▸ List.mem_append_left _ hm)
  rw [flatten_push_drop hi, List.erase_append_right _ htake, List.erase_cons_head, hsplit]

/-- Elements that stay in a list when another one is erased keep their order. -/
theorem pair_sublist_erase {hs : List Handle} {h k x : Handle} (hh : h ≠ x) (hk : k ≠ x) :
    [h, k].Sublist (hs.erase x) ↔ [h, k].Sublist hs := by
  constructor
  · intro hsub
    exact hsub.trans List.erase_sublist
  · intro hsub
    have herase : [h, k].erase x = [h, k] := List.erase_of_not_mem (by simp [hh.symm, hk.symm])
    simpa only [herase] using hsub.erase x

end Chains

namespace Table
variable {t t' : Table} {m : Allocator} {a a' : Arena α} {cs : Chains}

/-- The snapshot goes through the buckets in order. -/
theorem Indexes.split_slotIn (ht : t.Indexes a cs) (i : Nat) :
    cs.flatten.takeWhile (a.slotIn t.capacity · < i) = (cs.take i).flatten ∧
      cs.flatten.dropWhile (a.slotIn t.capacity · < i) = (cs.drop i).flatten := by
  have hslot : ∀ (j : Nat) hs, cs[j]? = some hs → ∀ h ∈ hs, a.slotIn t.capacity h = j := by
    intro j hs hj h hh
    obtain ⟨r, hr, -, hr'⟩ := ht.placed j hs hj h hh
    exact (Arena.slotIn_of_get? hr _).trans hr'
  have htake : ∀ h ∈ (cs.take i).flatten, a.slotIn t.capacity h < i := by
    intro h hh
    obtain ⟨j, hs, hj, hm⟩ := Chains.exists_of_mem_flatten hh
    rw [List.getElem?_take] at hj
    split at hj
    · rw [hslot j hs hj h hm]
      assumption
    · cases hj
  have hdrop : ∀ h ∈ (cs.drop i).flatten, ¬ a.slotIn t.capacity h < i := by
    intro h hh
    obtain ⟨j, hs, hj, hm⟩ := Chains.exists_of_mem_flatten hh
    rw [List.getElem?_drop] at hj
    rw [hslot _ hs hj h hm]
    omega
  have hsplit : cs.flatten = (cs.take i).flatten ++ (cs.drop i).flatten := by
    rw [← List.flatten_append, List.take_append_drop]
  rw [hsplit, List.takeWhile_append_of_pos (by simpa using htake),
    List.dropWhile_append_of_pos (by simpa using htake)]
  cases hrest : (cs.drop i).flatten with
  | nil => simp
  | cons h hs =>
    have hh := hdrop h (hrest ▸ List.mem_cons_self)
    simp [hh]

theorem Indexes.makeRoom_of_capacity (ht : t.Indexes a cs) {events : List Event}
    (hm : t.makeRoom m a = (t', a', events, .ok ())) (hc : t'.capacity = t.capacity) :
    a' = a ∧ ∃ reported, t' = { t with ceilingReported := reported } := by
  unfold Table.makeRoom Table.grow at hm
  split at hm
  · split at hm
    · split at hm <;> cases hm
      · exact ⟨rfl, _, rfl⟩
      · exact ⟨rfl, _, rfl⟩
    · -- the next capacity is not the one the table has
      rename_i capacity hnext
      have hlt : t.capacity < capacity.toNat := by simpa using List.find?_some hnext
      rcases newBuckets_cases m t.name capacity with ⟨-, he⟩ | he <;>
        simp only [he, ht.foldlM_relinkChain] at hm <;> cases hm
      have hgrown := hc.symm.trans ((size_relink _ a _).trans Array.size_replicate)
      omega
  · cases hm
    exact ⟨rfl, t.ceilingReported, rfl⟩

/-- An insertion at the same capacity is a push on one chain. -/
theorem Indexes.insert_of_capacity (ht : t.Indexes a cs) {h : Handle} {events : List Event}
    (hi : t.insert m a h = (t', a', events, .ok ())) (hc : t'.capacity = t.capacity) :
    ∃ r, a.get? h = some r ∧ h ∉ cs.flatten ∧
      t'.Indexes a' (cs.push (t.buckets.slotOf r.key) h) := by
  obtain ⟨r, grown, b, hr, hl, hroom, hpush⟩ := insert_eq_ok hi
  have hh := ht.not_mem hr hl
  have hsize : grown.capacity = t.capacity := by
    have hsame : (grown.push b h r.key).1.capacity = grown.capacity := Array.size_setIfInBounds
    rwa [← hsame, hpush]
  obtain ⟨rfl, reported, rfl⟩ := ht.makeRoom_of_capacity hroom hsize
  have hpushed := (ht.regrown reported [] rfl).indexes.push hr hh
  rw [hpush] at hpushed
  exact ⟨r, hr, hh, hpushed⟩

end Table

namespace Session
variable {s : Session α} {held : Holdings} {action : Action α} {t : TableId} {table table' : Table}
  {a a' : Arena α} {cs : Chains} {h k : Handle}

def Lists (s : Session α) (t : TableId) (p : ArenaId) (hs : List Handle) : Prop :=
  (s.act (.handles t p)).2 = .ok (.handles hs)

theorem lists_uses (hu : s.space.Uses t table a) (hcs : table.Indexes a cs) :
    s.Lists t table.arena cs.flatten := (act_read hu hcs).2.2.2.1

theorem Lists.eq_flatten {hs : List Handle} (hl : s.Lists t table.arena hs)
    (hu : s.space.Uses t table a) (hcs : table.Indexes a cs) : hs = cs.flatten := by
  have hlist := lists_uses hu hcs
  rw [Lists, hl] at hlist
  cases hlist
  rfl

/-- What an insertion at the same capacity does to the chains. -/
theorem chains_of_inserted (hw : s.space.Sound held) (hu : s.space.Uses t table a)
    (hcs : table.Indexes a cs) {events : List Event} (hd : s.does action = .inserted t h events)
    (hu' : (s.act action).1.space.Uses t table' a') (hc : table'.capacity = table.capacity) :
    ∃ r, a.get? h = some r ∧ h ∉ cs.flatten ∧
      table'.Indexes a' (cs.push (table.buckets.slotOf r.key) h) := by
  unfold does deed at hd
  split at hd <;> cases hd
  rename_i m p hanswer
  rcases hw.getPair_cases t p with ⟨e, he⟩ | ⟨table₀, a₀, -, hu₀, rfl, -⟩
  · simp only [act, after, Workspace.insert, he] at hanswer
    cases hanswer
  · obtain ⟨rfl, rfl⟩ := hu.unique hu₀
    obtain ⟨table'', a'', hi, hsame, hact⟩ := act_insert_ok hu hcs hanswer
    rw [hact] at hu'
    obtain ⟨rfl, rfl⟩ := Workspace.uses_put hu hsame.arena hu'
    exact hcs.insert_of_capacity hi hc

/-- What an unlinking does to the chains. -/
theorem chains_of_unlinked (hu : s.space.Uses t table a) (hcs : table.Indexes a cs)
    (hc : Workspace.Change s.space (.unlinked t h) (s.act action).1.space) :
    ∃ table' a', (s.act action).1.space.Uses t table' a' ∧ table.Unlinked a cs h table' a' := by
  generalize (s.act action).1.space = w' at hc ⊢
  cases hc with
  | unlinked hu₀ hcs₀ hi =>
    obtain ⟨rfl, rfl⟩ := hu.unique hu₀
    obtain rfl := hcs.unique hcs₀
    exact ⟨_, _, Workspace.put_uses hu hi.same.arena _, hi⟩

theorem uses_of_lists (hw : s.space.Sound held) {p : ArenaId} {hs : List Handle}
    (hl : s.Lists t p hs) : ∃ table a cs, s.space.Uses t table a ∧ p = table.arena ∧
      table.Indexes a cs ∧ hs = cs.flatten := by
  rcases hw.getPair_cases t p with ⟨e, he⟩ | ⟨table, a, cs, hu, rfl, hcs⟩
  · simp [Lists, act, read, Workspace.handles, he, bind, Except.bind, Except.map] at hl
  · exact ⟨table, a, cs, hu, rfl, hcs, hl.eq_flatten hu hcs⟩

/-- One action leaves two records that stay in the order in which they are. -/
theorem order_step (hw : s.space.Sound held) (hu : s.space.Uses t table a)
    (hcs : table.Indexes a cs) (hu' : (s.act action).1.space.Uses t table' a') {cs' : Chains}
    (hcs' : table'.Indexes a' cs') (hc : table'.capacity = table.capacity)
    (hh : h ∈ cs.flatten) (hk : k ∈ cs.flatten) (hh' : h ∈ cs'.flatten) (hk' : k ∈ cs'.flatten) :
    [h, k].Sublist cs'.flatten ↔ [h, k].Sublist cs.flatten := by
  cases hw.fate (act_change hw action) hu' with
  | kept hu₀ hcs₀ _ he =>
    obtain ⟨rfl, rfl⟩ := hu.unique hu₀
    obtain rfl := hcs.unique hcs₀
    rw [(hcs.congr he).unique hcs']
  | opened _ hsize => exact absurd hsize hu.lt_size.ne
  | @inserted _ _ _ _ x _ _ hd =>
    obtain ⟨r, hr, hx, hpush⟩ := chains_of_inserted hw hu hcs hd hu' hc
    obtain rfl := hpush.unique hcs'
    have hlen := hcs.slotOf_lt_length r.key
    have hhx : h ≠ x := fun he => hx (he ▸ hh)
    have hkx : k ≠ x := fun he => hx (he ▸ hk)
    rw [← Chains.pair_sublist_erase hhx hkx, Chains.erase_flatten_push hlen hx]
  | unlinked _ hu₀ hcs₀ hi =>
    obtain ⟨rfl, rfl⟩ := hu.unique hu₀
    obtain rfl := hcs.unique hcs₀
    obtain rfl := hi.indexes.unique hcs'
    have hn := hcs.threads.nodup
    rw [Chains.flatten_without hn] at hh' hk' ⊢
    exact Chains.pair_sublist_erase (hn.mem_erase_iff.mp hh').1 (hn.mem_erase_iff.mp hk').1

theorem order_run {acts : List (Action α)} (hu : (run acts).space.Uses t table a)
    (hcs : table.Indexes a cs) (more : List (Action α))
    (hstay : ∀ before, before <+: more → ∃ ks, (run (acts ++ before)).Lists t table.arena ks ∧
      h ∈ ks ∧ k ∈ ks) :
    ∀ table' a' cs', (run (acts ++ more)).space.Uses t table' a' → table'.Indexes a' cs' →
      table'.capacity = table.capacity →
      ([h, k].Sublist cs'.flatten ↔ [h, k].Sublist cs.flatten) := by
  induction more using List.reverseRecOn with
  | nil =>
    intro table' a' cs' hu' hcs' _
    rw [List.append_nil] at hu'
    obtain ⟨rfl, rfl⟩ := hu.unique hu'
    rw [hcs.unique hcs']
  | append_singleton more action ih =>
    intro table' a' cs' hu' hcs' hc
    have hw := run_sound (acts ++ more)
    obtain ⟨ks, hl, hh, hk⟩ := hstay more (List.prefix_append ..)
    obtain ⟨ks', hl', hh', hk'⟩ := hstay (more ++ [action]) List.prefix_rfl
    obtain ⟨mid, b, bs, hmid, harena, hbs, rfl⟩ := uses_of_lists hw hl
    have harena' : table'.arena = table.arena := by
      obtain ⟨last, _, _, hlast, he, -⟩ := uses_of_lists (run_sound _) hl'
      rw [he, (hu'.unique hlast).1]
    rw [← harena'] at hl'
    rw [hl'.eq_flatten hu' hcs'] at hh' hk'
    -- the capacity in between is bounded from both sides
    have hle := run_capacity_le hu.table? more mid hmid.table?
    have hle' := run_capacity_le hmid.table? [action] table' (by
      rw [List.append_assoc]
      exact hu'.table?)
    have hmidc : mid.capacity = table.capacity := by omega
    rw [← List.append_assoc, run_concat] at hu'
    rw [order_step hw hmid hbs hu' hcs' (hc.trans hmidc.symm) hh hk hh' hk']
    exact ih (fun before hb => hstay before (hb.trans (List.prefix_append ..))) mid b bs hmid hbs
      hmidc

/-- As long as the capacity is the same, an insertion puts the record into the snapshot in front of
the first one of its own bucket or a later one, an unlinking takes out the record it answers with,
and two records that are in all snapshots of a run are in the same order in the first and the last.
-/
theorem snapshots_stable (acts : List (Action α))
    (ht : (run acts).space.table? t = some table) :
    let s := run acts
    let p := table.arena
    let bucket := fun k => (s.recordOf p k).elim 0 (·.key.toNat) % table.capacity
    ∃ hs, s.Lists t p hs ∧ hs.Nodup ∧
      (∀ m h events table', (s.act (.insert m t p h)).2 = .ok (.events events) →
        (s.act (.insert m t p h)).1.space.table? t = some table' →
        table'.capacity = table.capacity →
        h ∉ hs ∧ (s.act (.insert m t p h)).1.Lists t p
          (hs.takeWhile (bucket · < bucket h) ++ h :: hs.dropWhile (bucket · < bucket h))) ∧
      (∀ action h, s.does action = .unlinked t h →
        h ∈ hs ∧ (s.act action).1.Lists t p (hs.erase h)) ∧
      ∀ more table', (run (acts ++ more)).space.table? t = some table' →
        table'.capacity = table.capacity → ∀ h k,
        (∀ before, before <+: more → ∃ ks, (run (acts ++ before)).Lists t p ks ∧
          h ∈ ks ∧ k ∈ ks) →
        ∃ ks, (run (acts ++ more)).Lists t p ks ∧
          ([h, k].Sublist ks ↔ [h, k].Sublist hs) := by
  intro s p bucket
  have hw := run_sound acts
  obtain ⟨a, hu⟩ := hw.exists_uses ht
  obtain ⟨-, -, cs, hcs, -⟩ := hw.uses hu
  have hbucket : bucket = a.slotIn table.capacity := by
    funext k
    simp only [bucket, s, p, recordOf_uses hu, Arena.slotIn, Arena.label?]
    cases a.get? k <;> rfl
  refine ⟨cs.flatten, lists_uses hu hcs, hcs.threads.nodup, ?_, ?_, ?_⟩
  · intro m h events table' hanswer ht' hc
    have hd : s.does (.insert m t p h) = .inserted t h events := by rw [does, hanswer, deed]
    obtain ⟨table'', b, -, hsame, hact⟩ := act_insert_ok hu hcs hanswer
    obtain ⟨a', hu'⟩ := (hw.step (act_change hw (.insert m t p h))).exists_uses ht'
    obtain ⟨r, hr, hh, hpush⟩ := chains_of_inserted hw hu hcs hd hu' hc
    have hlt := hcs.slotOf_lt_length r.key
    have hslot : bucket h = table.buckets.slotOf r.key := by
      simp only [hbucket]
      exact Arena.slotIn_of_get? hr _
    obtain ⟨htake, hdrop⟩ := hcs.split_slotIn (table.buckets.slotOf r.key)
    have hl := lists_uses hu' hpush
    rw [hact] at hu'
    obtain ⟨rfl, -⟩ := Workspace.uses_put hu hsame.arena hu'
    rw [hsame.arena, Chains.flatten_push_drop hlt, ← htake, ← hdrop, ← hslot, ← hbucket] at hl
    exact ⟨hh, hl⟩
  · intro action h hd
    obtain ⟨table', a', hu', hi⟩ := chains_of_unlinked hu hcs (hd ▸ act_change hw action)
    have hl := lists_uses hu' hi.indexes
    rw [hi.same.arena, Chains.flatten_without hcs.threads.nodup] at hl
    exact ⟨hi.member, hl⟩
  · intro more table' ht' hc h k hstay
    obtain ⟨ks, hl, -⟩ := hstay more List.prefix_rfl
    obtain ⟨a', hu'⟩ := (run_sound (acts ++ more)).exists_uses ht'
    obtain ⟨table'', a'', cs', hu'', -, hcs', rfl⟩ := uses_of_lists (run_sound _) hl
    obtain ⟨rfl, rfl⟩ := hu'.unique hu''
    exact ⟨_, hl, order_run hu hcs more hstay _ _ _ hu' hcs' hc⟩

/-- The third record goes in front of the other two, which stay in their order. -/
theorem sample_order :
    let acts := sample.take 7
    let insertion : Action Unit := .insert .ample 0 0 ⟨2, 1⟩
    (run acts).Lists 0 0 [⟨1, 1⟩, ⟨0, 1⟩] ∧
      (run (acts ++ [insertion])).Lists 0 0 [⟨2, 1⟩, ⟨1, 1⟩, ⟨0, 1⟩] ∧
      ∃ ks, (run (acts ++ [insertion])).Lists 0 0 ks ∧ List.Sublist [⟨1, 1⟩, ⟨0, 1⟩] ks := by
  intro acts insertion
  have ht : (run acts).space.table? 0 =
      some ⟨0, 0, "t", ⟨[1, 2], 1⟩, #[some ⟨1, 1⟩, none], 2, 3, false⟩ := by rfl
  have ht' : (run (acts ++ [insertion])).space.table? 0 = some sampleTable := by rfl
  have hlist : (run acts).Lists 0 0 [⟨1, 1⟩, ⟨0, 1⟩] := by rfl
  have hlist' : (run (acts ++ [insertion])).Lists 0 0 [⟨2, 1⟩, ⟨1, 1⟩, ⟨0, 1⟩] := by rfl
  have hstay : ∀ before, before <+: [insertion] → ∃ ks, (run (acts ++ before)).Lists 0 0 ks ∧
      ⟨1, 1⟩ ∈ ks ∧ ⟨0, 1⟩ ∈ ks := by
    intro before hb
    rcases List.prefix_cons_iff.mp hb with rfl | ⟨rest, rfl, hrest⟩
    · rw [List.append_nil]
      exact ⟨_, hlist, by decide, by decide⟩
    · rw [List.prefix_nil.mp hrest]
      exact ⟨_, hlist', by decide, by decide⟩
  obtain ⟨hs, hl, -, -, -, horder⟩ := snapshots_stable acts ht
  obtain rfl : hs = [⟨1, 1⟩, ⟨0, 1⟩] := by
    rw [Lists, hlist] at hl
    cases hl
    rfl
  obtain ⟨ks, hks, hiff⟩ := horder [insertion] sampleTable ht' rfl ⟨1, 1⟩ ⟨0, 1⟩ hstay
  exact ⟨hlist, hlist', ks, hks, hiff.mpr (List.Sublist.refl _)⟩

end Session
end RecordIndex
