import Mathlib
import RecordIndex.Proofs.Arena.Likeness
import RecordIndex.Proofs.Census.Table
import RecordIndex.Proofs.Session.Stacks
import RecordIndex.Proofs.Workspace.Registers

/-! # Twin workspaces

Two workspaces with arenas alike, in which one table has the same stacks, are twins over this table.
Its buckets and chains may differ in any way. Whatever is done to both leaves them twins and is
answered in the same way, as long as no insertion is refused for want of memory.
-/
namespace RecordIndex
variable {α : Type}

namespace Record

def Overlooks (same : Record α → Record α → Bool) : Prop :=
  ∀ r s : Record α, same r.bare s.bare = same r s

theorem Overlooks.right {same : Record α → Record α → Bool} (hs : Overlooks same)
    (r s : Record α) : same r s.bare = same r s := by
  rw [← hs r s.bare, bare_bare, hs]

end Record

/-- A search that overlooks successors meets the same in arenas alike. -/
theorem Arena.Alike.meets {a a' : Arena α} (ha : a.Alike a') {p : Handle → Record α → Bool}
    (hp : ∀ h r, p h r.bare = p h r) : a'.meets p = a.meets p := by
  have hbare : ∀ (b : Arena α) h, b.meets p h = (b.bare? h).any (p h) := by
    intro b h
    rw [Arena.meets, Arena.bare?]
    cases b.get? h with
    | none => rfl
    | some r => exact (hp h r).symm
  funext h
  rw [hbare, hbare, ha.bare?]

namespace Table
variable {t t' : Table} {a a' : Arena α} {cs : Chains}

theorem Inserted.bare? {h : Handle} {key : UInt64} {cs' : Chains} {events : List Event}
    (hi : t.Inserted a cs h key t' a' cs' events) (ht : t.Indexes a cs) (k : Handle) :
    a'.bare? k = if k = h then (a.bare? h).map ({ · with linked := true }) else a.bare? k :=
  hi.links.bare?_cons (fun _ hm => ht.linked hm) k

theorem Indexes.mem_iff_stack (hcs : t.Indexes a cs) (h : Handle) :
    h ∈ cs.flatten ↔ ∃ key, h ∈ stack a cs key := by
  constructor
  · intro hh
    obtain ⟨r, hr, -⟩ := hcs.linked hh
    refine ⟨r.key, List.mem_filter.mpr ⟨hh, ?_⟩⟩
    rw [Arena.hasKey_of_get? hr, beq_self_eq_true]
  · rintro ⟨key, hh⟩
    exact (List.mem_filter.mp hh).1

theorem map_bare_recordsOf (ha : a.Alike a') (hs : List Handle) :
    (recordsOf a' hs).map Record.bare = (recordsOf a hs).map Record.bare := by
  rw [recordsOf, recordsOf, List.map_filterMap, List.map_filterMap]
  congr 1
  funext h
  exact ha.bare? h

theorem perm_of_stack (hcs : t.Indexes a cs) (hcs' : t'.Indexes a' cs')
    (hstack : stack a' cs' = stack a cs) : cs'.flatten.Perm cs.flatten := by
  rw [List.perm_ext_iff_of_nodup hcs'.threads.nodup hcs.threads.nodup]
  intro h
  rw [hcs'.mem_iff_stack, hcs.mem_iff_stack, hstack]

/-- Over arenas alike with the same stacks a census counts keys and elements alike. -/
theorem Indexes.census_alike (hcs : t.Indexes a cs) (hcs' : t'.Indexes a' cs') (ha : a.Alike a')
    (hstack : stack a' cs' = stack a cs) {same : Record α → Record α → Bool}
    (hs : Record.Overlooks same) :
    ∃ c c', t.census a same = .ok c ∧ t'.census a' same = .ok c' ∧ c'.keys = c.keys ∧
      c'.elements = c.elements := by
  obtain ⟨ks, hn, hmem, hcensus⟩ := hcs.census_stacks
  obtain ⟨ks', hn', hmem', hcensus'⟩ := hcs'.census_stacks
  have hks : ks'.Perm ks := by
    rw [List.perm_ext_iff_of_nodup hn' hn]
    intro key
    rw [hmem', hmem, hstack]
  have hsizes : ∀ key, Census.elementSizes same [] (recordsOf a' (stack a cs key)) =
      Census.elementSizes same [] (recordsOf a (stack a cs key)) := by
    intro key
    have hsize := Census.elementSizes_map hs [] (recordsOf a' (stack a cs key))
    rw [map_bare_recordsOf ha, Census.elementSizes_map hs] at hsize
    exact hsize.symm
  refine ⟨_, _, hcensus same, hcensus' same, ?_, ?_⟩
  · simp only [hstack]
    exact Histogram.addAll_perm (hks.map _) _
  · simp only [hstack, hsizes]
    exact Histogram.addAll_perm (hks.flatMap_right _) _

theorem Unlinked.bare? {h : Handle} (hi : t.Unlinked a cs h t' a') (ht : t.Indexes a cs)
    (k : Handle) :
    a'.bare? k = if k = h then (a.bare? h).map Record.detach else a.bare? k := by
  by_cases hk : k = h
  · subst hk
    obtain ⟨r, hr, hr'⟩ := hi.detached
    rw [if_pos rfl, Arena.bare?, Arena.bare?, hr, hr']
    rfl
  · rw [if_neg hk]
    by_cases hm : k ∈ cs.flatten
    · have hm' : k ∈ (cs.without h).flatten := by
        rw [Chains.flatten_without ht.threads.nodup]
        exact (List.mem_erase_of_ne hk).mpr hm
      exact Arena.bare?_of_linked (hi.label k) (ht.linked hm) (hi.indexes.linked hm')
    · rw [Arena.bare?, Arena.bare?, hi.other k hm]

/-- A refusal for another reason than want of memory is one for every table over arenas alike. -/
theorem Declines.alike {m : Allocator} {h : Handle} {e : Failure} (hd : t.Declines m a h e)
    (hne : ∀ name n, e ≠ .allocationFailed name n) (ha : a.Alike a') :
    t'.insert m a' h = (t', a', [], .error e) := by
  have hbare := ha.bare? h
  rw [Arena.bare?, Arena.bare?] at hbare
  cases hd with
  | stale hr =>
    rw [hr, Option.map_none, Option.map_eq_none_iff] at hbare
    simp only [insert, hbare]
  | linked hr hl =>
    rw [hr, Option.map_some] at hbare
    obtain ⟨r', hr', he⟩ := Option.map_eq_some_iff.mp hbare
    have hl' : r'.linked = true := (congrArg Record.linked he).trans hl
    simp only [insert, hr', hl', if_true]
  | cramped => exact absurd rfl (hne _ _)

end Table

namespace Workspace
variable {w w' v v' : Workspace α} {held held' : Holdings} {t : TableId} {p q : ArenaId}
  {table table' : Table} {a a' : Arena α} {cs cs' : Chains}

/-- The arenas of the two workspaces are alike, and the table `t` over the arena `p` has the same
name and the same stacks in both. -/
structure Twins (w w' : Workspace α) (t : TableId) (p : ArenaId) : Prop where
  size : w'.arenas.size = w.arenas.size
  alike : ∀ (q : ArenaId) a a', w.arenas[q]? = some a → w'.arenas[q]? = some a' → a.Alike a'
  table : ∃ table table' a a' cs cs', w.Uses t table a ∧ w'.Uses t table' a' ∧
    table.Indexes a cs ∧ table'.Indexes a' cs' ∧ table.arena = p ∧ table'.arena = p ∧
    table'.name = table.name ∧ Table.stack a' cs' = Table.stack a cs

theorem Twins.arena_cases (h : Twins w w' t p) (q : ArenaId) :
    w.arenas[q]? = none ∧ w'.arenas[q]? = none ∨
      ∃ a a', w.arenas[q]? = some a ∧ w'.arenas[q]? = some a' ∧ a.Alike a' := by
  cases hq : w.arenas[q]? with
  | none =>
    refine Or.inl ⟨rfl, ?_⟩
    rw [Array.getElem?_eq_none_iff] at hq ⊢
    rwa [h.size]
  | some a =>
    have hlt := (Array.getElem?_eq_some_iff.mp hq).1
    rw [← h.size] at hlt
    have hq' := Array.getElem?_eq_getElem hlt
    exact Or.inr ⟨a, _, rfl, hq', h.alike q a _ hq hq'⟩

theorem Twins.bare? (h : Twins w w' t p) (q : ArenaId) (k : Handle) :
    ((w'.arenas[q]?).bind (·.get? k)).map Record.bare =
      ((w.arenas[q]?).bind (·.get? k)).map Record.bare := by
  rcases h.arena_cases q with ⟨hq, hq'⟩ | ⟨a, a', hq, hq', hlike⟩
  · rw [hq, hq']
  · rw [hq, hq']
    exact hlike.bare? k

/-- What is done to an arena in both leaves them twins. -/
theorem Twins.quiet (h : Twins w w' t p) (hw : w.Sound held) (hw' : w'.Sound held')
    (hq : Quiet w v) (hq' : Quiet w' v') (hsize : v'.arenas.size = v.arenas.size)
    (halike : ∀ (q : ArenaId) a a', v.arenas[q]? = some a → v'.arenas[q]? = some a' → a.Alike a') :
    Twins v v' t p := by
  obtain ⟨table, table', a, a', cs, cs', hu, hu', hcs, hcs', hp, hp', hname, hstack⟩ := h.table
  obtain ⟨b, hub, hbs, he⟩ := hw.kept (.quiet hq) hu hcs nofun nofun
  obtain ⟨b', hub', hbs', he'⟩ := hw'.kept (.quiet hq') hu' hcs' nofun nofun
  refine ⟨hsize, halike, table, table', b, b', cs, cs', hub, hub', hbs, hbs', hp, hp', hname, ?_⟩
  rw [stack_of_thread? hcs he, stack_of_thread? hcs' he', hstack]

theorem Twins.onArena {β : Type} (h : Twins w w' t p) (hw : w.Sound held) (hw' : w'.Sound held')
    (q : ArenaId) {f : Arena α → Arena α × Except Failure β}
    (hf : ∀ a a' : Arena α, a.Sound → a'.Sound → a.Alike a' →
      (f a').2 = (f a).2 ∧ (f a).1.Alike (f a').1)
    (hquiet : ∀ a : Arena α, a.Sound → (f a).1.Sound ∧ ∀ h, (f a).1.thread? h = a.thread? h) :
    Twins (w.onArena q f).1 (w'.onArena q f).1 t p ∧
      (w'.onArena q f).2 = (w.onArena q f).2 := by
  have hkept := hw.onArena q hquiet
  have hkept' := hw'.onArena q hquiet
  rcases h.arena_cases q with ⟨ha, ha'⟩ | ⟨a, a', ha, ha', hlike⟩
  · have hget : w.getArena q = .error .unknownReference := by rw [getArena, arena?, ha]
    have hget' : w'.getArena q = .error .unknownReference := by rw [getArena, arena?, ha']
    simp only [Workspace.onArena, hget, hget', and_true]
    exact h
  · obtain ⟨hanswer, hlike'⟩ := hf a a' (hw.arenas q a ha) (hw'.arenas q a' ha') hlike
    rw [onArena_eq ha] at hkept ⊢
    rw [onArena_eq ha'] at hkept' ⊢
    refine ⟨h.quiet hw hw' hkept hkept' (by simp [setArena, h.size]) ?_, hanswer⟩
    intro r b b' hb hb'
    rw [arenas_setArena ha] at hb
    rw [arenas_setArena ha'] at hb'
    split at hb
    · rename_i hr
      rw [if_pos hr] at hb'
      cases hb
      cases hb'
      exact hlike'
    · rename_i hr
      rw [if_neg hr] at hb'
      exact h.alike r b b' hb hb'

theorem Twins.alloc (h : Twins w w' t p) (hw : w.Sound held) (hw' : w'.Sound held') (q : ArenaId)
    (r : Record α) :
    Twins (w.alloc q r).1 (w'.alloc q r).1 t p ∧ (w'.alloc q r).2 = (w.alloc q r).2 :=
  h.onArena hw hw' q
    (fun _ _ _ _ ha => ⟨congrArg Except.ok (ha.alloc r).1, (ha.alloc r).2⟩)
    fun a ha => ⟨ha.alloc r, a.thread?_alloc r ha⟩

theorem Twins.release (h : Twins w w' t p) (hw : w.Sound held) (hw' : w'.Sound held')
    (q : ArenaId) (k : Handle) :
    Twins (w.release q k).1 (w'.release q k).1 t p ∧ (w'.release q k).2 = (w.release q k).2 :=
  h.onArena hw hw' q (fun _ _ hs hs' ha => ha.release hs hs' k)
    fun a ha => ⟨ha.release k, a.thread?_release k⟩

theorem Twins.rekey (h : Twins w w' t p) (hw : w.Sound held) (hw' : w'.Sound held')
    (q : ArenaId) (k : Handle) (key : UInt64) :
    Twins (w.rekey q k key).1 (w'.rekey q k key).1 t p ∧
      (w'.rekey q k key).2 = (w.rekey q k key).2 :=
  h.onArena hw hw' q (fun _ _ _ _ ha => ha.rekey k key)
    fun a ha => ⟨ha.rekey k key, a.thread?_rekey k key⟩

theorem Twins.setPayload (h : Twins w w' t p) (hw : w.Sound held) (hw' : w'.Sound held')
    (q : ArenaId) (k : Handle) (payload : α) :
    Twins (w.setPayload q k payload).1 (w'.setPayload q k payload).1 t p ∧
      (w'.setPayload q k payload).2 = (w.setPayload q k payload).2 :=
  h.onArena hw hw' q
    (fun _ _ _ _ ha => ⟨congrArg Except.ok (ha.setPayload k payload).1,
      (ha.setPayload k payload).2⟩)
    fun a ha => ⟨ha.setPayload k payload, a.thread?_setPayload k payload⟩

theorem Twins.addArena (h : Twins w w' t p) (hw : w.Sound held) (hw' : w'.Sound held') :
    Twins w.addArena.1 w'.addArena.1 t p := by
  have hsize : w'.addArena.1.arenas.size = w.addArena.1.arenas.size := by
    simp [Workspace.addArena, h.size]
  refine h.quiet hw hw' (quiet_addArena w) (quiet_addArena w') hsize ?_
  intro r b b' hb hb'
  simp only [Workspace.addArena, Array.getElem?_push, h.size] at hb hb'
  split at hb
  · rename_i hr
    rw [if_pos hr] at hb'
    cases hb
    cases hb'
    exact rfl
  · rename_i hr
    rw [if_neg hr] at hb'
    exact h.alike r b b' hb hb'

/-- What is done to the table in both leaves them twins if it does the same to the stacks and the
registers. -/
theorem Twins.put (h : Twins w w' t p) (hu : w.Uses t table a) (hu' : w'.Uses t table' a')
    {b b' : Table} {c c' : Arena α} {ds ds' : Chains} (hs : table.SameTable b)
    (hs' : table'.SameTable b') (hds : b.Indexes c ds) (hds' : b'.Indexes c' ds')
    (hlike : c.Alike c') (hstack : Table.stack c' ds' = Table.stack c ds) :
    Twins (w.put t b c) (w'.put t b' c') t p := by
  obtain ⟨table₀, table₀', a₀, a₀', _, _, hu₀, hu₀', -, -, hp, hp', hname, -⟩ := h.table
  obtain ⟨rfl, rfl⟩ := hu.unique hu₀
  obtain ⟨rfl, rfl⟩ := hu'.unique hu₀'
  refine ⟨by simp [Workspace.put, setTable, setArena, h.size], ?_, b, b', c, c', ds, ds',
    put_uses hu hs.arena c, put_uses hu' hs'.arena c', hds, hds', hs.arena.trans hp,
    hs'.arena.trans hp', by rw [hs.name, hs'.name, hname], hstack⟩
  intro r d d' hd hd'
  rw [Workspace.put, setTable, hs.arena, arenas_setArena hu.arenas] at hd
  rw [Workspace.put, setTable, hs'.arena, arenas_setArena hu'.arenas] at hd'
  rw [hp] at hd
  rw [hp'] at hd'
  split at hd
  · rename_i hr
    rw [if_pos hr] at hd'
    cases hd
    cases hd'
    exact hlike
  · rename_i hr
    rw [if_neg hr] at hd'
    exact h.alike r d d' hd hd'

theorem Twins.inserted (h : Twins w w' t p) (hu : w.Uses t table a) (hu' : w'.Uses t table' a')
    (hcs : table.Indexes a cs) (hcs' : table'.Indexes a' cs') (hlike : a.Alike a')
    (hstack : Table.stack a' cs' = Table.stack a cs) {k : Handle} {r r' : Record α}
    (hr : a.get? k = some r) (hr' : a'.get? k = some r') {b b' : Table} {c c' : Arena α}
    {ds ds' : Chains} {events events' : List Event}
    (hi : table.Inserted a cs k r.key b c ds events)
    (hi' : table'.Inserted a' cs' k r'.key b' c' ds' events')
    (hreg : c.register = a.register) (hreg' : c'.register = a'.register) :
    Twins (w.put t b c) (w'.put t b' c') t p := by
  have hkey : r'.key = r.key := by
    have hbare := hlike.bare? k
    rw [Arena.bare?, Arena.bare?, hr, hr'] at hbare
    have hkeys := congrArg Record.key (Option.some.inj hbare)
    exact hkeys
  refine h.put hu hu' hi.same hi'.same hi.indexes hi'.indexes ?_ ?_
  · refine Arena.alike_of_register (by rw [hreg, hreg', hlike.register]) fun j => ?_
    rw [hi.bare? hcs, hi'.bare? hcs', hlike.bare?, hlike.bare?]
  · rw [stack_inserted hi, stack_inserted hi', hstack, hkey]

theorem Twins.unlinked (h : Twins w w' t p) (hu : w.Uses t table a) (hu' : w'.Uses t table' a')
    (hcs : table.Indexes a cs) (hcs' : table'.Indexes a' cs') (hlike : a.Alike a')
    (hstack : Table.stack a' cs' = Table.stack a cs) {k : Handle} {b b' : Table} {c c' : Arena α}
    (hi : table.Unlinked a cs k b c) (hi' : table'.Unlinked a' cs' k b' c')
    (hreg : c.register = a.register) (hreg' : c'.register = a'.register) :
    Twins (w.put t b c) (w'.put t b' c') t p := by
  refine h.put hu hu' hi.same hi'.same hi.indexes hi'.indexes ?_ ?_
  · refine Arena.alike_of_register (by rw [hreg, hreg', hlike.register]) fun j => ?_
    rw [hi.bare? hcs, hi'.bare? hcs', hlike.bare?, hlike.bare?]
  · funext key
    rw [hi.stack hcs.threads.nodup, hi'.stack hcs'.threads.nodup, hstack]

/-- An operation on the table is refused in both, or it finds the table in both. -/
theorem Twins.getPair_cases (h : Twins w w' t p) (q : ArenaId) :
    (∃ e, w.getPair t q = .error e ∧ w'.getPair t q = .error e) ∨
      ∃ table table' a a' cs cs', w.Uses t table a ∧ w'.Uses t table' a' ∧
        table.arena = q ∧ table'.arena = q ∧
        table.Indexes a cs ∧ table'.Indexes a' cs' ∧ a.Alike a' ∧
        Table.stack a' cs' = Table.stack a cs := by
  obtain ⟨table, table', a, a', cs, cs', hu, hu', hcs, hcs', hp, hp', hname, hstack⟩ := h.table
  by_cases hq : q = p
  · subst hq
    have hlike := h.alike table.arena a a' hu.arenas (by rw [hp, ← hp']; exact hu'.arenas)
    exact Or.inr ⟨table, table', a, a', cs, cs', hu, hu', hp, hp', hcs, hcs', hlike, hstack⟩
  · refine Or.inl ⟨_, getPair_foreign hu.table? (by rwa [hp]), ?_⟩
    rw [getPair_foreign hu'.table? (by rwa [hp']), hname]

section
variable {β : Type} {refuse : Failure → β} {f : Table → Arena α → Table × Arena α × β}
  {answer : β}

theorem onPair_found_same (hu : w.Uses t table a) (hq : table.arena = q)
    (hf : f table a = (table, a, answer)) :
    w.onPair t q (w.getPair t q) refuse f = (w, answer) := by
  subst hq
  rw [hu.getPair, onPair_same hu hf]

theorem onPair_found_put {b : Table} {c : Arena α} (hu : w.Uses t table a) (hq : table.arena = q)
    (hf : f table a = (b, c, answer)) (hs : table.SameTable b) :
    w.onPair t q (w.getPair t q) refuse f = (w.put t b c, answer) := by
  subst hq
  rw [hu.getPair, onPair_put hf hs]

end

/-- Unless memory is wanted, an insertion is refused in both or done in both. -/
theorem Twins.insert (h : Twins w w' t p) (m : Allocator) (q : ArenaId) (k : Handle)
    (hroom : ∀ name n, (w.insert m t q k).2.2 ≠ .error (.allocationFailed name n))
    (hroom' : ∀ name n, (w'.insert m t q k).2.2 ≠ .error (.allocationFailed name n)) :
    Twins (w.insert m t q k).1 (w'.insert m t q k).1 t p ∧
      (w'.insert m t q k).2.2 = (w.insert m t q k).2.2 := by
  unfold Workspace.insert at hroom hroom' ⊢
  rcases h.getPair_cases q with
    ⟨e, he, he'⟩ | ⟨table, table', a, a', cs, cs', hu, hu', hq, hq', hcs, hcs', hlike, hstack⟩
  · simp only [he, he', Workspace.onPair, and_true]
    exact h
  · have hreg := table.register_insert m a k
    have hreg' := table'.register_insert m a' k
    rcases hcs.insert m k with ⟨e, he, hd⟩ | ⟨r, b, c, ds, events, hr, -, he, hi⟩
    · rw [onPair_found_same (f := (·.insert m · k)) hu hq he] at hroom ⊢
      have hne : ∀ name n, e ≠ .allocationFailed name n := fun name n hn =>
        hroom name n (congrArg Except.error hn)
      rw [onPair_found_same (f := (·.insert m · k)) hu' hq' (hd.alike hne hlike)]
      exact ⟨h, rfl⟩
    · rcases hcs'.insert m k with ⟨e', he', hd'⟩ | ⟨r', b', c', ds', events', hr', -, he', hi'⟩
      · rw [onPair_found_same (f := (·.insert m · k)) hu' hq' he'] at hroom'
        have hne : ∀ name n, e' ≠ .allocationFailed name n := fun name n hn =>
          hroom' name n (congrArg Except.error hn)
        have hrefused : table.insert m a k = (table, a, [], .error e') := hd'.alike hne hlike.symm
        rw [he] at hrefused
        cases hrefused
      · rw [onPair_found_put (f := (·.insert m · k)) hu hq he hi.same,
          onPair_found_put (f := (·.insert m · k)) hu' hq' he' hi'.same]
        rw [he] at hreg
        rw [he'] at hreg'
        exact ⟨h.inserted hu hu' hcs hcs' hlike hstack hr hr' hi hi' hreg hreg', rfl⟩

/-- A removal whose comparator overlooks successors takes the same record out of both. -/
theorem Twins.removeFirst (h : Twins w w' t p) (q : ArenaId) (key : UInt64)
    (accept : Record α → Bool) (haccept : ∀ r, accept r.bare = accept r) :
    let f := fun (table : Table) (a : Arena α) =>
      table.removeFirst a key (Table.accepts key accept)
    Twins (w.onPair t q (w.getPair t q) .error f).1 (w'.onPair t q (w'.getPair t q) .error f).1 t
        p ∧
      (w'.onPair t q (w'.getPair t q) .error f).2 = (w.onPair t q (w.getPair t q) .error f).2 := by
  intro f
  rcases h.getPair_cases q with
    ⟨e, he, he'⟩ | ⟨table, table', a, a', cs, cs', hu, hu', hq, hq', hcs, hcs', hlike, hstack⟩
  · simp only [he, he', Workspace.onPair, and_true]
    exact h
  · have hmeets : a'.meets (Table.accepts key accept) = a.meets (Table.accepts key accept) :=
      hlike.meets fun _ r => congrArg (r.key == key && ·) (haccept r)
    have hreg := table.register_removeFirst a key (Table.accepts key accept)
    have hreg' := table'.register_removeFirst a' key (Table.accepts key accept)
    have hfind' := hcs'.removeFirst (Table.keyedBy_accepts a' key accept)
    rw [hstack, hmeets] at hfind'
    rcases hcs.removeFirst (Table.keyedBy_accepts a key accept) with
      ⟨he, hf⟩ | ⟨x, b, c, he, hf, hi⟩ <;> rw [hf] at hfind'
    · rcases hfind' with ⟨he', -⟩ | ⟨x, -, -, -, hx, -⟩
      · rw [onPair_found_same (f := f) hu hq he, onPair_found_same (f := f) hu' hq' he']
        exact ⟨h, rfl⟩
      · cases hx
    · rcases hfind' with ⟨-, hx⟩ | ⟨x', b', c', he', hx, hi'⟩
      · cases hx
      · cases hx
        rw [onPair_found_put (f := f) hu hq he hi.same,
          onPair_found_put (f := f) hu' hq' he' hi'.same]
        rw [he] at hreg
        rw [he'] at hreg'
        exact ⟨h.unlinked hu hu' hcs hcs' hlike hstack hi hi' hreg hreg', rfl⟩

theorem Twins.lookup (h : Twins w w' t p) (q : ArenaId) (key : UInt64) :
    w'.lookup t q key = w.lookup t q key := by
  unfold Workspace.lookup
  rcases h.getPair_cases q with
    ⟨e, he, he'⟩ | ⟨table, table', a, a', cs, cs', hu, hu', rfl, hq', hcs, hcs', hlike, hstack⟩
  · rw [he, he']
  · rw [← hq', hu'.getPair, hq', hu.getPair]
    simp only [bind, Except.bind, hcs.lookup, hcs'.lookup, hstack]

theorem Twins.lookupSame (h : Twins w w' t p) (q : ArenaId) (template : Record α)
    {same : Record α → Record α → Bool} (hs : Record.Overlooks same) :
    w'.lookupSame t q template same = w.lookupSame t q template same := by
  unfold Workspace.lookupSame
  rcases h.getPair_cases q with
    ⟨e, he, he'⟩ | ⟨table, table', a, a', cs, cs', hu, hu', rfl, hq', hcs, hcs', hlike, hstack⟩
  · rw [he, he']
  · have hmeets := hlike.meets (p := fun _ => same template) fun _ => hs.right template
    rw [← hq', hu'.getPair, hq', hu.getPair]
    simp only [bind, Except.bind, hcs.lookupSame, hcs'.lookupSame, hstack, hmeets]

theorem twins_create {m m' : Allocator} {name : String} {first second : Policy}
    (hv : w.create m p name first = (v, .ok t)) (hv' : w.create m' p name second = (v', .ok t)) :
    Twins v v' t p := by
  obtain ⟨a, table, hp, hc, rfl, rfl⟩ := create_ok hv
  obtain ⟨a', table', hp', hc', -, rfl⟩ := create_ok hv'
  obtain rfl : a = a' := Option.some.inj (hp.symm.trans hp')
  obtain ⟨-, harena, hname, -, n, hn⟩ := Table.indexes_create hc a
  obtain ⟨-, harena', hname', -, n', hn'⟩ := Table.indexes_create hc' a
  have hempty : ∀ n, Table.stack a (List.replicate n []) = fun _ => [] := by
    intro n
    funext key
    simp [Table.stack]
  refine ⟨rfl, ?_, table, table', a, a, _, _, ⟨by simp, by rwa [harena]⟩,
    ⟨by simp, by rwa [harena']⟩, hn, hn', harena, harena', by rw [hname, hname'], ?_⟩
  · intro q b b' hb hb'
    obtain rfl : b = b' := Option.some.inj (hb.symm.trans hb')
    exact rfl
  · rw [hempty, hempty]

end Workspace
end RecordIndex
