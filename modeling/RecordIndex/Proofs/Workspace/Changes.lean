import Mathlib
import RecordIndex.Proofs.Table.Insertion
import RecordIndex.Proofs.Workspace.Holdings

/-! # Changes of a workspace

Whatever an operation is called, it leaves all chains alone, or it does one of six things to one
table. Each of them keeps the workspace sound, and the account of the records held changes with it.
-/
namespace RecordIndex
variable {α : Type}

inductive Deed where
  | nothing
  | opened (t : TableId) (p : ArenaId)
  | inserted (t : TableId) (h : Handle) (events : List Event)
  | unlinked (t : TableId) (h : Handle)
  /-- The table is gone; what it held is left linked. -/
  | ended (t : TableId)
  /-- The table is no longer in use and about to be taken apart. -/
  | closed (t : TableId)
  | taken (t : TableId) (h : Handle)

def Deed.account (held : Holdings) : Deed → Holdings
  | .opened t p => Function.update held t ⟨p, []⟩
  | .inserted t h _ => Function.update held t { held t with records := h :: (held t).records }
  | .unlinked t h | .taken t h =>
    Function.update held t { held t with records := (held t).records.erase h }
  | _ => held

namespace Workspace

structure Uses (w : Workspace α) (t : TableId) (table : Table) (a : Arena α) : Prop where
  tables : w.tables[t]? = some (.active table)
  arenas : w.arenas[table.arena]? = some a

def put (w : Workspace α) (t : TableId) (table : Table) (a : Arena α) : Workspace α :=
  (w.setArena table.arena a).setTable t (.active table)

inductive Change (w : Workspace α) : Deed → Workspace α → Prop where
  | quiet {w' : Workspace α} (hq : Quiet w w') : Change w .nothing w'
  | opened {m : Allocator} {p : ArenaId} {a : Arena α} {name : String} {policy : Policy}
      {table : Table} (ha : w.arenas[p]? = some a)
      (hc : Table.create m w.tables.size p name policy = .ok table) :
      Change w (.opened w.tables.size p) { w with tables := w.tables.push (.active table) }
  | inserted {t : TableId} {table table' : Table} {a a' : Arena α} {cs cs' : Chains} {h : Handle}
      {r : Record α} {events : List Event} (hu : w.Uses t table a) (ht : table.Indexes a cs)
      (hr : a.get? h = some r) (hl : r.linked = false)
      (hi : table.Inserted a cs h r.key table' a' cs' events) :
      Change w (.inserted t h events) (w.put t table' a')
  | unlinked {t : TableId} {table table' : Table} {a a' : Arena α} {cs : Chains} {h : Handle}
      (hu : w.Uses t table a) (ht : table.Indexes a cs) (hi : table.Unlinked a cs h table' a') :
      Change w (.unlinked t h) (w.put t table' a')
  | ended (t : TableId) : Change w (.ended t) (w.drop t)
  | closed {t : TableId} {table : Table} {a : Arena α} (hu : w.Uses t table a) :
      Change w (.closed t) (w.setTable t (.closing (.of table)))
  | taken {t : TableId} {d d' : Teardown} {a : Arena α} {h : Handle}
      (ht : w.tables[t]? = some (.closing d)) (ha : w.arenas[d.arena]? = some a)
      (hn : d.next? a = (a.unlink h, .ok (some (h, d')))) :
      Change w (.taken t h) ((w.setArena d.arena (a.unlink h)).setTable t (.closing d'))

variable {w w' : Workspace α} {held : Holdings} {t : TableId} {table : Table} {a : Arena α}

theorem Sound.uses (hw : w.Sound held) (hu : w.Uses t table a) :
    table.id = t ∧ table.arena = (held t).arena ∧
      ∃ cs, table.Indexes a cs ∧ cs.flatten.Perm (held t).records := by
  obtain ⟨b, hb, hid, hp, cs, ht, hperm⟩ := hw.tables t _ hu.tables
  have ha := hu.arenas
  rw [hp, hb] at ha
  cases ha
  exact ⟨hid, hp, cs, ht, hperm⟩

theorem Sound.perm (hw : w.Sound held) (hu : w.Uses t table a) {cs : Chains}
    (ht : table.Indexes a cs) :
    table.id = t ∧ table.arena = (held t).arena ∧ cs.flatten.Perm (held t).records := by
  obtain ⟨hid, hp, ks, hks, hperm⟩ := hw.uses hu
  obtain rfl := ht.unique hks
  exact ⟨hid, hp, hperm⟩

theorem Uses.table? (hu : w.Uses t table a) : w.table? t = some table := by
  rw [Workspace.table?, hu.tables]

theorem Uses.lt_size (hu : w.Uses t table a) : t < w.tables.size :=
  (Array.getElem?_eq_some_iff.mp hu.tables).1

theorem Uses.unique (hu : w.Uses t table a) {table' : Table} {a' : Arena α}
    (hu' : w.Uses t table' a') : table = table' ∧ a = a' := by
  have htable := hu.tables.symm.trans hu'.tables
  cases htable
  have harena := hu.arenas.symm.trans hu'.arenas
  cases harena
  exact ⟨rfl, rfl⟩

theorem Change.uses_of_inserted {h : Handle} {events : List Event}
    (hc : Change w (.inserted t h events) w') :
    ∃ table a r, w.Uses t table a ∧ a.get? h = some r := by
  cases hc with
  | inserted hu _ hr => exact ⟨_, _, _, hu, hr⟩

theorem Change.exists_of_inserted {h : Handle} {events : List Event}
    (hc : Change w (.inserted t h events) w') (hu : w.Uses t table a) :
    ∃ r, a.get? h = some r := by
  obtain ⟨table', a', r, hu', hr⟩ := hc.uses_of_inserted
  obtain ⟨-, rfl⟩ := hu.unique hu'
  exact ⟨r, hr⟩

theorem Sound.table_eq (hw : w.Sound held) (hu : w.Uses t table a) {c : Cursor}
    (hv : c.isValid table = true) : c.table = t := by
  simp only [Cursor.isValid, Bool.and_eq_true, beq_iff_eq] at hv
  rw [hv.1, (hw.uses hu).1]

theorem Sound.exists_uses (hw : w.Sound held) (ht : w.table? t = some table) :
    ∃ a, w.Uses t table a := by
  have htab : w.tables[t]? = some (.active table) := by
    unfold table? at ht
    split at ht
    · rename_i table' he
      rw [he, Option.some.inj ht]
    · cases ht
  obtain ⟨a, ha, -, hp, -⟩ := hw.tables t _ htab
  exact ⟨a, htab, hp ▸ ha⟩

/-! ## One table and its arena -/

theorem arenas_setArena {p : ArenaId} (hp : w.arenas[p]? = some a) (a' : Arena α) (q : ArenaId) :
    (w.setArena p a').arenas[q]? = if q = p then some a' else w.arenas[q]? := by
  have hlt := (Array.getElem?_eq_some_iff.mp hp).1
  by_cases hq : q = p
  · subst hq
    rw [if_pos rfl]
    exact Array.getElem?_setIfInBounds_self_of_lt hlt
  · rw [if_neg hq]
    exact Array.getElem?_setIfInBounds_ne (Ne.symm hq)

theorem tables_setTable {x : Holding} (ht : w.tables[t]? = some x) (x' : Holding) (u : TableId) :
    (w.setTable t x').tables[u]? = if u = t then some x' else w.tables[u]? := by
  have hlt := (Array.getElem?_eq_some_iff.mp ht).1
  by_cases hu : u = t
  · subst hu
    rw [if_pos rfl]
    exact Array.getElem?_setIfInBounds_self_of_lt hlt
  · rw [if_neg hu]
    exact Array.getElem?_setIfInBounds_ne (Ne.symm hu)

/-- Between two states of an arena a table exchanges the records it holds: no others are touched,
those taken in were in no chain, and those given up are in none. -/
structure Exchange (a a' : Arena α) (old new : List Handle) : Prop where
  sound : a.Sound → a'.Sound
  nodup : new.Nodup
  other : ∀ k, k ∉ old → k ∉ new → a'.get? k = a.get? k
  takes : ∀ k ∈ new, k ∉ old → ∃ r, a.get? k = some r ∧ r.linked = false
  gives : ∀ k ∈ old, k ∉ new → ∀ r, a'.get? k = some r → r.linked = false
  linked : ∀ k ∈ new, ∃ r, a'.get? k = some r ∧ r.linked = true

variable {x x' : Holding} {a' : Arena α} {hs : List Handle}

theorem Sound.exchange_apart (hw : w.Sound held) (ha : w.arenas[(held t).arena]? = some a)
    (he : Exchange a a' (held t).records hs) {u : TableId} (hu : u ≠ t)
    (hp : (held u).arena = (held t).arena) {k : Handle} (hk : k ∈ (held u).records) :
    k ∉ hs ∧ a'.get? k = a.get? k := by
  have hkt : k ∉ (held t).records := fun hm => hw.apart u t hu hp hk hm
  have hks : k ∉ hs := by
    intro hm
    obtain ⟨r, hr, hl⟩ := he.takes k hm hkt
    obtain ⟨b, s, hb, hs, hsl⟩ := hw.linked u k hk
    rw [hp, ha] at hb
    cases hb
    rw [hr] at hs
    cases hs
    simp [hl] at hsl
  exact ⟨hks, he.other k hkt hks⟩

def thread? (w : Workspace α) (p : ArenaId) (h : Handle) : Option (UInt64 × Option Handle) :=
  w.arenas[p]?.bind (·.thread? h)

theorem thread?_of_arena {p : ArenaId} (ha : w.arenas[p]? = some a) (h : Handle) :
    w.thread? p h = a.thread? h := by
  rw [thread?, ha, Option.bind_some]

def Transfer (w : Workspace α) (held : Holdings) (t : TableId) (hs : List Handle)
    (w' : Workspace α) : Prop :=
  ∃ a a' x x', w.tables[t]? = some x ∧ w.arenas[(held t).arena]? = some a ∧
    Exchange a a' (held t).records hs ∧ x'.Holds t (held t).arena a' hs ∧
    w' = (w.setArena (held t).arena a').setTable t x'

section Transfer
variable {u : TableId} {y : Holding} {k : Handle}

theorem arena_update (held : Holdings) (t : TableId) (hs : List Handle) (u : TableId) :
    (Function.update held t { held t with records := hs } u).arena = (held u).arena := by
  by_cases hu : u = t
  · rw [hu, Function.update_self]
  · rw [Function.update_of_ne hu]

theorem Sound.transfer_holds (hw : w.Sound held) (ha : w.arenas[(held t).arena]? = some a)
    (he : Exchange a a' (held t).records hs) (hx : x'.Holds t (held t).arena a' hs)
    (hy : (if u = t then some x' else w.tables[u]?) = some y) :
    ∃ b, (w.setArena (held t).arena a').arenas[(held u).arena]? = some b ∧
      y.Holds u (held u).arena b
        (Function.update held t { held t with records := hs } u).records := by
  rw [arenas_setArena ha]
  by_cases hu : u = t
  · subst hu
    rw [if_pos rfl] at hy
    cases hy
    rw [if_pos rfl, Function.update_self]
    exact ⟨a', rfl, hx⟩
  · rw [if_neg hu] at hy
    rw [Function.update_of_ne hu]
    obtain ⟨b, hb, hholds⟩ := hw.tables u y hy
    by_cases hp : (held u).arena = (held t).arena
    · rw [if_pos hp]
      rw [hp, ha] at hb
      cases hb
      exact ⟨a', rfl, hholds.congr fun k hk =>
        Arena.thread?_congr (hw.exchange_apart ha he hu hp hk).2⟩
    · rw [if_neg hp]
      exact ⟨b, hb, hholds⟩

theorem Sound.transfer_linked (hw : w.Sound held) (ha : w.arenas[(held t).arena]? = some a)
    (he : Exchange a a' (held t).records hs)
    (hk : k ∈ (Function.update held t { held t with records := hs } u).records) :
    ∃ b r, (w.setArena (held t).arena a').arenas[(held u).arena]? = some b ∧
      b.get? k = some r ∧ r.linked = true := by
  rw [arenas_setArena ha]
  by_cases hu : u = t
  · subst hu
    rw [Function.update_self] at hk
    obtain ⟨r, hr, hl⟩ := he.linked k hk
    exact ⟨a', r, if_pos rfl, hr, hl⟩
  · rw [Function.update_of_ne hu] at hk
    obtain ⟨b, r, hb, hr, hl⟩ := hw.linked u k hk
    by_cases hp : (held u).arena = (held t).arena
    · rw [hp, ha] at hb
      cases hb
      have hget := (hw.exchange_apart ha he hu hp hk).2
      exact ⟨a', r, if_pos hp, hget.trans hr, hl⟩
    · exact ⟨b, r, (if_neg hp).trans hb, hr, hl⟩

theorem Sound.transfer_owned (hw : w.Sound held) (ha : w.arenas[(held t).arena]? = some a)
    (he : Exchange a a' (held t).records hs) {q : ArenaId} {b : Arena α} {r : Record α}
    (hq : (w.setArena (held t).arena a').arenas[q]? = some b) (hr : b.get? k = some r)
    (hl : r.linked = true) :
    ∃ u, (held u).arena = q ∧
      k ∈ (Function.update held t { held t with records := hs } u).records := by
  rw [arenas_setArena ha] at hq
  by_cases hp : q = (held t).arena
  · subst hp
    rw [if_pos rfl] at hq
    cases hq
    by_cases hk : k ∈ hs
    · exact ⟨t, rfl, by rw [Function.update_self]; exact hk⟩
    · -- not one of the new records, so it was not one of the old ones either
      have hkt : k ∉ (held t).records := by
        intro hm
        simp [he.gives k hm hk r hr] at hl
      rw [he.other k hkt hk] at hr
      obtain ⟨u, hu, hm⟩ := hw.owned _ a k r ha hr hl
      have hne : u ≠ t := by
        rintro rfl
        exact hkt hm
      exact ⟨u, hu, by rw [Function.update_of_ne hne]; exact hm⟩
  · rw [if_neg hp] at hq
    obtain ⟨u, hu, hm⟩ := hw.owned q b k r hq hr hl
    have hne : u ≠ t := by
      rintro rfl
      exact hp hu.symm
    exact ⟨u, hu, by rw [Function.update_of_ne hne]; exact hm⟩

theorem Sound.transfer_apart (hw : w.Sound held) (ha : w.arenas[(held t).arena]? = some a)
    (he : Exchange a a' (held t).records hs) {v : TableId} (huv : u ≠ v)
    (hp : (held u).arena = (held v).arena) :
    List.Disjoint (Function.update held t { held t with records := hs } u).records
      (Function.update held t { held t with records := hs } v).records := by
  intro k hk hm
  by_cases hu : u = t
  · have hv : v ≠ t := fun he => huv (hu.trans he.symm)
    subst hu
    rw [Function.update_self] at hk
    rw [Function.update_of_ne hv] at hm
    exact (hw.exchange_apart ha he hv hp.symm hm).1 hk
  · rw [Function.update_of_ne hu] at hk
    by_cases hv : v = t
    · subst hv
      rw [Function.update_self] at hm
      exact (hw.exchange_apart ha he hu hp hk).1 hm
    · rw [Function.update_of_ne hv] at hm
      exact hw.apart u v huv hp hk hm

theorem Sound.transfer (hw : w.Sound held) {w' : Workspace α} (hc : Transfer w held t hs w') :
    w'.Sound (Function.update held t { held t with records := hs }) := by
  obtain ⟨a, a', x, x', ht, ha, he, hx, rfl⟩ := hc
  have htables : ∀ u, ((w.setArena (held t).arena a').setTable t x').tables[u]? =
      if u = t then some x' else w.tables[u]? := fun u =>
    tables_setTable (w := w.setArena (held t).arena a') ht x' u
  constructor
  · intro q b hq
    rw [setTable, arenas_setArena ha] at hq
    split at hq
    · cases hq
      exact he.sound (hw.arenas _ a ha)
    · exact hw.arenas q b hq
  · intro u y hy
    rw [htables] at hy
    rw [arena_update]
    exact hw.transfer_holds ha he hx hy
  · intro u hu
    have hlt := (Array.getElem?_eq_some_iff.mp ht).1
    have hsize : w.tables.size ≤ u := by simpa [setTable, setArena] using hu
    have hne : u ≠ t := by omega
    rw [Function.update_of_ne hne]
    exact hw.fresh u hsize
  · intro u
    by_cases hu : u = t
    · rw [hu, Function.update_self]
      exact he.nodup
    · rw [Function.update_of_ne hu]
      exact hw.nodup u
  · intro u k hk
    rw [arena_update]
    exact hw.transfer_linked ha he hk
  · intro q b k r hq hr hl
    obtain ⟨u, hu, hm⟩ := hw.transfer_owned ha he hq hr hl
    exact ⟨u, (arena_update ..).trans hu, hm⟩
  · intro u v huv hp
    rw [arena_update, arena_update] at hp
    exact hw.transfer_apart ha he huv hp

/-- An exchange with one table leaves the others and their records alone. -/
theorem Sound.transfer_other (hw : w.Sound held) {w' : Workspace α} (hc : Transfer w held t hs w')
    (hu : u ≠ t) : w'.tables[u]? = w.tables[u]? ∧
      ∀ k ∈ (held u).records, w'.thread? (held u).arena k = w.thread? (held u).arena k := by
  obtain ⟨a, a', x, x', ht, ha, he, -, rfl⟩ := hc
  refine ⟨?_, fun k hk => ?_⟩
  · rw [tables_setTable (w := w.setArena (held t).arena a') ht, if_neg hu]
    rfl
  · rw [thread?, thread?, setTable, arenas_setArena ha]
    split
    · rename_i hp
      rw [hp, ha, Option.bind_some, Option.bind_some]
      exact Arena.thread?_congr (hw.exchange_apart ha he hu hp hk).2
    · rfl

end Transfer

/-! ## The changes one by one -/

theorem exchange_inserted {cs cs' : Chains} {h : Handle} {r : Record α} {table' : Table}
    {events : List Event} (ht : table.Indexes a cs) (hr : a.get? h = some r)
    (hl : r.linked = false) (hi : table.Inserted a cs h r.key table' a' cs' events)
    (hperm : cs.flatten.Perm hs) : Exchange a a' hs (h :: hs) where
  sound := hi.links.sound
  nodup := List.nodup_cons.mpr
    ⟨fun hm => ht.not_mem hr hl (hperm.mem_iff.mpr hm), hperm.nodup_iff.mp ht.threads.nodup⟩
  other k _ hk := hi.links.other k fun hm => hk ((hperm.cons h).mem_iff.mp hm)
  takes k hk hn := by
    rcases List.mem_cons.mp hk with rfl | hm
    · exact ⟨r, hr, hl⟩
    · exact absurd hm hn
  gives k hk hn := absurd (List.mem_cons_of_mem h hk) hn
  linked k hk := hi.links.linked k ((hperm.cons h).mem_iff.mpr hk)

theorem exchange_unlinked {cs : Chains} {h : Handle} {table' : Table} (ht : table.Indexes a cs)
    (hi : table.Unlinked a cs h table' a') (hperm : cs.flatten.Perm hs) :
    Exchange a a' hs (hs.erase h) where
  sound := hi.sound
  nodup := (hperm.nodup_iff.mp ht.threads.nodup).erase h
  other k hk _ := hi.other k fun hm => hk (hperm.mem_iff.mp hm)
  takes k hk hn := absurd (List.mem_of_mem_erase hk) hn
  gives k hk hn r hr := by
    have hnodup := hperm.nodup_iff.mp ht.threads.nodup
    have hkh : k = h := by
      by_contra hne
      exact hn (hnodup.mem_erase_iff.mpr ⟨hne, hk⟩)
    subst hkh
    obtain ⟨s, -, hs'⟩ := hi.detached
    rw [hs'] at hr
    cases hr
    rfl
  linked k hk := by
    apply hi.indexes.linked
    rw [Chains.flatten_without ht.threads.nodup]
    exact (hperm.erase h).mem_iff.mpr hk

theorem exchange_taken {h : Handle} {rest : List Handle} {d d' : Teardown}
    (hd : d.Remains a (h :: rest)) (hd' : d'.Remains (a.unlink h) rest)
    (hperm : (h :: rest).Perm hs) : Exchange a (a.unlink h) hs (hs.erase h) := by
  have hrest : rest.Perm (hs.erase h) := (List.cons_perm_iff_perm_erase.mp hperm).2
  have hnodup := hperm.nodup_iff.mp hd.nodup
  refine ⟨fun ha => ha.unlink h, hnodup.erase h, ?_, ?_, ?_, ?_⟩
  · intro k hk _
    have hne : k ≠ h := by
      rintro rfl
      exact hk (hperm.mem_iff.mp List.mem_cons_self)
    rw [Arena.get?_unlink, if_neg hne]
  · intro k hk hn
    exact absurd (List.mem_of_mem_erase hk) hn
  · intro k hk hn r hr
    have hkh : k = h := by
      by_contra hne
      exact hn (hnodup.mem_erase_iff.mpr ⟨hne, hk⟩)
    subst hkh
    rw [Arena.get?_unlink, if_pos rfl] at hr
    obtain ⟨s, -, rfl⟩ := Option.map_eq_some_iff.mp hr
    rfl
  · intro k hk
    exact hd'.linked k (hrest.mem_iff.mpr hk)

theorem Sound.opened (hw : w.Sound held) {p : ArenaId} (ha : w.arenas[p]? = some a)
    {m : Allocator} {name : String} {policy : Policy}
    (hc : Table.create m w.tables.size p name policy = .ok table) :
    ({ w with tables := w.tables.push (.active table) } : Workspace α).Sound
      (Function.update held w.tables.size ⟨p, []⟩) := by
  obtain ⟨hid, hp, -, -, n, ht⟩ := Table.indexes_create hc a
  have hempty := hw.fresh w.tables.size le_rfl
  have hother : ∀ u k, k ∈ (Function.update held w.tables.size ⟨p, []⟩ u).records →
      u ≠ w.tables.size ∧ k ∈ (held u).records := by
    intro u k hk
    by_cases hu : u = w.tables.size
    · simp [hu] at hk
    · rw [Function.update_of_ne hu] at hk
      exact ⟨hu, hk⟩
  refine ⟨hw.arenas, ?_, ?_, ?_, ?_, ?_, ?_⟩
  · intro u x hx
    rw [Array.getElem?_push] at hx
    by_cases hu : u = w.tables.size
    · subst hu
      rw [if_pos rfl] at hx
      cases hx
      rw [Function.update_self]
      exact ⟨a, ha, hid, hp, _, ht, by simp⟩
    · rw [if_neg hu] at hx
      rw [Function.update_of_ne hu]
      exact hw.tables u x hx
  · intro u hu
    rw [Array.size_push] at hu
    have hne : u ≠ w.tables.size := by omega
    rw [Function.update_of_ne hne]
    exact hw.fresh u (by omega)
  · intro u
    by_cases hu : u = w.tables.size
    · simp [hu]
    · rw [Function.update_of_ne hu]
      exact hw.nodup u
  · intro u k hk
    obtain ⟨hu, hk⟩ := hother u k hk
    rw [Function.update_of_ne hu]
    exact hw.linked u k hk
  · intro q b k r hq hr hl
    obtain ⟨u, hu, hm⟩ := hw.owned q b k r hq hr hl
    have hne : u ≠ w.tables.size := by
      rintro rfl
      simp [hempty] at hm
    exact ⟨u, by rw [Function.update_of_ne hne, hu], by rw [Function.update_of_ne hne]; exact hm⟩
  · intro u v huv hq k hk hm
    obtain ⟨hu, hk⟩ := hother u k hk
    obtain ⟨hv, hm⟩ := hother v k hm
    rw [Function.update_of_ne hu, Function.update_of_ne hv] at hq
    exact hw.apart u v huv hq hk hm

theorem put_uses {table' : Table} (hu : w.Uses t table a) (hp : table'.arena = table.arena)
    (a' : Arena α) : (w.put t table' a').Uses t table' a' where
  tables := by
    rw [put, tables_setTable (w := w.setArena table'.arena a') hu.tables, if_pos rfl]
  arenas := by
    rw [put, setTable, hp, arenas_setArena hu.arenas, if_pos rfl]

theorem setArena_self {p : ArenaId} (hp : w.arenas[p]? = some a) : w.setArena p a = w := by
  obtain ⟨hlt, rfl⟩ := Array.getElem?_eq_some_iff.mp hp
  rw [setArena, Array.setIfInBounds_def, dif_pos hlt, Array.set_getElem_self]

theorem put_self (hu : w.Uses t table a) : w.put t table a = w := by
  obtain ⟨hlt, he⟩ := Array.getElem?_eq_some_iff.mp hu.tables
  rw [put, setArena_self hu.arenas, setTable, Array.setIfInBounds_def, dif_pos hlt, ← he,
    Array.set_getElem_self]

theorem Sound.transfer_same (hw : w.Sound held) (ht : w.tables[t]? = some x) (x' : Holding)
    (hx : ∀ b : Arena α, x.Holds t (held t).arena b (held t).records →
      x'.Holds t (held t).arena b (held t).records) :
    Transfer w held t (held t).records (w.setTable t x') := by
  obtain ⟨b, hb, hholds⟩ := hw.tables t x ht
  have he : Exchange b b (held t).records (held t).records := by
    refine ⟨id, hw.nodup t, fun _ _ _ => rfl, fun _ hk hn => absurd hk hn,
      fun _ hk hn => absurd hk hn, ?_⟩
    intro k hk
    obtain ⟨c, r, hc, hr, hl⟩ := hw.linked t k hk
    rw [hb] at hc
    cases hc
    exact ⟨r, hr, hl⟩
  exact ⟨b, b, x, x', ht, hb, he, hx b hholds, by rw [setArena_self hb]⟩

theorem Sound.transfer_inserted (hw : w.Sound held) {table' : Table} {cs cs' : Chains}
    {h : Handle} {r : Record α} {events : List Event} (hu : w.Uses t table a)
    (ht : table.Indexes a cs) (hr : a.get? h = some r) (hl : r.linked = false)
    (hi : table.Inserted a cs h r.key table' a' cs' events) :
    Transfer w held t (h :: (held t).records) (w.put t table' a') := by
  obtain ⟨hid, hp, hperm⟩ := hw.perm hu ht
  refine ⟨a, a', .active table, .active table', hu.tables, hp ▸ hu.arenas,
    exchange_inserted ht hr hl hi hperm,
    ⟨hi.same.id.trans hid, hi.same.arena.trans hp, cs', hi.indexes, hi.perm.trans (hperm.cons h)⟩,
    ?_⟩
  rw [put, hi.same.arena, hp]

theorem Sound.transfer_unlinked (hw : w.Sound held) {table' : Table} {cs : Chains} {h : Handle}
    (hu : w.Uses t table a) (ht : table.Indexes a cs) (hi : table.Unlinked a cs h table' a') :
    Transfer w held t ((held t).records.erase h) (w.put t table' a') := by
  obtain ⟨hid, hp, hperm⟩ := hw.perm hu ht
  have herase : (cs.without h).flatten.Perm ((held t).records.erase h) := by
    rw [Chains.flatten_without ht.threads.nodup]
    exact hperm.erase h
  refine ⟨a, a', .active table, .active table', hu.tables, hp ▸ hu.arenas,
    exchange_unlinked ht hi hperm,
    ⟨hi.same.id.trans hid, hi.same.arena.trans hp, _, hi.indexes, herase⟩, ?_⟩
  rw [put, hi.same.arena, hp]

theorem Sound.transfer_taken (hw : w.Sound held) {d d' : Teardown} {h : Handle}
    (ht : w.tables[t]? = some (.closing d)) (ha : w.arenas[d.arena]? = some a)
    (hn : d.next? a = (a.unlink h, .ok (some (h, d')))) :
    Transfer w held t ((held t).records.erase h)
      ((w.setArena d.arena (a.unlink h)).setTable t (.closing d')) := by
  obtain ⟨b, hb, hp, rest, hd, hperm⟩ := hw.tables _ _ ht
  rw [hp] at ha ⊢
  rw [hb] at ha
  cases ha
  rcases hd.next? with ⟨hnone, -⟩ | ⟨k, rest, d', rfl, hsome, hp', hd'⟩
  · rw [hn] at hnone
    cases (Prod.mk.inj hnone).2
  · rw [hn] at hsome
    cases (Prod.mk.inj hsome).2
    have hrest := (List.cons_perm_iff_perm_erase.mp hperm).2
    exact ⟨_, _, .closing d, .closing d', ht, hb, exchange_taken hd hd' hperm,
      ⟨hp'.trans hp, rest, hd', hrest⟩, rfl⟩

/-- A change is quiet, it opens a table, or one table exchanges records with its arena. -/
theorem Sound.change_cases (hw : w.Sound held) {deed : Deed} (hc : Change w deed w') :
    (Quiet w w' ∧ deed.account held = held) ∨
      (∃ m p a name policy table, deed = .opened w.tables.size p ∧ w.arenas[p]? = some a ∧
        Table.create m w.tables.size p name policy = .ok table ∧
        w' = { w with tables := w.tables.push (.active table) }) ∨
      ∃ t hs, Transfer w held t hs w' ∧
        deed.account held = Function.update held t { held t with records := hs } := by
  cases hc with
  | quiet hq => exact Or.inl ⟨hq, rfl⟩
  | opened ha hc => exact Or.inr (Or.inl ⟨_, _, _, _, _, _, rfl, ha, hc, rfl⟩)
  | inserted hu ht hr hl hi =>
    exact Or.inr (Or.inr ⟨_, _, hw.transfer_inserted hu ht hr hl hi, rfl⟩)
  | unlinked hu ht hi => exact Or.inr (Or.inr ⟨_, _, hw.transfer_unlinked hu ht hi, rfl⟩)
  | ended t =>
    cases ht : w.tables[t]? with
    | none =>
      have hdrop : w.drop t = w := by
        rw [drop, setTable, Array.setIfInBounds_def, dif_neg (by simpa using ht)]
      rw [hdrop]
      exact Or.inl ⟨quiet_refl w, rfl⟩
    | some x =>
      have htransfer := hw.transfer_same ht .gone fun _ _ => trivial
      exact Or.inr (Or.inr ⟨t, _, htransfer, by rw [Function.update_eq_self]; rfl⟩)
  | closed hu =>
    have htransfer := hw.transfer_same hu.tables (.closing (.of _)) fun b hb => by
      obtain ⟨-, hp, cs, ht, hperm⟩ := hb
      exact ⟨hp, cs.flatten, Teardown.remains_of ht, hperm⟩
    exact Or.inr (Or.inr ⟨_, _, htransfer, by rw [Function.update_eq_self]; rfl⟩)
  | taken ht ha hn => exact Or.inr (Or.inr ⟨_, _, hw.transfer_taken ht ha hn, rfl⟩)

theorem Sound.step (hw : w.Sound held) {deed : Deed} (hc : Change w deed w') :
    w'.Sound (deed.account held) := by
  rcases hw.change_cases hc with ⟨hq, he⟩ | ⟨m, p, a, name, policy, table, rfl, ha, hnew, rfl⟩ |
    ⟨t, hs, ht, he⟩
  · rw [he]
    exact hw.quiet hq
  · exact hw.opened ha hnew
  · rw [he]
    exact hw.transfer ht

end Workspace
end RecordIndex
