import Mathlib
import RecordIndex.Proofs.Workspace.Changes

/-! # The fate of one table

Seen from a single table that is in use after a change, there are four cases: the change was no
concern of it, or it opened the table, or a record was inserted into it or unlinked from it.
-/
namespace RecordIndex
variable {α : Type}

def Deed.alters : Deed → Option TableId
  | .inserted t _ _ => some t
  | .unlinked t _ => some t
  | _ => none

def Deed.retires : Deed → Option TableId
  | .ended t => some t
  | .closed t => some t
  | _ => none

namespace Workspace

inductive Fate (w : Workspace α) (deed : Deed) (t : TableId) (table' : Table) (a' : Arena α) :
    Prop where
  | kept {a : Arena α} {cs : Chains} (hu : w.Uses t table' a) (ht : table'.Indexes a cs)
      (hne : deed.alters ≠ some t) (he : ∀ h ∈ cs.flatten, a'.thread? h = a.thread? h)
  | opened {m : Allocator} {p : ArenaId} {name : String} {policy : Policy}
      (hd : deed = .opened t p) (ht : t = w.tables.size)
      (hc : Table.create m t p name policy = .ok table')
  | inserted {table : Table} {a : Arena α} {cs cs' : Chains} {h : Handle} {r : Record α}
      {events : List Event} (hd : deed = .inserted t h events) (hu : w.Uses t table a)
      (ht : table.Indexes a cs) (hr : a.get? h = some r) (hl : r.linked = false)
      (hi : table.Inserted a cs h r.key table' a' cs' events)
  | unlinked {table : Table} {a : Arena α} {cs : Chains} {h : Handle} (hd : deed = .unlinked t h)
      (hu : w.Uses t table a) (ht : table.Indexes a cs) (hi : table.Unlinked a cs h table' a')

variable {w w' : Workspace α} {held : Holdings} {deed : Deed} {t u : TableId} {table : Table}
  {a a' : Arena α}

theorem Change.lt_of_alters (hc : Change w deed w') (ht : deed.alters = some t) :
    t < w.tables.size := by
  cases hc with
  | inserted hu =>
    cases ht
    exact hu.lt_size
  | unlinked hu =>
    cases ht
    exact hu.lt_size
  | _ => cases ht

theorem Sound.fate_kept (hw : w.Sound held) (ht : w.tables[t]? = some (.active table))
    (hne : deed.alters ≠ some t)
    (he : ∀ a, w.Uses t table a → ∀ h ∈ (held t).records, a'.thread? h = a.thread? h) :
    Fate w deed t table a' := by
  have htable : w.table? t = some table := by rw [table?, ht]
  obtain ⟨a, hu⟩ := hw.exists_uses htable
  obtain ⟨-, -, cs, hcs, hperm⟩ := hw.uses hu
  exact .kept hu hcs hne fun h hh => he a hu h (hperm.mem_iff.mp hh)

theorem Sound.fate_still (hw : w.Sound held) (h : w'.Uses t table a') (hp : w'.arenas = w.arenas)
    (ht : w.tables[t]? = some (.active table)) (hne : deed.alters ≠ some t) :
    Fate w deed t table a' := by
  apply hw.fate_kept ht hne
  intro a hu k _
  have ha := h.arenas
  rw [hp, hu.arenas] at ha
  cases ha
  rfl

theorem Sound.fate_apart (hw : w.Sound held) {hs : List Handle}
    (hc : Transfer w held u hs w') (hu : t ≠ u) (ht : w'.Uses t table a')
    (hne : deed.alters ≠ some t) : Fate w deed t table a' := by
  obtain ⟨htab, hthread⟩ := hw.transfer_other hc hu
  apply hw.fate_kept (htab.symm.trans ht.tables) hne
  intro a hua h hh
  have he := hthread h hh
  rwa [← (hw.uses hua).2.1, thread?_of_arena ht.arenas, thread?_of_arena hua.arenas] at he

theorem uses_put {table' : Table} {b : Arena α} (hu : w.Uses t table a)
    (hp : table'.arena = table.arena) {table'' : Table} (h : (w.put t table' b).Uses t table'' a') :
    table'' = table' ∧ a' = b := by
  have htab := h.tables
  rw [put, tables_setTable (w := w.setArena table'.arena b) hu.tables, if_pos rfl] at htab
  cases htab
  have ha := h.arenas
  rw [put, setTable, hp, arenas_setArena hu.arenas, if_pos rfl] at ha
  cases ha
  exact ⟨rfl, rfl⟩

theorem not_uses_setTable {x' : Holding} (hx : ∀ table, x' ≠ .active table) :
    ¬ (w.setTable t x').Uses t table a' := by
  intro h
  have htab := h.tables
  simp only [setTable, Array.getElem?_setIfInBounds_self] at htab
  split at htab
  · exact hx table (Option.some.inj htab)
  · cases htab

theorem Sound.fate (hw : w.Sound held) (hc : Change w deed w') (h : w'.Uses t table a') :
    Fate w deed t table a' := by
  cases hc with
  | quiet hq =>
    have htab := h.tables
    rw [hq.tables] at htab
    apply hw.fate_kept htab (by simp [Deed.alters])
    intro a hu k _
    obtain ⟨b, hb, -, he⟩ := hq.kept _ a hu.arenas
    rw [h.arenas] at hb
    cases hb
    exact he k
  | opened ha hc =>
    have htab := h.tables
    rw [Array.getElem?_push] at htab
    split at htab
    · rename_i ht
      cases htab
      subst ht
      exact .opened rfl rfl hc
    · exact hw.fate_still h rfl htab (by simp [Deed.alters])
  | @inserted u _ table' _ b _ _ k r events hu ht hr hl hi =>
    by_cases htu : t = u
    · subst htu
      obtain ⟨rfl, rfl⟩ := uses_put hu hi.same.arena h
      exact .inserted rfl hu ht hr hl hi
    · exact hw.fate_apart (hw.transfer_inserted hu ht hr hl hi) htu h
        fun he => htu (Option.some.inj he).symm
  | @unlinked u _ table' _ b _ k hu ht hi =>
    by_cases htu : t = u
    · subst htu
      obtain ⟨rfl, rfl⟩ := uses_put hu hi.same.arena h
      exact .unlinked rfl hu ht hi
    · exact hw.fate_apart (hw.transfer_unlinked hu ht hi) htu h
        fun he => htu (Option.some.inj he).symm
  | ended u =>
    by_cases htu : t = u
    · subst htu
      exact absurd h (not_uses_setTable fun _ he => by cases he)
    · have htab := h.tables
      rw [drop, setTable, Array.getElem?_setIfInBounds_ne (Ne.symm htu)] at htab
      exact hw.fate_still h rfl htab (by simp [Deed.alters])
  | @closed u _ _ hu =>
    by_cases htu : t = u
    · subst htu
      exact absurd h (not_uses_setTable fun _ he => by cases he)
    · have htab := h.tables
      rw [setTable, Array.getElem?_setIfInBounds_ne (Ne.symm htu)] at htab
      exact hw.fate_still h rfl htab (by simp [Deed.alters])
  | @taken u _ _ _ _ ht ha hn =>
    by_cases htu : t = u
    · subst htu
      exact absurd h (not_uses_setTable fun _ he => by cases he)
    · exact hw.fate_apart (hw.transfer_taken ht ha hn) htu h (by simp [Deed.alters])

/-- A change that neither alters a table nor ends its use leaves it as it is. -/
theorem Sound.kept (hw : w.Sound held) (hc : Change w deed w') (hu : w.Uses t table a)
    {cs : Chains} (hcs : table.Indexes a cs) (halters : deed.alters ≠ some t)
    (hretires : deed.retires ≠ some t) :
    ∃ a', w'.Uses t table a' ∧ table.Indexes a' cs ∧
      ∀ h ∈ cs.flatten, a'.thread? h = a.thread? h := by
  have hother : ∀ {v : Workspace α} {u : TableId} {x y : Holding}, v.tables = w.tables →
      w.tables[u]? = some x → some u ≠ some t →
      (v.setTable u y).tables[t]? = some (.active table) := by
    intro v u x y hv hx hne
    rw [← hv] at hx
    rw [tables_setTable hx, if_neg fun he => hne (congrArg some he.symm), hv, hu.tables]
  have htab : w'.tables[t]? = some (.active table) := by
    cases hc with
    | quiet hq => rw [hq.tables, hu.tables]
    | opened =>
      rw [Array.getElem?_push_lt hu.lt_size, ← Array.getElem?_eq_getElem hu.lt_size, hu.tables]
    | inserted hv => exact hother rfl hv.tables halters
    | unlinked hv => exact hother rfl hv.tables halters
    | ended u =>
      have hne : u ≠ t := fun he => hretires (congrArg some he)
      rw [drop, setTable, Array.getElem?_setIfInBounds_ne hne, hu.tables]
    | closed hv => exact hother rfl hv.tables hretires
    | @taken u _ _ _ _ hx =>
      have hne : some u ≠ some t := by
        rintro he
        cases he
        rw [hu.tables] at hx
        cases hx
      exact hother rfl hx hne
  obtain ⟨a', hu'⟩ := (hw.step hc).exists_uses (by rw [table?, htab])
  refine ⟨a', hu', ?_⟩
  cases hw.fate hc hu' with
  | kept hua hks _ he =>
    obtain ⟨-, rfl⟩ := hu.unique hua
    obtain rfl := hcs.unique hks
    exact ⟨hcs.congr he, he⟩
  | opened _ hsize => exact absurd hsize hu.lt_size.ne
  | inserted hd => exact absurd (hd ▸ rfl) halters
  | unlinked hd => exact absurd (hd ▸ rfl) halters

theorem Sound.inserted (hw : w.Sound held) {h : Handle} {events : List Event} {table' : Table}
    (hc : Change w (.inserted t h events) w') (hu : w.Uses t table a)
    (hu' : w'.Uses t table' a') : ∃ cs cs' key, table.Indexes a cs ∧
      table.Inserted a cs h key table' a' cs' events := by
  cases hw.fate hc hu' with
  | inserted hd hv hcs _ _ hi =>
    obtain ⟨rfl, rfl⟩ := hu.unique hv
    cases hd
    exact ⟨_, _, _, hcs, hi⟩
  | kept _ _ hne => exact absurd rfl hne
  | opened hd => cases hd
  | unlinked hd => cases hd

theorem Sound.size_le (hw : w.Sound held) (hc : Change w deed w') :
    w.tables.size ≤ w'.tables.size := by
  rcases hw.change_cases hc with ⟨hq, -⟩ | ⟨m, p, a, name, policy, table, -, -, -, rfl⟩ |
    ⟨t, hs, ⟨a, a', x, x', -, -, -, -, rfl⟩, -⟩
  · rw [hq.tables]
  · simp
  · simp [setTable, setArena]

/-- A table that is no longer in use never is again, and it takes no record in. -/
theorem Sound.out_of_use (hw : w.Sound held) (hc : Change w deed w') (ht : t < w.tables.size)
    (hout : w.table? t = none) :
    w'.table? t = none ∧ (deed.account held t).records.length ≤ (held t).records.length := by
  have hactive : ∀ table a, ¬ w.Uses t table a := by
    intro table a hu
    simp [hu.table?] at hout
  constructor
  · by_contra hne
    obtain ⟨table', ht'⟩ := Option.ne_none_iff_exists'.mp hne
    obtain ⟨a', hu'⟩ := (hw.step hc).exists_uses ht'
    cases hw.fate hc hu' with
    | kept hu => exact hactive _ _ hu
    | opened _ heq => exact absurd heq (Nat.ne_of_lt ht)
    | inserted _ hu => exact hactive _ _ hu
    | unlinked _ hu => exact hactive _ _ hu
  · have hupdate : ∀ (u : TableId) (x : Held),
        (t = u → x.records.length ≤ (held t).records.length) →
        (Function.update held u x t).records.length ≤ (held t).records.length := by
      intro u x hx
      by_cases htu : t = u
      · subst htu
        rw [Function.update_self]
        exact hx rfl
      · rw [Function.update_of_ne htu]
    cases hc with
    | opened => exact hupdate _ _ fun _ => Nat.zero_le _
    | inserted hu =>
      refine hupdate _ _ fun he => ?_
      subst he
      exact absurd hu (hactive _ _)
    | unlinked hu =>
      refine hupdate _ _ fun he => ?_
      subst he
      exact absurd hu (hactive _ _)
    | taken =>
      refine hupdate _ _ fun he => ?_
      subst he
      exact List.length_erase_le
    | _ => exact le_rfl

end Workspace
end RecordIndex
