import Mathlib
import RecordIndex.Proofs.Walk.Place
import RecordIndex.Proofs.Walk.Teardown
import RecordIndex.Workspace.Dismantling

/-! # What the tables of a workspace hold

Each table holds records of one arena. A workspace is sound for an account of these records if every
table is found with exactly the records it holds, a record is linked exactly when some table holds
it, and no two tables hold the same one. A table that is gone holds what it held last.
-/
namespace RecordIndex
variable {α : Type}

structure Held where
  arena : ArenaId
  records : List Handle

abbrev Holdings := TableId → Held

def Holding.Holds (t : TableId) (p : ArenaId) (a : Arena α) (hs : List Handle) : Holding → Prop
  | .active table => table.id = t ∧ table.arena = p ∧
      ∃ cs, table.Indexes a cs ∧ cs.flatten.Perm hs
  | .closing d => d.arena = p ∧ ∃ rest, d.Remains a rest ∧ rest.Perm hs
  | .gone => True

theorem Holding.Holds.congr {t : TableId} {p : ArenaId} {a a' : Arena α} {hs : List Handle}
    {x : Holding} (hx : x.Holds t p a hs) (he : ∀ h ∈ hs, a'.thread? h = a.thread? h) :
    x.Holds t p a' hs := by
  cases x with
  | active table =>
    obtain ⟨hid, hp, cs, ht, hperm⟩ := hx
    exact ⟨hid, hp, cs, ht.congr fun h hh => he h (hperm.mem_iff.mp hh), hperm⟩
  | closing d =>
    obtain ⟨hp, rest, hd, hperm⟩ := hx
    exact ⟨hp, rest, hd.congr fun h hh => he h (hperm.mem_iff.mp hh), hperm⟩
  | gone => exact trivial

namespace Workspace

structure Sound (w : Workspace α) (held : Holdings) : Prop where
  arenas : ∀ (p : ArenaId) a, w.arenas[p]? = some a → a.Sound
  tables : ∀ (t : TableId) x, w.tables[t]? = some x →
    ∃ a, w.arenas[(held t).arena]? = some a ∧ x.Holds t (held t).arena a (held t).records
  fresh : ∀ t, w.tables.size ≤ t → (held t).records = []
  nodup : ∀ t, (held t).records.Nodup
  linked : ∀ t, ∀ h ∈ (held t).records,
    ∃ a r, w.arenas[(held t).arena]? = some a ∧ a.get? h = some r ∧ r.linked = true
  owned : ∀ (p : ArenaId) a h r, w.arenas[p]? = some a → a.get? h = some r → r.linked = true →
    ∃ t, (held t).arena = p ∧ h ∈ (held t).records
  apart : ∀ t u, t ≠ u → (held t).arena = (held u).arena →
    List.Disjoint (held t).records (held u).records

variable {w w' : Workspace α} {held : Holdings}

@[simp] theorem table?_empty (t : TableId) : (empty : Workspace α).table? t = none := by
  simp [table?, empty]

theorem sound_empty : Sound (empty : Workspace α) fun _ => ⟨0, []⟩ where
  arenas := by simp [empty]
  tables := by simp [empty]
  fresh := by simp
  nodup := by simp
  linked := by simp
  owned := by simp [empty]
  apart := by simp

/-! ## Steps that leave every chain alone -/

/-- The tables are the same, and so are the links of every linked record. New arenas are empty. -/
structure Quiet (w w' : Workspace α) : Prop where
  tables : w'.tables = w.tables
  kept : ∀ (p : ArenaId) a, w.arenas[p]? = some a →
    ∃ a', w'.arenas[p]? = some a' ∧ (a.Sound → a'.Sound) ∧ ∀ h, a'.thread? h = a.thread? h
  added : ∀ (p : ArenaId) a', w'.arenas[p]? = some a' → w.arenas[p]? = none → a' = .empty

theorem quiet_refl (w : Workspace α) : Quiet w w where
  tables := rfl
  kept _ a hp := ⟨a, hp, id, fun _ => rfl⟩
  added _ a' hp hnone := by simp [hp] at hnone

theorem quiet_setArena {p : ArenaId} {a a' : Arena α} (hp : w.arenas[p]? = some a)
    (hsound : a.Sound → a'.Sound) (he : ∀ h, a'.thread? h = a.thread? h) :
    Quiet w (w.setArena p a') where
  tables := rfl
  kept q b hq := by
    by_cases hpq : p = q
    · subst hpq
      rw [hp] at hq
      cases hq
      have hlt := (Array.getElem?_eq_some_iff.mp hp).1
      exact ⟨a', Array.getElem?_setIfInBounds_self_of_lt hlt, hsound, he⟩
    · exact ⟨b, by rw [setArena, Array.getElem?_setIfInBounds_ne hpq, hq], id, fun _ => rfl⟩
  added q b hq hnone := by
    have hlt := (Array.getElem?_eq_some_iff.mp hq).1
    simp only [setArena, Array.size_setIfInBounds] at hlt
    simp at hnone
    omega

theorem quiet_addArena (w : Workspace α) : Quiet w w.addArena.1 where
  tables := rfl
  kept p a hp := by
    have hlt := (Array.getElem?_eq_some_iff.mp hp).1
    refine ⟨a, ?_, id, fun _ => rfl⟩
    rw [addArena, Array.getElem?_push_lt hlt, ← hp, Array.getElem?_eq_getElem hlt]
  added p a' hp hnone := by
    simp only [addArena, Array.getElem?_push] at hp
    split at hp
    · exact (Option.some.inj hp).symm
    · rw [hnone] at hp
      cases hp

theorem exists_linked_of_thread? {a a' : Arena α} {h : Handle} (he : a'.thread? h = a.thread? h)
    (hl : ∃ r, a.get? h = some r ∧ r.linked = true) :
    ∃ r, a'.get? h = some r ∧ r.linked = true := by
  obtain ⟨r, hr, hl⟩ := hl
  obtain ⟨r', hr', hl', -⟩ := Arena.exists_get?_of_thread? he hr hl
  exact ⟨r', hr', hl'⟩

theorem Sound.quiet (hw : w.Sound held) (hq : Quiet w w') : w'.Sound held where
  arenas p a' hp' := by
    cases hp : w.arenas[p]? with
    | none =>
      rw [hq.added p a' hp' hp]
      exact Arena.sound_empty
    | some a =>
      obtain ⟨b, hb, hs, -⟩ := hq.kept p a hp
      rw [hp'] at hb
      cases hb
      exact hs (hw.arenas p a hp)
  tables t x hx := by
    rw [hq.tables] at hx
    obtain ⟨a, ha, hholds⟩ := hw.tables t x hx
    obtain ⟨a', ha', -, he⟩ := hq.kept _ a ha
    exact ⟨a', ha', hholds.congr fun h _ => he h⟩
  fresh t ht := hw.fresh t (by rwa [hq.tables] at ht)
  nodup := hw.nodup
  linked t h hh := by
    obtain ⟨a, r, ha, hr, hl⟩ := hw.linked t h hh
    obtain ⟨a', ha', -, he⟩ := hq.kept _ a ha
    obtain ⟨r', hr', hl'⟩ := exists_linked_of_thread? (he h) ⟨r, hr, hl⟩
    exact ⟨a', r', ha', hr', hl'⟩
  owned p a' h r hp' hr hl := by
    cases hp : w.arenas[p]? with
    | none =>
      rw [hq.added p a' hp' hp] at hr
      simp [Arena.get?, Arena.empty] at hr
    | some a =>
      obtain ⟨b, hb, -, he⟩ := hq.kept p a hp
      rw [hp'] at hb
      cases hb
      obtain ⟨s, hs, hsl⟩ := exists_linked_of_thread? (he h).symm ⟨r, hr, hl⟩
      exact hw.owned p a h s hp hs hsl
  apart := hw.apart

end Workspace
end RecordIndex
