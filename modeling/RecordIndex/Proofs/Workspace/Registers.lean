import Mathlib
import RecordIndex.Proofs.Arena.Register
import RecordIndex.Proofs.Workspace.Operations

/-! # Operations on tables leave the registers alone

Whatever a table does, with chains that are in order or not, it does to the links of records.
-/
namespace RecordIndex
variable {α β : Type}

namespace Table

theorem register_relink (b : Buckets) (a : Arena α) (es : List (Entry α)) :
    (relink b a es).2.register = a.register := by
  induction es generalizing b a with
  | nil => rfl
  | cons e es ih => exact (ih _ _).trans (Arena.register_link ..)

theorem register_foldlM_relinkChain {b : Buckets} {x y : Buckets × Arena α}
    (hf : b.foldlM relinkChain x = some y) : y.2.register = x.2.register := by
  rw [← Array.foldlM_toList] at hf
  generalize b.toList = heads at hf
  induction heads generalizing x with
  | nil =>
    cases hf
    rfl
  | cons head heads ih =>
    rw [List.foldlM_cons] at hf
    obtain ⟨z, hz, hrest⟩ := Option.bind_eq_some_iff.mp hf
    obtain ⟨chain, -, rfl⟩ := Option.map_eq_some_iff.mp hz
    exact (ih hrest).trans (register_relink ..)

theorem register_grow (t : Table) (m : Allocator) (a : Arena α) :
    (t.grow m a).2.1.register = a.register := by
  unfold grow
  split
  · split <;> rfl
  · split
    · rfl
    · dsimp only
      split
      · rfl
      · rename_i hf
        exact register_foldlM_relinkChain hf

theorem register_makeRoom (t : Table) (m : Allocator) (a : Arena α) :
    (t.makeRoom m a).2.1.register = a.register := by
  unfold makeRoom
  split
  · exact t.register_grow m a
  · rfl

theorem register_insert (t : Table) (m : Allocator) (a : Arena α) (h : Handle) :
    (t.insert m a h).2.1.register = a.register := by
  have hroom := t.register_makeRoom m a
  unfold insert
  split
  · rfl
  · split
    · rfl
    · split
      · rfl
      · split <;> rename_i hmake <;> rw [hmake] at hroom
        · exact hroom
        · exact (Arena.register_link ..).trans hroom

theorem register_detach (t : Table) (a : Arena α) (before : Option Handle) (e : Entry α) :
    (t.detach a before e).2.1.register = a.register := by
  unfold detach
  split
  · rfl
  · split
    · exact (Arena.register_redirect ..).trans (Arena.register_unlink ..)
    · exact Arena.register_unlink ..

theorem register_removeFirst (t : Table) (a : Arena α) (key : UInt64)
    (p : Handle → Record α → Bool) : (t.removeFirst a key p).2.1.register = a.register := by
  unfold removeFirst
  split
  · rfl
  · rfl
  · exact register_detach ..

theorem register_removeHandle (t : Table) (a : Arena α) (h : Handle) (key : UInt64) :
    (t.removeHandle a h key).2.1.register = a.register := by
  unfold removeHandle
  split
  · rfl
  · rfl
  · exact register_detach ..

end Table

theorem Cursor.register_removeCurrent (c : Cursor) (t : Table) (a : Arena α) :
    (c.removeCurrent t a).2.1.register = a.register := by
  unfold removeCurrent
  split
  · split
    · rfl
    · exact t.register_removeHandle ..
  · rfl

theorem Teardown.register_next? (d : Teardown) (a : Arena α) :
    (d.next? a).1.register = a.register := by
  unfold next?
  split
  · rfl
  · split
    · exact Arena.register_unlink ..
    · rfl

namespace Workspace
variable {w : Workspace α} {t : TableId} {p : ArenaId} {table : Table} {a a' : Arena α}

def register? (w : Workspace α) (p : ArenaId) :
    Option (List Nat × Array (UInt32 × Option (UInt64 × α))) := (w.arenas[p]?).map (·.register)

theorem exists_of_register? {w' : Workspace α} (he : w'.register? p = w.register? p)
    (ha : w.arenas[p]? = some a) : ∃ a', w'.arenas[p]? = some a' ∧ a'.register = a.register := by
  rw [register?, register?, ha, Option.map_some] at he
  exact Option.map_eq_some_iff.mp he

theorem register?_setArena (hp : w.arenas[p]? = some a) (he : a'.register = a.register)
    (q : ArenaId) : (w.setArena p a').register? q = w.register? q := by
  rw [register?, register?, arenas_setArena hp]
  split
  · rename_i hq
    rw [hq, hp, Option.map_some, Option.map_some, he]
  · rfl

theorem register?_onPair {found : Except Failure (Table × Arena α)} {refuse : Failure → β}
    (hfound : ∀ table a, found = .ok (table, a) → w.arenas[p]? = some a)
    {f : Table → Arena α → Table × Arena α × β}
    (hf : ∀ table a, (f table a).2.1.register = a.register) (q : ArenaId) :
    (w.onPair t p found refuse f).1.register? q = w.register? q := by
  cases hc : found with
  | error e => rfl
  | ok pair =>
    obtain ⟨table, a⟩ := pair
    rw [onPair_eq]
    exact register?_setArena (hfound table a hc) (hf table a) q

theorem arenas_of_arenaOf (ha : w.arenaOf table p = .ok a) : w.arenas[p]? = some a := by
  unfold arenaOf getArena arena? at ha
  split at ha
  · split at ha
    · rename_i hp
      rw [hp, Except.ok.inj ha]
    · cases ha
  · cases ha

theorem arenas_of_getPair (hc : w.getPair t p = .ok (table, a)) : w.arenas[p]? = some a := by
  unfold getPair at hc
  cases ht : w.getTable t with
  | error e => simp [ht, bind, Except.bind] at hc
  | ok table' =>
    cases ha : w.arenaOf table' p with
    | error e => simp [ht, ha, bind, Except.bind] at hc
    | ok a' =>
      simp only [ht, ha, bind, Except.bind, pure, Except.pure, Except.ok.injEq,
        Prod.mk.injEq] at hc
      obtain ⟨-, rfl⟩ := hc
      exact arenas_of_arenaOf ha

theorem getPair_of_getWalked {c : Cursor} (hc : w.getWalked c t p = .ok (table, a)) :
    w.getPair t p = .ok (table, a) := by
  unfold getWalked at hc
  unfold getPair
  cases ht : w.getTable t with
  | error e => simp [ht, bind, Except.bind] at hc
  | ok table' =>
    cases hv : c.isValid table' with
    | false => simp [ht, hv, bind, Except.bind] at hc
    | true =>
      simpa [ht, hv, bind, Except.bind] using hc

theorem register?_takeNext (w : Workspace α) (t : TableId) (q : ArenaId) :
    (w.takeNext t).1.register? q = w.register? q := by
  unfold takeNext
  split
  · rename_i d hd
    have hregister : (w.onArena d.arena d.next?).1.register? q = w.register? q := by
      cases hp : w.arenas[d.arena]? with
      | none =>
        have hget : w.getArena d.arena = .error .unknownReference := by rw [getArena, arena?, hp]
        rw [onArena, hget]
      | some a =>
        rw [onArena_eq hp]
        exact register?_setArena hp (d.register_next? a) q
    split <;> rename_i hn <;> rw [hn] at hregister <;> exact hregister
  · rfl

end Workspace
end RecordIndex
