import Mathlib
import RecordIndex.Proofs.Walk.Payloads
import RecordIndex.Proofs.Workspace.Operations
import RecordIndex.Workspace.Dismantling

/-! # Payloads and workspaces

Every operation of a workspace, but for those with a comparator, gives the same answer over other
payloads and leaves the workspace that it leaves, over the other payloads.
-/
namespace RecordIndex
variable {α β γ δ : Type} {f : α → β}

namespace Workspace

def map (f : α → β) (w : Workspace α) : Workspace β := ⟨w.arenas.map (Arena.map f), w.tables⟩

@[simp] theorem tables_map (w : Workspace α) : (w.map f).tables = w.tables := rfl

@[simp] theorem arena?_map (w : Workspace α) (p : ArenaId) :
    (w.map f).arena? p = (w.arena? p).map (Arena.map f) := Array.getElem?_map

theorem table?_map (w : Workspace α) (t : TableId) : (w.map f).table? t = w.table? t := rfl

theorem setArena_map (w : Workspace α) (p : ArenaId) (a : Arena α) :
    (w.map f).setArena p (a.map f) = (w.setArena p a).map f := by
  simp [setArena, map]

theorem setTable_map (w : Workspace α) (t : TableId) (x : Holding) :
    (w.map f).setTable t x = (w.setTable t x).map f := rfl

theorem getArena_map (w : Workspace α) (p : ArenaId) :
    (w.map f).getArena p = (w.getArena p).map (Arena.map f) := by
  rw [getArena, arena?_map, getArena]
  cases w.arena? p <;> rfl

theorem getTable_map (w : Workspace α) (t : TableId) : (w.map f).getTable t = w.getTable t := rfl

theorem arenaOf_map (w : Workspace α) (table : Table) (p : ArenaId) :
    (w.map f).arenaOf table p = (w.arenaOf table p).map (Arena.map f) := by
  unfold arenaOf
  split
  · exact w.getArena_map p
  · rfl

theorem getPair_map (w : Workspace α) (t : TableId) (p : ArenaId) :
    (w.map f).getPair t p = (w.getPair t p).map fun (table, a) => (table, a.map f) := by
  unfold getPair
  rw [getTable_map]
  cases w.getTable t with
  | error e => rfl
  | ok table =>
    simp only [bind, Except.bind, arenaOf_map]
    cases w.arenaOf table p <;> rfl

theorem getWalked_map (w : Workspace α) (c : Cursor) (t : TableId) (p : ArenaId) :
    (w.map f).getWalked c t p = (w.getWalked c t p).map fun (table, a) => (table, a.map f) := by
  unfold getWalked
  rw [getTable_map]
  cases w.getTable t with
  | error e => rfl
  | ok table =>
    simp only [bind, Except.bind, arenaOf_map]
    cases c.isValid table with
    | false => rfl
    | true => cases w.arenaOf table p <;> rfl

theorem setArena_empty_map (w : Workspace α) (p : ArenaId) :
    (w.map f).setArena p .empty = (w.setArena p .empty).map f := by
  rw [← Arena.map_empty, setArena_map]

/-- What is done to an arena can be done over other payloads. Its answer is translated by `n`, which
leaves failures as they are. -/
theorem onArena_map {g : Arena α → Arena α × Except Failure γ}
    {g' : Arena β → Arena β × Except Failure δ} {n : Except Failure γ → Except Failure δ}
    (hn : ∀ e, n (.error e) = .error e) (hg : ∀ a, g' (a.map f) = ((g a).1.map f, n (g a).2))
    (w : Workspace α) (p : ArenaId) :
    (w.map f).onArena p g' = ((w.onArena p g).1.map f, n (w.onArena p g).2) := by
  unfold onArena
  rw [getArena_map]
  cases w.getArena p with
  | error e => exact Prod.ext rfl (hn e).symm
  | ok a => simp only [Except.map, hg, setArena_empty_map, setArena_map]

/-- What is done to a table and its arena can be done over other payloads. -/
theorem onPair_map {refuse : Failure → γ} {g : Table → Arena α → Table × Arena α × γ}
    {g' : Table → Arena β → Table × Arena β × γ}
    (hg : ∀ table a, g' table (a.map f) = Table.mapArena f (g table a)) (w : Workspace α)
    (t : TableId) (p : ArenaId) (found : Except Failure (Table × Arena α)) :
    (w.map f).onPair t p (found.map fun (table, a) => (table, a.map f)) refuse g' =
      ((w.onPair t p found refuse g).1.map f, (w.onPair t p found refuse g).2) := by
  unfold onPair
  cases found with
  | error e => rfl
  | ok pair =>
    simp only [Except.map, hg, setArena_empty_map, setTable_map, Table.mapArena, setArena_map]

/-! ## Arenas -/

theorem addArena_map (w : Workspace α) :
    (w.map f).addArena = (w.addArena.1.map f, w.addArena.2) := by
  simp [addArena, map]

theorem alloc_map (w : Workspace α) (p : ArenaId) (r : Record α) :
    (w.map f).alloc p (r.map f) = ((w.alloc p r).1.map f, (w.alloc p r).2) :=
  onArena_map (n := fun answer => answer) (fun _ => rfl)
    (fun a => by simp only [a.alloc_map]) w p

theorem release_map (w : Workspace α) (p : ArenaId) (h : Handle) :
    (w.map f).release p h = ((w.release p h).1.map f, (w.release p h).2.map (Record.map f)) :=
  onArena_map (n := Except.map (Record.map f)) (fun _ => rfl) (fun a => a.release_map h) w p

theorem rekey_map (w : Workspace α) (p : ArenaId) (h : Handle) (key : UInt64) :
    (w.map f).rekey p h key = ((w.rekey p h key).1.map f, (w.rekey p h key).2) :=
  onArena_map (n := fun answer => answer) (fun _ => rfl) (fun a => a.rekey_map h key) w p

theorem setPayload_map (w : Workspace α) (p : ArenaId) (h : Handle) (payload : α) :
    (w.map f).setPayload p h (f payload) =
      ((w.setPayload p h payload).1.map f, (w.setPayload p h payload).2.map (Option.map f)) :=
  onArena_map (n := Except.map (Option.map f)) (fun _ => rfl)
    (fun a => by simp only [a.setPayload_map]; rfl) w p

/-- Where payloads are forgotten, it does not show that one was overwritten. -/
theorem map_setPayload (hf : ∀ x y, f x = f y) (w : Workspace α) (p : ArenaId) (h : Handle)
    (payload : α) :
    (w.setPayload p h payload).1.map f = w.map f ∧
      (w.setPayload p h payload).1.tables = w.tables := by
  cases ha : w.arenas[p]? with
  | none =>
    have hget : w.getArena p = .error .unknownReference := by rw [getArena, arena?, ha]
    simp only [setPayload, onArena, hget, and_self]
  | some a =>
    rw [setPayload, onArena_eq ha]
    refine ⟨?_, rfl⟩
    rw [← setArena_map, a.map_setPayload hf]
    exact setArena_self (by simp [map, ha])

/-! ## Tables -/

theorem create_map (w : Workspace α) (m : Allocator) (p : ArenaId) (name : String)
    (policy : Policy) : (w.map f).create m p name policy =
      ((w.create m p name policy).1.map f, (w.create m p name policy).2) := by
  simp only [create, getArena_map, tables_map]
  cases w.getArena p with
  | error e => rfl
  | ok a => cases Table.create m w.tables.size p name policy <;> rfl

theorem insert_map (w : Workspace α) (m : Allocator) (t : TableId) (p : ArenaId) (h : Handle) :
    (w.map f).insert m t p h = ((w.insert m t p h).1.map f, (w.insert m t p h).2) := by
  unfold insert
  rw [getPair_map]
  exact onPair_map (fun table a => table.insert_map m a h) w t p _

theorem remove_map (w : Workspace α) (t : TableId) (p : ArenaId) (key : UInt64) :
    (w.map f).remove t p key = ((w.remove t p key).1.map f, (w.remove t p key).2) := by
  unfold remove
  rw [getPair_map]
  exact onPair_map (fun table a => table.remove_map a key) w t p _

/-- What is asked of a table and its arena can be asked over other payloads. -/
theorem read_map {g : Table × Arena α → Except Failure γ} {g' : Table × Arena β → Except Failure δ}
    {n : Except Failure γ → Except Failure δ} (hn : ∀ e, n (.error e) = .error e)
    (hg : ∀ table a, g' (table, a.map f) = n (g (table, a))) (w : Workspace α) (t : TableId)
    (p : ArenaId) : ((w.map f).getPair t p).bind g' = n ((w.getPair t p).bind g) := by
  rw [getPair_map]
  cases w.getPair t p with
  | error e => exact (hn e).symm
  | ok pair => exact hg pair.1 pair.2

theorem lookup_map (w : Workspace α) (t : TableId) (p : ArenaId) (key : UInt64) :
    (w.map f).lookup t p key = w.lookup t p key :=
  read_map (n := fun answer => answer) (fun _ => rfl) (fun table a => table.lookup_map a key) w t p

theorem entries_map (w : Workspace α) (t : TableId) (p : ArenaId) :
    (w.map f).entries t p = (w.entries t p).map (List.map (Entry.map f)) :=
  read_map (n := Except.map (List.map (Entry.map f))) (fun _ => rfl)
    (fun table a => table.entries_map a) w t p

theorem handles_map (w : Workspace α) (t : TableId) (p : ArenaId) :
    (w.map f).handles t p = w.handles t p :=
  read_map (n := fun answer => answer) (fun _ => rfl) (fun table a => table.handles_map a) w t p

theorem listing_map (w : Workspace α) (t : TableId) (p : ArenaId) :
    (w.map f).listing t p = (w.listing t p).map (Listing.map f) :=
  read_map (n := Except.map (Listing.map f)) (fun _ => rfl) (fun _ _ => rfl) w t p

theorem census_map {same : Record α → Record α → Bool} {same' : Record β → Record β → Bool}
    (hs : ∀ r s, same' (r.map f) (s.map f) = same r s) (w : Workspace α) (t : TableId)
    (p : ArenaId) : (w.map f).census t p same' = w.census t p same :=
  read_map (n := fun answer => answer) (fun _ => rfl) (fun table a => table.census_map hs a) w t p

/-! ## Cursors -/

theorem cursor_map (w : Workspace α) (t : TableId) : (w.map f).cursor t = w.cursor t := rfl

theorem advance_map (w : Workspace α) (c : Cursor) (t : TableId) (p : ArenaId) :
    (w.map f).advance c t p = w.advance c t p := by
  unfold advance
  rw [getWalked_map]
  cases w.getWalked c t p with
  | error e => rfl
  | ok pair => exact c.advance_map pair.1 pair.2

theorem removeCurrent_map (w : Workspace α) (c : Cursor) (t : TableId) (p : ArenaId) :
    (w.map f).removeCurrent c t p =
      ((w.removeCurrent c t p).1.map f, (w.removeCurrent c t p).2) := by
  unfold removeCurrent
  rw [getWalked_map]
  exact onPair_map c.removeCurrent_map w t p _

/-! ## Teardowns -/

theorem beginTeardown_map (w : Workspace α) (t : TableId) (p : ArenaId) :
    (w.map f).beginTeardown t p = ((w.beginTeardown t p).1.map f, (w.beginTeardown t p).2) := by
  unfold beginTeardown
  rw [getPair_map]
  cases w.getPair t p <;> rfl

theorem takeNext_map (w : Workspace α) (t : TableId) :
    (w.map f).takeNext t = ((w.takeNext t).1.map f, (w.takeNext t).2) := by
  unfold takeNext
  rw [tables_map]
  cases w.tables[t]? with
  | none => rfl
  | some x =>
    cases x with
    | active | gone => rfl
    | closing d =>
      have htake := onArena_map (f := f) (n := fun answer => answer) (fun _ => rfl)
        (fun a => d.next?_map a) w d.arena
      simp only [htake]
      obtain ⟨w', answer⟩ := w.onArena d.arena d.next?
      cases answer with
      | error e => rfl
      | ok found => cases found <;> rfl

/-! ## Forgetting payloads -/

def blank (w : Workspace α) : Workspace Unit := w.map fun _ => ()

variable {w : Workspace α} {w' : Workspace β} {σ : Type}

theorem table?_of_blank (h : w'.blank = w.blank) (t : TableId) : w'.table? t = w.table? t := by
  rw [← table?_map (f := fun _ => ()) w', ← table?_map (f := fun _ => ()) w]
  exact congrArg (·.table? t) h

theorem beginTeardown_blank (h : w'.blank = w.blank) (t : TableId) (p : ArenaId) :
    (w'.beginTeardown t p).1.blank = (w.beginTeardown t p).1.blank ∧
      (w'.beginTeardown t p).2 = (w.beginTeardown t p).2 := by
  have hbegin := w'.beginTeardown_map (f := fun _ => ()) t p
  rw [← blank, h, blank, beginTeardown_map] at hbegin
  obtain ⟨hspace, hanswer⟩ := Prod.mk.inj hbegin
  exact ⟨hspace.symm, hanswer.symm⟩

theorem takeNext_blank (h : w'.blank = w.blank) (t : TableId) :
    (w'.takeNext t).1.blank = (w.takeNext t).1.blank ∧
      (w'.takeNext t).2 = (w.takeNext t).2 := by
  have htake := w'.takeNext_map (f := fun _ => ()) t
  rw [← blank, h, blank, takeNext_map] at htake
  obtain ⟨hspace, hanswer⟩ := Prod.mk.inj htake
  exact ⟨hspace.symm, hanswer.symm⟩

def Blind (dispose : Workspace α → σ → Handle → Workspace α × ForInStep σ)
    (dispose' : Workspace β → σ → Handle → Workspace β × ForInStep σ) : Prop :=
  ∀ (w : Workspace α) (w' : Workspace β) x h, w'.blank = w.blank →
    (dispose' w' x h).1.blank = (dispose w x h).1.blank ∧ (dispose' w' x h).2 = (dispose w x h).2

variable {dispose : Workspace α → σ → Handle → Workspace α × ForInStep σ}
  {dispose' : Workspace β → σ → Handle → Workspace β × ForInStep σ}

theorem disposeAll_blank (hd : Blind dispose dispose') (h : w'.blank = w.blank) (t : TableId)
    (n : Nat) (x : σ) :
    (disposeAll t dispose' n w' x).1.blank = (disposeAll t dispose n w x).1.blank ∧
      (disposeAll t dispose' n w' x).2 = (disposeAll t dispose n w x).2 := by
  induction n generalizing w w' x with
  | zero => exact ⟨h, rfl⟩
  | succ n ih =>
    have htake := takeNext_blank h t
    unfold disposeAll
    generalize w.takeNext t = taken at htake ⊢
    generalize w'.takeNext t = taken' at htake ⊢
    obtain ⟨v, answer⟩ := taken
    obtain ⟨v', answer'⟩ := taken'
    obtain ⟨hspace, rfl⟩ : v'.blank = v.blank ∧ answer' = answer := htake
    cases answer' with
    | error e => exact ⟨hspace, rfl⟩
    | ok found =>
      cases found with
      | none => exact ⟨hspace, rfl⟩
      | some k =>
        have hdone := hd v v' x k hspace
        simp only
        generalize dispose v x k = disposed at hdone ⊢
        generalize dispose' v' x k = disposed' at hdone ⊢
        obtain ⟨u, step⟩ := disposed
        obtain ⟨u', step'⟩ := disposed'
        obtain ⟨hdone, rfl⟩ : u'.blank = u.blank ∧ step' = step := hdone
        cases step' with
        | done y => exact ⟨congrArg (·.drop t) hdone, rfl⟩
        | yield y => exact ih hdone y

theorem dismantle_blank (hd : Blind dispose dispose') (h : w'.blank = w.blank) (t : TableId)
    (p : ArenaId) (x : σ) :
    (w'.dismantle t p dispose' x).1.blank = (w.dismantle t p dispose x).1.blank ∧
      (w'.dismantle t p dispose' x).2 = (w.dismantle t p dispose x).2 := by
  have hbegin := beginTeardown_blank h t p
  unfold dismantle
  simp only [table?_of_blank h]
  generalize w.beginTeardown t p = begun at hbegin ⊢
  generalize w'.beginTeardown t p = begun' at hbegin ⊢
  obtain ⟨v, answer⟩ := begun
  obtain ⟨v', answer'⟩ := begun'
  obtain ⟨hspace, rfl⟩ : v'.blank = v.blank ∧ answer' = answer := hbegin
  cases answer' with
  | error e => exact ⟨hspace, rfl⟩
  | ok => exact disposeAll_blank hd hspace t _ x

end Workspace
end RecordIndex
