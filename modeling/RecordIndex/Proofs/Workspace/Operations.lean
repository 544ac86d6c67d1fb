import Mathlib
import RecordIndex.Proofs.Workspace.Changes

/-! # The operations of a workspace as changes

An operation that is refused changes nothing, unless it ends the use of a table. The others are
found among the changes, each with the answer it gives.
-/
namespace RecordIndex.Workspace
variable {α β : Type} {w : Workspace α} {held : Holdings} {t : TableId} {p : ArenaId}
  {table : Table} {a : Arena α} {cs : Chains}

/-! ## Arenas -/

theorem onArena_eq (hp : w.arenas[p]? = some a) (f : Arena α → Arena α × Except Failure β) :
    w.onArena p f = (w.setArena p (f a).1, (f a).2) := by
  have hget : w.getArena p = .ok a := by rw [getArena, arena?, hp]
  unfold onArena
  simp only [hget]
  congr 1
  simp [setArena]

theorem getArena_error {e : Failure} (he : w.getArena p = .error e) : e = .unknownReference := by
  unfold getArena at he
  split at he
  · cases he
  · exact (Except.error.inj he).symm

theorem onArena_error {f : Arena α → Arena α × Except Failure β} {e : Failure}
    (he : (w.onArena p f).2 = .error e) : e = .unknownReference ∨ ∃ a, (f a).2 = .error e := by
  cases hp : w.getArena p with
  | error e' =>
    rw [Workspace.onArena, hp, Except.error.injEq] at he
    subst he
    exact Or.inl (getArena_error hp)
  | ok a =>
    rw [Workspace.onArena, hp] at he
    exact Or.inr ⟨a, he⟩

/-- An operation on an arena that is refused by it leaves the workspace as it is. -/
theorem onArena_cases (w : Workspace α) (p : ArenaId) {f : Arena α → Arena α × Except Failure β}
    (hf : ∀ a, (∃ e, f a = (a, .error e)) ∨ ∃ b, (f a).2 = .ok b) :
    (∃ e, w.onArena p f = (w, .error e)) ∨ ∃ b, (w.onArena p f).2 = .ok b := by
  cases hp : w.arenas[p]? with
  | none =>
    have hget : w.getArena p = .error .unknownReference := by rw [getArena, arena?, hp]
    exact Or.inl ⟨_, by rw [Workspace.onArena, hget]⟩
  | some a =>
    rw [onArena_eq hp]
    rcases hf a with ⟨e, he⟩ | hok
    · exact Or.inl ⟨e, by rw [he, setArena_self hp]⟩
    · exact Or.inr hok

theorem Sound.onArena (hw : w.Sound held) (p : ArenaId) {f : Arena α → Arena α × Except Failure β}
    (hf : ∀ a : Arena α, a.Sound → (f a).1.Sound ∧ ∀ h, (f a).1.thread? h = a.thread? h) :
    Quiet w (w.onArena p f).1 := by
  cases hp : w.arenas[p]? with
  | none =>
    have hget : w.getArena p = .error .unknownReference := by rw [getArena, arena?, hp]
    rw [Workspace.onArena, hget]
    exact quiet_refl w
  | some a =>
    obtain ⟨hs, he⟩ := hf a (hw.arenas p a hp)
    rw [onArena_eq hp]
    exact quiet_setArena hp (fun _ => hs) he

theorem Sound.alloc (hw : w.Sound held) (p : ArenaId) (r : Record α) :
    Quiet w (w.alloc p r).1 :=
  hw.onArena p fun a ha => ⟨ha.alloc r, fun h => a.thread?_alloc r ha h⟩

theorem Sound.release (hw : w.Sound held) (p : ArenaId) (h : Handle) :
    Quiet w (w.release p h).1 :=
  hw.onArena p fun a ha => ⟨ha.release h, fun k => a.thread?_release h k⟩

theorem Sound.rekey (hw : w.Sound held) (p : ArenaId) (h : Handle) (key : UInt64) :
    Quiet w (w.rekey p h key).1 :=
  hw.onArena p fun a ha => ⟨ha.rekey h key, fun k => a.thread?_rekey h key k⟩

theorem Sound.setPayload (hw : w.Sound held) (p : ArenaId) (h : Handle) (payload : α) :
    Quiet w (w.setPayload p h payload).1 :=
  hw.onArena p fun a ha => ⟨ha.setPayload h payload, fun k => a.thread?_setPayload h payload k⟩

/-! ## Tables in use -/

theorem create_cases (w : Workspace α) (m : Allocator) (p : ArenaId) (name : String)
    (policy : Policy) : (∃ e, w.create m p name policy = (w, .error e)) ∨
      ∃ w', w.create m p name policy = (w', .ok w.tables.size) ∧
        Change w (.opened w.tables.size p) w' := by
  unfold create
  cases hp : w.arenas[p]? with
  | none => exact Or.inl ⟨.unknownReference, by simp only [getArena, arena?, hp]⟩
  | some a =>
    cases hc : Table.create m w.tables.size p name policy with
    | error e => exact Or.inl ⟨e, by simp only [getArena, arena?, hp, hc]⟩
    | ok table =>
      exact Or.inr ⟨_, by simp only [getArena, arena?, hp, hc], .opened hp hc⟩

theorem create_ok {w' : Workspace α} {m : Allocator} {name : String} {policy : Policy}
    (hc : w.create m p name policy = (w', .ok t)) :
    ∃ a table, w.arenas[p]? = some a ∧ Table.create m w.tables.size p name policy = .ok table ∧
      t = w.tables.size ∧ w' = { w with tables := w.tables.push (.active table) } := by
  unfold create at hc
  cases hp : w.arenas[p]? with
  | none => simp [getArena, arena?, hp] at hc
  | some a =>
    cases htable : Table.create m w.tables.size p name policy with
    | error e => simp [getArena, arena?, hp, htable] at hc
    | ok table =>
      simp only [getArena, arena?, hp, htable, Prod.mk.injEq, Except.ok.injEq] at hc
      obtain ⟨rfl, rfl⟩ := hc
      exact ⟨a, table, rfl, rfl, rfl, rfl⟩

theorem Uses.getTable (hu : w.Uses t table a) : w.getTable t = .ok table := by
  rw [Workspace.getTable, hu.table?]

theorem Uses.getPair (hu : w.Uses t table a) : w.getPair t table.arena = .ok (table, a) := by
  have harena : w.arenaOf table table.arena = .ok a := by
    rw [arenaOf, if_pos rfl, getArena, arena?, hu.arenas]
  simp only [Workspace.getPair, hu.getTable, bind, Except.bind, harena]
  rfl

theorem Uses.handles (hu : w.Uses t table a) (ht : table.Indexes a cs) :
    w.handles t table.arena = .ok cs.flatten := by
  simp only [Workspace.handles, hu.getPair, bind, Except.bind, ht.handles]

theorem getPair_foreign (ht : w.table? t = some table) (hp : p ≠ table.arena) :
    w.getPair t p = .error (.foreignArena table.name) := by
  have harena : w.arenaOf table p = .error (.foreignArena table.name) := if_neg hp
  simp only [Workspace.getPair, getTable, ht, bind, Except.bind, harena]

theorem arenaOf_error {e : Failure} (he : w.arenaOf table p = .error e) :
    e = .unknownReference ∨ p ≠ table.arena ∧ e = .foreignArena table.name := by
  unfold arenaOf at he
  split at he
  · exact Or.inl (getArena_error he)
  · rename_i hp
    exact Or.inr ⟨hp, (Except.error.inj he).symm⟩

/-- An arena is called foreign only if it is not the one of the table. -/
theorem getPair_error {e : Failure} (he : w.getPair t p = .error e) :
    e = .unknownReference ∨
      ∃ table, w.table? t = some table ∧ p ≠ table.arena ∧ e = .foreignArena table.name := by
  cases ht : w.table? t with
  | none =>
    simp only [Workspace.getPair, getTable, ht, bind, Except.bind, Except.error.injEq] at he
    exact Or.inl he.symm
  | some table =>
    simp only [Workspace.getPair, getTable, ht, bind, Except.bind] at he
    cases ha : w.arenaOf table p with
    | ok a => simp [ha, pure, Except.pure] at he
    | error e' =>
      simp only [ha, Except.error.injEq] at he
      subst he
      rcases arenaOf_error ha with h | ⟨hp, h⟩
      · exact Or.inl h
      · exact Or.inr ⟨table, rfl, hp, h⟩

/-- An operation on a table is refused, or the table is in use and named with its own arena. -/
theorem Sound.getPair_cases (hw : w.Sound held) (t : TableId) (p : ArenaId) :
    (∃ e, w.getPair t p = .error e) ∨
      ∃ table a cs, w.Uses t table a ∧ p = table.arena ∧ table.Indexes a cs := by
  cases ht : w.table? t with
  | none => exact Or.inl ⟨.unknownReference, by simp only [Workspace.getPair, getTable, ht]; rfl⟩
  | some table =>
    by_cases hp : p = table.arena
    · obtain ⟨a, hu⟩ := hw.exists_uses ht
      obtain ⟨-, -, cs, hcs, -⟩ := hw.uses hu
      exact Or.inr ⟨table, a, cs, hu, hp, hcs⟩
    · exact Or.inl ⟨_, getPair_foreign ht hp⟩

section
variable {refuse : Failure → β} {answer : β}

theorem onPair_eq (t : TableId) (p : ArenaId) (table : Table) (a : Arena α)
    (f : Table → Arena α → Table × Arena α × β) :
    w.onPair t p (.ok (table, a)) refuse f =
      ((w.setArena p (f table a).2.1).setTable t (.active (f table a).1), (f table a).2.2) := by
  simp [Workspace.onPair, setArena, Workspace.setTable]

/-- A table and its arena that stay as they are leave the workspace as it is. -/
theorem onPair_same (hu : w.Uses t table a) {f : Table → Arena α → Table × Arena α × β}
    (hf : f table a = (table, a, answer)) :
    w.onPair t table.arena (.ok (table, a)) refuse f = (w, answer) := by
  rw [onPair_eq, hf]
  exact Prod.ext (put_self hu) rfl

theorem onPair_put {table' : Table} {a' : Arena α} {f : Table → Arena α → Table × Arena α × β}
    (hf : f table a = (table', a', answer)) (hsame : table.SameTable table') :
    w.onPair t table.arena (.ok (table, a)) refuse f = (w.put t table' a', answer) := by
  rw [onPair_eq, hf, put, hsame.arena]

end

theorem insert_cases (hu : w.Uses t table a) (ht : table.Indexes a cs) (m : Allocator)
    (h : Handle) :
    (∃ e, w.insert m t table.arena h = (w, [], .error e) ∧ table.Declines m a h e) ∨
      ∃ w' events, w.insert m t table.arena h = (w', events, .ok ()) ∧
        Change w (.inserted t h events) w' := by
  rw [Workspace.insert, hu.getPair]
  rcases ht.insert m h with ⟨e, he, hne⟩ | ⟨r, table', a', cs', events, hr, hl, he, hi⟩
  · exact Or.inl ⟨e, onPair_same hu he, hne⟩
  · exact Or.inr ⟨_, events, onPair_put he hi.same, .inserted hu ht hr hl hi⟩

theorem remove_cases (hu : w.Uses t table a) (ht : table.Indexes a cs) (key : UInt64) :
    (w.remove t table.arena key = (w, .ok none) ∧ (Table.stack a cs key).head? = none) ∨
      ∃ w' h, w.remove t table.arena key = (w', .ok (some h)) ∧
        (Table.stack a cs key).head? = some h ∧ Change w (.unlinked t h) w' := by
  rw [Workspace.remove, hu.getPair]
  rcases ht.remove key with ⟨he, hh⟩ | ⟨h, table', a', he, hh, hi⟩
  · exact Or.inl ⟨onPair_same hu he, hh⟩
  · exact Or.inr ⟨_, h, onPair_put he hi.same, hh, .unlinked hu ht hi⟩

theorem removeSame_cases (hu : w.Uses t table a) (ht : table.Indexes a cs) (template : Record α)
    (same : Record α → Record α → Bool) :
    (w.removeSame t table.arena template same = (w, .ok none) ∧
      (Table.stack a cs template.key).find? (a.meets fun _ => same template) = none) ∨
      ∃ w' h, w.removeSame t table.arena template same = (w', .ok (some h)) ∧
        (Table.stack a cs template.key).find? (a.meets fun _ => same template) = some h ∧
        Change w (.unlinked t h) w' := by
  rw [Workspace.removeSame, hu.getPair]
  rcases ht.removeSame template same with ⟨he, hh⟩ | ⟨h, table', a', he, hh, hi⟩
  · exact Or.inl ⟨onPair_same hu he, hh⟩
  · exact Or.inr ⟨_, h, onPair_put he hi.same, hh, .unlinked hu ht hi⟩

/-! ## Cursors -/

theorem getWalked_stale (ht : w.table? t = some table) {c : Cursor} (hv : c.isValid table = false)
    (p : ArenaId) : w.getWalked c t p = .error (.staleCursor c.tableName) := by
  simp only [getWalked, getTable, ht, bind, Except.bind, hv]
  rfl

theorem getWalked_foreign (ht : w.table? t = some table) {c : Cursor}
    (hv : c.isValid table = true) (hp : p ≠ table.arena) :
    w.getWalked c t p = .error (.foreignArena table.name) := by
  have harena : w.arenaOf table p = .error (.foreignArena table.name) := if_neg hp
  simp only [getWalked, getTable, ht, bind, Except.bind, hv, harena]
  rfl

theorem Uses.getWalked (hu : w.Uses t table a) {c : Cursor} (hv : c.isValid table = true) :
    w.getWalked c t table.arena = .ok (table, a) := by
  have harena : w.arenaOf table table.arena = .ok a := by
    rw [arenaOf, if_pos rfl, getArena, arena?, hu.arenas]
  simp only [Workspace.getWalked, hu.getTable, bind, Except.bind, hv, harena]
  rfl

theorem getWalked_error {c : Cursor} {e : Failure} (he : w.getWalked c t p = .error e) :
    e = .unknownReference ∨ e = .staleCursor c.tableName ∨
      ∃ table, w.table? t = some table ∧ p ≠ table.arena ∧ e = .foreignArena table.name := by
  cases ht : w.table? t with
  | none =>
    simp only [getWalked, getTable, ht, bind, Except.bind, Except.error.injEq] at he
    exact Or.inl he.symm
  | some table =>
    cases hv : c.isValid table with
    | false =>
      rw [getWalked_stale ht hv, Except.error.injEq] at he
      exact Or.inr (Or.inl he.symm)
    | true =>
      simp only [getWalked, getTable, ht, bind, Except.bind, hv, Bool.not_true,
        Bool.false_eq_true, if_false] at he
      cases ha : w.arenaOf table p with
      | ok a => simp [ha, pure, Except.pure] at he
      | error e' =>
        simp only [ha, Except.error.injEq] at he
        subst he
        rcases arenaOf_error ha with h | ⟨hp, h⟩
        · exact Or.inl h
        · exact Or.inr (Or.inr ⟨table, rfl, hp, h⟩)

theorem Sound.getWalked_cases (hw : w.Sound held) (c : Cursor) (t : TableId) (p : ArenaId) :
    (∃ e, w.getWalked c t p = .error e) ∨
      ∃ table a cs, w.Uses t table a ∧ p = table.arena ∧ table.Indexes a cs ∧
        c.isValid table = true := by
  cases ht : w.table? t with
  | none => exact Or.inl ⟨.unknownReference, by simp only [Workspace.getWalked, getTable, ht]; rfl⟩
  | some table =>
    cases hv : c.isValid table with
    | false => exact Or.inl ⟨_, getWalked_stale ht hv p⟩
    | true =>
      by_cases hp : p = table.arena
      · obtain ⟨a, hu⟩ := hw.exists_uses ht
        obtain ⟨-, -, cs, hcs, -⟩ := hw.uses hu
        exact Or.inr ⟨table, a, cs, hu, hp, hcs, hv⟩
      · exact Or.inl ⟨_, getWalked_foreign ht hv hp⟩

theorem cursor_cases (w : Workspace α) (t : TableId) :
    w.cursor t = .error .unknownReference ∨
      ∃ table, w.table? t = some table ∧ w.cursor t = .ok (.atStart table) := by
  cases ht : w.table? t with
  | none => exact Or.inl (by simp only [Workspace.cursor, getTable, ht]; rfl)
  | some table =>
    exact Or.inr ⟨table, rfl, by simp only [Workspace.cursor, getTable, ht]; rfl⟩

theorem Sound.exists_of_advance (hw : w.Sound held) {c c' : Cursor} {found : Option Handle}
    (he : w.advance c t p = .ok (c', found)) :
    ∃ table a, w.Uses t table a ∧ p = table.arena ∧ c.isValid table = true ∧
      c.advance table a = .ok (c', found) := by
  unfold Workspace.advance at he
  rcases hw.getWalked_cases c t p with ⟨e, hg⟩ | ⟨table, a, cs, hu, rfl, -, hv⟩
  · rw [hg] at he
    cases he
  · rw [hu.getWalked hv] at he
    exact ⟨table, a, hu, rfl, hv, he⟩

theorem removeCurrent_cases (hu : w.Uses t table a) (ht : table.Indexes a cs) {c : Cursor}
    (hv : c.isValid table = true) :
    (c.current? = none ∧ w.removeCurrent c t table.arena = (w, .error .noCurrentRecord)) ∨
      (∃ h, c.current? = some h ∧ h ∉ cs.flatten ∧
        w.removeCurrent c t table.arena = (w, .error .corrupted)) ∨
      ∃ table' a' h r resume, c.place = .on h resume ∧ a.get? h = some r ∧
        w.removeCurrent c t table.arena = (w.put t table' a',
          .ok ({ c with epoch := table'.epoch, place := .gap r.next resume }, h)) ∧
        table.Unlinked a cs h table' a' := by
  rw [Workspace.removeCurrent, hu.getWalked hv]
  rcases c.removeCurrent_cases ht with ⟨hc, he⟩ | ⟨h, hc, hn, he⟩ |
    ⟨h, r, resume, table', a', hp, hr, he, hi⟩
  · exact Or.inl ⟨hc, onPair_same hu he⟩
  · exact Or.inr (Or.inl ⟨h, hc, hn, onPair_same hu he⟩)
  · exact Or.inr (Or.inr ⟨table', a', h, r, resume, hp, hr, onPair_put he hi.same, hi⟩)

/-! ## Tables taken apart -/

theorem Sound.beginTeardown_cases (hw : w.Sound held) (t : TableId) (p : ArenaId) :
    (∃ e, w.beginTeardown t p = (w.drop t, .error e)) ∨
      ∃ w', w.beginTeardown t p = (w', .ok ()) ∧ Change w (.closed t) w' := by
  unfold beginTeardown
  rcases hw.getPair_cases t p with ⟨e, he⟩ | ⟨table, a, cs, hu, rfl, -⟩
  · exact Or.inl ⟨e, by rw [he]⟩
  · exact Or.inr ⟨_, by rw [hu.getPair], .closed hu⟩

/-- The table `t` is being taken apart, and `hs` are the records of the arena `p` still to be taken
out, in this order. -/
def Closing (w : Workspace α) (t : TableId) (p : ArenaId) (hs : List Handle) : Prop :=
  ∃ d a, w.tables[t]? = some (.closing d) ∧ d.arena = p ∧ w.arenas[p]? = some a ∧ d.Remains a hs

theorem Sound.closing (hw : w.Sound held) {d : Teardown} (ht : w.tables[t]? = some (.closing d)) :
    ∃ hs, w.Closing t (held t).arena hs ∧ hs.Perm (held t).records := by
  obtain ⟨a, ha, hp, rest, hd, hperm⟩ := hw.tables t _ ht
  exact ⟨rest, ⟨d, a, ht, hp, ha, hd⟩, hperm⟩

theorem Closing.takeNext {hs : List Handle} (hc : w.Closing t p hs) :
    (hs = [] ∧ w.takeNext t = (w.drop t, .ok none)) ∨
      ∃ h rest a w', hs = h :: rest ∧ w.takeNext t = (w', .ok (some h)) ∧
        Change w (.taken t h) w' ∧ w'.Closing t p rest ∧ w.arenas[p]? = some a ∧
        w'.arenas[p]? = some (a.unlink h) := by
  obtain ⟨d, a, ht, rfl, ha, hd⟩ := hc
  unfold Workspace.takeNext
  simp only [ht, onArena_eq ha]
  rcases hd.next? with ⟨hn, rfl⟩ | ⟨h, rest, d', rfl, hn, hp, hd'⟩
  · exact Or.inl ⟨rfl, by rw [hn, setArena_self ha]⟩
  · have ha' : ((w.setArena d.arena (a.unlink h)).setTable t (.closing d')).arenas[d.arena]? =
        some (a.unlink h) := (arenas_setArena ha _ _).trans (if_pos rfl)
    have ht' := tables_setTable (w := w.setArena d.arena (a.unlink h)) ht (.closing d') t
    rw [if_pos rfl] at ht'
    exact Or.inr ⟨h, rest, a, _, rfl, by rw [hn], .taken ht ha hn,
      ⟨d', a.unlink h, ht', hp, ha', hd'⟩, ha, ha'⟩

theorem Sound.takeNext_cases (hw : w.Sound held) (t : TableId) :
    (∀ d, w.tables[t]? ≠ some (.closing d)) ∧ w.takeNext t = (w, .error .unknownReference) ∨
      (held t).records = [] ∧ w.takeNext t = (w.drop t, .ok none) ∨
      ∃ w' h, h ∈ (held t).records ∧ w.takeNext t = (w', .ok (some h)) ∧
        Change w (.taken t h) w' := by
  by_cases hclosing : ∃ d, w.tables[t]? = some (.closing d)
  · obtain ⟨d, ht⟩ := hclosing
    obtain ⟨hs, hc, hperm⟩ := hw.closing ht
    rcases hc.takeNext with ⟨rfl, hn⟩ | ⟨h, rest, a, w', rfl, hn, hchange, -⟩
    · exact Or.inr (Or.inl ⟨hperm.symm.eq_nil, hn⟩)
    · exact Or.inr (Or.inr ⟨w', h, hperm.mem_iff.mp List.mem_cons_self, hn, hchange⟩)
  · have hne : ∀ d, w.tables[t]? ≠ some (.closing d) := fun d ht => hclosing ⟨d, ht⟩
    refine Or.inl ⟨hne, ?_⟩
    unfold Workspace.takeNext
    split
    · rename_i ht
      exact absurd ht (hne _)
    · rfl

end RecordIndex.Workspace
