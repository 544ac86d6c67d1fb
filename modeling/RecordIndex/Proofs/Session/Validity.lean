import Mathlib
import RecordIndex.Proofs.Session.Custody
import RecordIndex.Proofs.Workspace.Fates

/-! # Validity of cursors

A cursor is valid by the epoch it carries. Here its history is written down instead: when it was set
on a table, when it removed a record itself, and when a table was altered otherwise. As long as no
epoch wraps around, the two agree.
-/
namespace RecordIndex

/-- Structural changes of the table `t`: growth counts apart from the insertion it is for. -/
def Deed.bumps (t : TableId) : Deed → Nat
  | .inserted u _ events => if u = t then Table.resizes events + 1 else 0
  | .unlinked u _ => if u = t then 1 else 0
  | _ => 0

inductive Incident where
  /-- The cursor was created on the table of that name, or reset on it. -/
  | set (t : TableId) (name : String)
  /-- The cursor removed the record it stood on. -/
  | removed
  /-- The table was altered, but not through this cursor. -/
  | altered (t : TableId)
deriving DecidableEq

abbrev History := List Incident

namespace History

def settled : History → Option (TableId × String)
  | [] => none
  | .set t name :: _ => some (t, name)
  | .removed :: rest => settled rest
  | .altered _ :: rest => settled rest

def Untouched (t : TableId) : History → Prop
  | .altered u :: rest => u ≠ t ∧ Untouched t rest
  | _ => True

/-- The cursor was last set on the table, and that was not altered otherwise since. -/
def Fresh (t : TableId) (past : History) : Prop :=
  (settled past).map (·.1) = some t ∧ Untouched t past

end History

def Deed.remember (deed : Deed) (past : History) : History :=
  match deed.alters with
  | some t => .altered t :: past
  | none => past

namespace Session
variable {α : Type}

def bumps (acts : List (Action α)) (t : TableId) : Nat := tally (Deed.bumps t) acts

def nameOf (s : Session α) (t : TableId) : String := (s.space.table? t).elim "" (·.name)

/-- The histories of all cursors after an action. A clone takes over the history of its original. -/
def remember (s : Session α) (action : Action α) (past : Nat → History) : Nat → History :=
  match action, (s.act action).2 with
  | .cursor t, .ok (.cursor c) => Function.update past c [.set t (s.nameOf t)]
  | .clone c, .ok (.cursor c') => Function.update past c' (past c)
  | .reset c t, .ok _ => Function.update past c (.set t (s.nameOf t) :: past c)
  | .removeCurrent c t _, .ok _ =>
    fun k => if k = c then .removed :: past k else .altered t :: past k
  | action, reply => fun k => (deed action reply).remember (past k)

def history (acts : List (Action α)) : Nat → History :=
  track remember empty (fun _ => []) acts

@[simp] theorem bumps_concat (acts : List (Action α)) (action : Action α) (t : TableId) :
    bumps (acts ++ [action]) t = bumps acts t + ((run acts).does action).bumps t :=
  tally_concat ..

@[simp] theorem history_concat (acts : List (Action α)) (action : Action α) :
    history (acts ++ [action]) = remember (run acts) action (history acts) :=
  track_concat ..

end Session

/-! ## Epochs -/

namespace Deed

theorem bumps_of_alters {deed : Deed} {t : TableId} (h : deed.alters ≠ some t) :
    deed.bumps t = 0 := by
  cases deed with
  | inserted u k events => simpa [alters, bumps] using h
  | unlinked u k => simpa [alters, bumps] using h
  | _ => rfl

theorem bumps_pos {deed : Deed} {t : TableId} (h : deed.alters = some t) : 0 < deed.bumps t := by
  cases deed with
  | inserted u k events => simp_all [alters, bumps]
  | unlinked u k => simp_all [alters, bumps]
  | _ => cases h

end Deed

namespace Workspace
variable {α : Type} {w w' : Workspace α} {held : Holdings} {deed : Deed} {t : TableId}

structure Counts (w : Workspace α) (bumps : TableId → Nat) : Prop where
  epoch : ∀ t table, w.table? t = some table → table.epoch = UInt64.ofNat (bumps t)
  fresh : ∀ t, w.tables.size ≤ t → bumps t = 0

theorem Counts.step {bumps : TableId → Nat} (hb : w.Counts bumps) (hw : w.Sound held)
    (hc : Change w deed w') : w'.Counts fun t => bumps t + deed.bumps t := by
  constructor
  · intro t table' ht
    obtain ⟨a', hu'⟩ := (hw.step hc).exists_uses ht
    cases hw.fate hc hu' with
    | kept hu _ hne => rw [Deed.bumps_of_alters hne, Nat.add_zero, hb.epoch t _ hu.table?]
    | opened hd hsize hnew =>
      subst hd
      rw [hb.fresh t hsize.ge]
      exact (Table.indexes_create hnew a').2.2.2.1
    | inserted hd hu _ _ _ hi =>
      subst hd
      rw [hi.epoch, hb.epoch t _ hu.table?, Deed.bumps, if_pos rfl, ← UInt64.ofNat_add]
    | unlinked hd hu _ hi =>
      subst hd
      rw [hi.epoch, hb.epoch t _ hu.table?, Deed.bumps, if_pos rfl, UInt64.ofNat_add]
      rfl
  · intro t ht
    have hold : w.tables.size ≤ t := (hw.size_le hc).trans ht
    have hne : deed.alters ≠ some t := fun he => (hc.lt_of_alters he).not_ge hold
    simp only [Deed.bumps_of_alters hne, hb.fresh t hold]

end Workspace

/-! ## Cursors in step with their tables -/

namespace Workspace
variable {α : Type} {w w' : Workspace α} {held : Holdings} {deed : Deed} {t : TableId}
  {b : Nat} {past : History} {cur : Cursor}

structure Tracks (w : Workspace α) (b : Nat) (past : History) (cur : Cursor) : Prop where
  settled : past.settled = some (cur.table, cur.tableName)
  known : cur.table < w.tables.size
  epoch : ∃ m ≤ b, cur.epoch = UInt64.ofNat m ∧ (past.Untouched cur.table ↔ m = b)
  place : b < 2 ^ 64 → past.Untouched cur.table → ∀ table a cs, w.Uses cur.table table a →
    table.Indexes a cs → ∃ passed rest, cur.place.Splits cs passed rest

theorem Tracks.step (hc : w.Tracks b past cur) (hw : w.Sound held) (hch : Change w deed w') :
    w'.Tracks (b + deed.bumps cur.table) (deed.remember past) cur := by
  have hknown := hc.known.trans_le (hw.size_le hch)
  obtain ⟨m, hm, he, hiff⟩ := hc.epoch
  by_cases ht : deed.alters = some cur.table
  · have hpos := Deed.bumps_pos ht
    have hpast : deed.remember past = .altered cur.table :: past := by rw [Deed.remember, ht]
    have hnot : ¬ (deed.remember past).Untouched cur.table := by
      rw [hpast]
      exact fun h => h.1 rfl
    refine ⟨by rw [hpast]; exact hc.settled, hknown, ⟨m, by omega, he, ?_⟩, ?_⟩
    · exact iff_of_false hnot (by omega)
    · exact fun _ h => absurd h hnot
  · have hsettled : (deed.remember past).settled = past.settled := by
      unfold Deed.remember
      split <;> rfl
    have huntouched : (deed.remember past).Untouched cur.table ↔ past.Untouched cur.table := by
      unfold Deed.remember
      split
      · rename_i u hu
        exact and_iff_right fun hut => ht (by rw [hu, hut])
      · exact Iff.rfl
    rw [Deed.bumps_of_alters ht, Nat.add_zero]
    refine ⟨hsettled.trans hc.settled, hknown, ⟨m, hm, he, huntouched.trans hiff⟩, ?_⟩
    intro hb hu table a' cs hua' hcs
    cases hw.fate hch hua' with
    | kept hua hks _ hthread =>
      obtain rfl := (hks.congr hthread).unique hcs
      exact hc.place hb (huntouched.mp hu) _ _ _ hua hks
    | opened _ hsize => exact absurd hsize hc.known.ne
    | inserted hd => exact absurd (hd ▸ rfl) ht
    | unlinked hd => exact absurd (hd ▸ rfl) ht

theorem tracks_atStart {table : Table} (ht : w.table? t = some table) (hid : table.id = t)
    {bumps : TableId → Nat} (hb : w.Counts bumps) (past : History) :
    w.Tracks (bumps t) (.set t table.name :: past) (.atStart table) where
  settled := by rw [← hid]; rfl
  known := by
    have htab : (Cursor.atStart table).table = t := hid
    rw [htab]
    unfold table? at ht
    split at ht
    · rename_i table' he
      exact (Array.getElem?_eq_some_iff.mp he).1
    · cases ht
  epoch := ⟨bumps t, le_rfl, hb.epoch t table ht, iff_of_true trivial rfl⟩
  place _ _ _ _ cs _ _ := ⟨[], cs.flatten, rfl, rfl⟩

theorem eq_of_epoch_eq {m b : Nat} (hm : m ≤ b) (hb : b < 2 ^ 64)
    (he : UInt64.ofNat m = UInt64.ofNat b) : m = b := by
  have h := congrArg UInt64.toNat he
  rwa [UInt64.toNat_ofNat', UInt64.toNat_ofNat', Nat.mod_eq_of_lt (hm.trans_lt hb),
    Nat.mod_eq_of_lt hb] at h

/-- A cursor is valid for exactly the table it was set on and that was not altered otherwise
since. -/
theorem Tracks.isValid_iff {bumps : TableId → Nat} (hc : w.Tracks (bumps cur.table) past cur)
    (hb : w.Counts bumps) {table : Table} (ht : w.table? t = some table) (hid : table.id = t)
    (hlt : bumps t < 2 ^ 64) : cur.isValid table = true ↔ past.Fresh t := by
  have hsettled : past.settled.map (·.1) = some t ↔ cur.table = t := by
    rw [hc.settled, Option.map_some, Option.some.injEq]
  simp only [Cursor.isValid, Bool.and_eq_true, beq_iff_eq, History.Fresh, hsettled, hid]
  apply and_congr_right
  intro hcur
  obtain ⟨m, hm, he, hiff⟩ := hc.epoch
  rw [hcur] at hm hiff
  rw [hiff, he, hb.epoch t table ht]
  exact ⟨fun h => eq_of_epoch_eq hm hlt h, fun h => by rw [h]⟩

theorem Tracks.advance {table : Table} {a : Arena α} (hc : w.Tracks b past cur)
    (hu : w.Uses cur.table table a) {cur' : Cursor} {found : Option Handle}
    (he : cur.advance table a = .ok (cur', found)) : w.Tracks b past cur' := by
  have hcur := Cursor.eq_of_advance he
  obtain ⟨hsettled, hknown, hepoch, hplace⟩ := hc
  rw [hcur] at he ⊢
  refine ⟨hsettled, hknown, hepoch, ?_⟩
  intro hb hun table' a' cs hu' hcs
  obtain ⟨passed, rest, hs⟩ := hplace hb hun table' a' cs hu' hcs
  have htab := hu.tables.symm.trans hu'.tables
  cases htab
  have harena := hu.arenas.symm.trans hu'.arenas
  cases harena
  obtain ⟨place, hadv, hsplits, -⟩ := Cursor.advance_splits hcs hs
  rw [hadv] at he
  cases he
  exact ⟨_, _, hsplits⟩

/-- A cursor that removed a record is in step with the table as it is then. -/
theorem Tracks.removed {bumps : TableId → Nat} (hc : w.Tracks (bumps cur.table) past cur)
    (hw : w.Sound held) (hb : w.Counts bumps) {table table' : Table} {a a' : Arena α} {cs : Chains}
    {h : Handle} {r : Record α} {resume : Nat} (hu : w.Uses t table a) (ht : table.Indexes a cs)
    (hv : cur.isValid table = true) (hp : cur.place = .on h resume) (hr : a.get? h = some r)
    (hi : table.Unlinked a cs h table' a') :
    (w.put t table' a').Tracks (bumps cur.table + 1) (.removed :: past)
      { cur with epoch := table'.epoch, place := .gap r.next resume } := by
  obtain ⟨hid, -⟩ := hw.uses hu
  have hcur := hw.table_eq hu hv
  refine ⟨hc.settled, ?_, ⟨bumps cur.table + 1, le_rfl, ?_, iff_of_true trivial rfl⟩, ?_⟩
  · simpa [put, setTable, setArena] using hc.known
  · rw [hi.epoch, hb.epoch t table hu.table?, hcur, UInt64.ofNat_add]
    rfl
  · intro hlt _ table'' a'' ks hu'' hks
    simp only [hcur] at hu''
    obtain ⟨rfl, rfl⟩ := uses_put hu hi.same.arena hu''
    obtain rfl := hi.indexes.unique hks
    have hbumps : bumps t < 2 ^ 64 := by
      rw [hcur] at hlt
      omega
    obtain ⟨-, hun⟩ := (hc.isValid_iff hb hu.table? hid hbumps).mp hv
    rw [← hcur] at hu hun hbumps
    obtain ⟨passed, rest, hs⟩ := hc.place hbumps hun table a cs hu ht
    exact ⟨_, _, (Cursor.splits_without ht hp hr hs).1⟩

end Workspace

namespace Session
variable {α : Type}

theorem run_counts (acts : List (Action α)) : (run acts).space.Counts (bumps acts) := by
  induction acts using List.reverseRecOn with
  | nil => exact ⟨by simp [empty], fun _ _ => rfl⟩
  | append_singleton acts action ih =>
    rw [run_concat, funext fun t => bumps_concat acts action t]
    exact ih.step (run_sound acts) (act_change (run_sound acts) action)

variable {s : Session α} {held : Holdings} {bumps : TableId → Nat} {past : Nat → History}

def Tracked (s : Session α) (bumps : TableId → Nat) (past : Nat → History) : Prop :=
  ∀ (c : Nat) cur, s.cursors[c]? = some cur → s.space.Tracks (bumps cur.table) (past c) cur

theorem Tracked.push (hs : s.Tracked bumps past) {cur : Cursor} {own : History}
    (hcur : s.space.Tracks (bumps cur.table) own cur) :
    Tracked { s with cursors := s.cursors.push cur } bumps
      (Function.update past s.cursors.size own) := by
  intro c cur' hc
  rw [Array.getElem?_push] at hc
  split at hc
  · rename_i he
    cases hc
    rw [he, Function.update_self]
    exact hcur
  · rename_i hne
    rw [Function.update_of_ne hne]
    exact hs c cur' hc

theorem Tracked.set (hs : s.Tracked bumps past) (c : Nat) {cur : Cursor} {own : History}
    (hcur : s.space.Tracks (bumps cur.table) own cur) :
    (s.setCursor c cur).Tracked bumps (Function.update past c own) := by
  intro k cur' hk
  by_cases hkc : k = c
  · subst hkc
    simp only [setCursor, Array.getElem?_setIfInBounds_self] at hk
    split at hk
    · cases hk
      rw [Function.update_self]
      exact hcur
    · cases hk
  · rw [setCursor, Array.getElem?_setIfInBounds_ne (Ne.symm hkc)] at hk
    rw [Function.update_of_ne hkc]
    exact hs k cur' hk

theorem Tracked.step (hs : s.Tracked bumps past) (hw : s.space.Sound held) {action : Action α}
    (hc : (s.act action).1.cursors = s.cursors) :
    (s.act action).1.Tracked (fun t => bumps t + (s.does action).bumps t)
      fun k => (s.does action).remember (past k) := by
  intro c cur hcur
  rw [hc] at hcur
  exact (hs c cur hcur).step hw (act_change hw action)

theorem Tracked.advance (hs : s.Tracked bumps past) (hw : s.space.Sound held) (c : Nat)
    (t : TableId) (p : ArenaId) : (s.act (.advance c t p)).1.Tracked bumps past := by
  rcases act_advance hw c t p with
    ⟨e, he⟩ | ⟨cur, table, a, place, found, hc, hu, -, hv, hmove, he⟩ <;> rw [he]
  · exact hs
  · obtain rfl := hw.table_eq hu hv
    have htracks := (hs c cur hc).advance hu hmove
    have hset : (s.setCursor c { cur with place }).Tracked bumps
        (Function.update past c (past c)) := hs.set c htracks
    rwa [Function.update_eq_self] at hset

theorem Tracked.removeCurrent (hs : s.Tracked bumps past) (hw : s.space.Sound held)
    (hb : s.space.Counts bumps) (c : Nat) (t : TableId) (p : ArenaId) :
    (s.act (.removeCurrent c t p)).1.Tracked
      (fun u => bumps u + (s.does (.removeCurrent c t p)).bumps u)
      (remember s (.removeCurrent c t p) past) := by
  have hchange := act_change hw (.removeCurrent c t p)
  simp only [does, remember] at hchange ⊢
  rcases act_removeCurrent hw c t p with
    ⟨e, he⟩ | ⟨cur, table, a, cs, table', a', h, r, resume, hc, hu, -, hv, ht, hp, hr, hi, he⟩
  · rw [he]
    exact hs
  · simp only [he] at hchange ⊢
    obtain rfl := hw.table_eq hu hv
    intro k cur' hk
    by_cases hkc : k = c
    · subst hkc
      have hlt := (Array.getElem?_eq_some_iff.mp hc).1
      rw [Array.getElem?_setIfInBounds_self_of_lt hlt] at hk
      cases hk
      simp only [if_true, deed, Deed.bumps]
      exact (hs k cur hc).removed hw hb hu ht hv hp hr hi
    · rw [Array.getElem?_setIfInBounds_ne (Ne.symm hkc)] at hk
      simp only [if_neg hkc]
      exact (hs k cur' hk).step hw hchange

theorem tracks_set (hw : s.space.Sound held) (hb : s.space.Counts bumps) {t : TableId}
    {table : Table} (ht : s.space.table? t = some table) (own : History) :
    s.space.Tracks (bumps (Cursor.atStart table).table) (.set t (s.nameOf t) :: own)
      (.atStart table) := by
  obtain ⟨a, hu⟩ := hw.exists_uses ht
  obtain ⟨hid, -⟩ := hw.uses hu
  have hcur : (Cursor.atStart table).table = t := hid
  have hname : s.nameOf t = table.name := by rw [nameOf, ht, Option.elim]
  rw [hcur, hname]
  exact Workspace.tracks_atStart ht hid hb own

theorem Tracked.act (hs : s.Tracked bumps past) (hw : s.space.Sound held)
    (hb : s.space.Counts bumps) (action : Action α) :
    (s.act action).1.Tracked (fun t => bumps t + (s.does action).bumps t)
      (remember s action past) := by
  cases action with
  | cursor t =>
    simp only [does, remember, Session.act]
    rcases s.space.cursor_cases t with he | ⟨table, ht, he⟩
    · simp only [he]
      exact hs
    · simp only [he]
      exact hs.push (tracks_set hw hb ht [])
  | clone c =>
    simp only [does, remember, Session.act]
    rcases s.getCursor_cases c with he | ⟨cur, hc, he⟩
    · simp only [he]
      exact hs
    · simp only [he]
      exact hs.push (hs c cur hc)
  | reset c t =>
    simp only [does, remember, Session.act]
    rcases s.getCursor_cases c with he | ⟨cur, hc, he⟩
    · simp only [he]
      exact hs
    · rcases s.space.cursor_cases t with he' | ⟨table, ht, he'⟩
      · simp only [he, he']
        exact hs
      · simp only [he, he']
        exact hs.set c (tracks_set hw hb ht (past c))
  | advance c t p => exact hs.advance hw c t p
  | removeCurrent c t p => exact hs.removeCurrent hw hb c t p
  | _ => exact hs.step hw rfl

theorem run_tracked (acts : List (Action α)) :
    (run acts).Tracked (Session.bumps acts) (history acts) := by
  induction acts using List.reverseRecOn with
  | nil => exact fun c cur hc => by simp [empty] at hc
  | append_singleton acts action ih =>
    rw [run_concat, funext fun t => bumps_concat acts action t, history_concat]
    exact ih.act (run_sound acts) (run_counts acts) action

/-! ## Validity -/

theorem cursors_other (hw : s.space.Sound held) {c : Nat} (hlt : c < s.cursors.size)
    {action : Action α} (hreset : ∀ t, action ≠ .reset c t)
    (hadvance : ∀ t p, action ≠ .advance c t p) (hremove : ∀ t p, action ≠ .removeCurrent c t p) :
    (s.act action).1.cursors[c]? = s.cursors[c]? := by
  cases action with
  | cursor t =>
    simp only [Session.act]
    cases s.space.cursor t with
    | error e => rfl
    | ok cur => exact Array.getElem?_push_lt hlt ▸ (Array.getElem?_eq_getElem hlt).symm
  | clone k =>
    simp only [Session.act]
    cases s.getCursor k with
    | error e => rfl
    | ok cur => exact Array.getElem?_push_lt hlt ▸ (Array.getElem?_eq_getElem hlt).symm
  | reset k t =>
    have hk : k ≠ c := fun he => hreset t (he ▸ rfl)
    simp only [Session.act]
    cases s.getCursor k <;> cases s.space.cursor t <;>
      first | rfl | exact Array.getElem?_setIfInBounds_ne hk
  | advance k t p =>
    have hk : k ≠ c := fun he => hadvance t p (he ▸ rfl)
    rcases act_advance hw k t p with ⟨e, he⟩ | ⟨_, _, _, _, _, -, -, -, -, -, he⟩ <;> rw [he]
    exact Array.getElem?_setIfInBounds_ne hk
  | removeCurrent k t p =>
    have hk : k ≠ c := fun he => hremove t p (he ▸ rfl)
    rcases act_removeCurrent hw k t p with
      ⟨e, he⟩ | ⟨_, _, _, _, _, _, _, _, _, -, -, -, -, -, -, -, -, he⟩ <;> rw [he]
    exact Array.getElem?_setIfInBounds_ne hk
  | _ => rfl

/-- The table of a cursor and its epoch change only by a reset or by a removal through it. -/
theorem cursor_kept (hw : s.space.Sound held) {c : Nat} {cur cur' : Cursor}
    (hc : s.cursors[c]? = some cur) {action : Action α} (hreset : ∀ t, action ≠ .reset c t)
    (hc' : (s.act action).1.cursors[c]? = some cur') :
    cur'.table = cur.table ∧
      (cur'.epoch = cur.epoch ∨ (s.does action).alters = some cur.table) := by
  have hlt := (Array.getElem?_eq_some_iff.mp hc).1
  by_cases hadvance : ∀ t p, action ≠ .advance c t p
  · by_cases hremove : ∀ t p, action ≠ .removeCurrent c t p
    · rw [cursors_other hw hlt hreset hadvance hremove, hc] at hc'
      cases hc'
      exact ⟨rfl, Or.inl rfl⟩
    · push Not at hremove
      obtain ⟨t, p, rfl⟩ := hremove
      rw [does]
      rcases act_removeCurrent hw c t p with
        ⟨e, he⟩ | ⟨old, table, a, cs, table', a', h, r, resume, hold, hu, -, hv, -, -, -, -, he⟩
      · rw [he, hc] at hc'
        cases hc'
        exact ⟨rfl, Or.inl rfl⟩
      · obtain rfl : cur = old := Option.some.inj (hc.symm.trans hold)
        rw [he] at hc' ⊢
        rw [Array.getElem?_setIfInBounds_self_of_lt hlt] at hc'
        cases hc'
        exact ⟨rfl, Or.inr (congrArg some (hw.table_eq hu hv).symm)⟩
  · push Not at hadvance
    obtain ⟨t, p, rfl⟩ := hadvance
    rcases act_advance hw c t p with ⟨e, he⟩ | ⟨old, table, a, place, found, hold, -, -, -, -, he⟩
    · rw [he, hc] at hc'
      cases hc'
      exact ⟨rfl, Or.inl rfl⟩
    · obtain rfl : cur = old := Option.some.inj (hc.symm.trans hold)
      rw [he, setCursor, Array.getElem?_setIfInBounds_self_of_lt hlt] at hc'
      cases hc'
      exact ⟨rfl, Or.inl rfl⟩

variable {t : TableId} {table : Table} {c : Nat} {cur : Cursor}

theorem cursor_fresh_iff (acts : List (Action α)) (ht : (run acts).space.table? t = some table)
    (hc : (run acts).cursors[c]? = some cur) (hlt : Session.bumps acts t < 2 ^ 64) :
    cur.isValid table = true ↔ (history acts c).Fresh t := by
  obtain ⟨a, hu⟩ := (run_sound acts).exists_uses ht
  obtain ⟨hid, -⟩ := (run_sound acts).uses hu
  exact (run_tracked acts c cur hc).isValid_iff (run_counts acts) ht hid hlt

theorem cursor_splits (acts : List (Action α)) {a : Arena α} {cs : Chains}
    (hu : (run acts).space.Uses t table a) (hcs : table.Indexes a cs)
    (hc : (run acts).cursors[c]? = some cur) (hlt : Session.bumps acts t < 2 ^ 64)
    (hv : cur.isValid table = true) : ∃ passed rest, cur.place.Splits cs passed rest := by
  obtain ⟨-, hun⟩ := (cursor_fresh_iff acts hu.table? hc hlt).mp hv
  obtain rfl := (run_sound acts).table_eq hu hv
  exact (run_tracked acts c cur hc).place hlt hun table a cs hu hcs

/-- What hinders the access to the table and its arena hinders a step and a removal. -/
theorem act_of_getWalked (hc : s.cursors[c]? = some cur) {p : ArenaId} {e : Failure}
    (he : s.space.getWalked cur t p = .error e) :
    (s.act (.advance c t p)).2 = .error e ∧ (s.act (.removeCurrent c t p)).2 = .error e := by
  have hadv : s.space.advance cur t p = .error e := by
    rw [Workspace.advance, he]
    rfl
  have hrem : s.space.removeCurrent cur t p = (s.space, .error e) := by
    rw [Workspace.removeCurrent, he]
    rfl
  simp only [act_advance_eq hc, act_removeCurrent_eq hc, hadv, hrem, and_self]

/-- A stale cursor is refused under the name of the table it was set on, whatever the arena. -/
theorem act_stale (ht : s.space.table? t = some table) (hc : s.cursors[c]? = some cur)
    (hv : cur.isValid table = false) (p : ArenaId) :
    (s.act (.advance c t p)).2 = .error (.staleCursor cur.tableName) ∧
      (s.act (.removeCurrent c t p)).2 = .error (.staleCursor cur.tableName) :=
  act_of_getWalked hc (Workspace.getWalked_stale ht hv p)

theorem act_foreign (ht : s.space.table? t = some table) (hc : s.cursors[c]? = some cur)
    (hv : cur.isValid table = true) {p : ArenaId} (hp : p ≠ table.arena) :
    (s.act (.advance c t p)).2 = .error (.foreignArena table.name) ∧
      (s.act (.removeCurrent c t p)).2 = .error (.foreignArena table.name) :=
  act_of_getWalked hc (Workspace.getWalked_foreign ht hv hp)

variable {a : Arena α} {cs : Chains} {passed rest : List Handle}

theorem act_advance_splits (hu : s.space.Uses t table a) (hcs : table.Indexes a cs)
    (hc : s.cursors[c]? = some cur) (hv : cur.isValid table = true)
    (hs : cur.place.Splits cs passed rest) :
    ∃ place, s.act (.advance c t table.arena) =
        (s.setCursor c { cur with place }, .ok (.found rest.head?)) ∧
      place.Splits cs (passed ++ rest.head?.toList) rest.tail ∧
      ({ cur with place } : Cursor).current? = rest.head? := by
  obtain ⟨place, hmove, hsplits, hcurrent⟩ := cur.advance_splits hcs hs
  have hadv : s.space.advance cur t table.arena = .ok ({ cur with place }, rest.head?) := by
    rw [Workspace.advance, hu.getWalked hv]
    exact hmove
  exact ⟨place, by simp only [act_advance_eq hc, hadv], hsplits, hcurrent⟩

theorem act_removeCurrent_splits (hu : s.space.Uses t table a) (hcs : table.Indexes a cs)
    (hc : s.cursors[c]? = some cur) (hv : cur.isValid table = true)
    (hs : cur.place.Splits cs passed rest) :
    (cur.current? = none ∧
      s.act (.removeCurrent c t table.arena) = (s, .error .noCurrentRecord)) ∨
      ∃ table' a' h r resume, cur.place = .on h resume ∧ a.get? h = some r ∧
        table.Unlinked a cs h table' a' ∧
        s.act (.removeCurrent c t table.arena) =
          (⟨s.space.put t table' a', s.cursors.setIfInBounds c
            { cur with epoch := table'.epoch, place := .gap r.next resume }⟩, .ok (.handle h)) := by
  simp only [act_removeCurrent_eq hc]
  rcases Workspace.removeCurrent_cases hu hcs hv with
    ⟨hnone, hrem⟩ | ⟨h, hon, hn, hrem⟩ | ⟨table', a', h, r, resume, hp, hr, hrem, hi⟩
  · exact Or.inl ⟨hnone, by simp only [hrem]⟩
  · refine absurd (hs.refers ?_) hn
    unfold Cursor.current? at hon
    split at hon
    · rename_i heq
      cases hon
      rw [heq]
      exact List.mem_cons_self
    · cases hon
  · exact Or.inr ⟨table', a', h, r, resume, hp, hr, hi, by simp only [hrem, setCursor]⟩

theorem act_not_stale (hu : s.space.Uses t table a) (hcs : table.Indexes a cs)
    (hc : s.cursors[c]? = some cur) (hv : cur.isValid table = true)
    (hs : cur.place.Splits cs passed rest) (p : ArenaId) (name : String) :
    (s.act (.advance c t p)).2 ≠ .error (.staleCursor name) ∧
      (s.act (.removeCurrent c t p)).2 ≠ .error (.staleCursor name) := by
  by_cases hp : p = table.arena
  · subst hp
    obtain ⟨place, hadv, -⟩ := act_advance_splits hu hcs hc hv hs
    refine ⟨by simp [hadv], ?_⟩
    rcases act_removeCurrent_splits hu hcs hc hv hs with
      ⟨-, hrem⟩ | ⟨table', a', h, r, resume, -, -, -, hrem⟩ <;> simp [hrem]
  · obtain ⟨hadv, hrem⟩ := act_foreign hu.table? hc hv hp
    exact ⟨by simp [hadv], by simp [hrem]⟩

/-- A cursor is valid for a table in use exactly when that is the table it was last set on, and it
was not altered since then or since the last removal through the cursor, but for that removal. A
step and a removal are refused as stale exactly when the cursor is not valid, and under the name of
the table it was set on. A valid cursor refers to linked records only. No action that leaves the
structure of the table alone, other than a reset of the cursor, makes a difference. -/
theorem cursor_validity (acts : List (Action α)) (ht : (run acts).space.table? t = some table)
    (hc : (run acts).cursors[c]? = some cur) (hlt : Session.bumps acts t < 2 ^ 64) :
    (cur.isValid table = true ↔ (history acts c).Fresh t) ∧
    (∀ p name, ((run acts).act (.advance c t p)).2 = .error (.staleCursor name) ↔
      ¬ (history acts c).Fresh t ∧ ∃ u, (history acts c).settled = some (u, name)) ∧
    (∀ p name, ((run acts).act (.removeCurrent c t p)).2 = .error (.staleCursor name) ↔
      ¬ (history acts c).Fresh t ∧ ∃ u, (history acts c).settled = some (u, name)) ∧
    (cur.isValid table = true → ∀ h ∈ cur.place.refers, ∃ a r,
      (run acts).space.arena? table.arena = some a ∧ a.get? h = some r ∧ r.linked = true) ∧
    ∀ action table' cur', ((run acts).does action).alters ≠ some t →
      (∀ u, action ≠ .reset c u) → ((run acts).act action).1.space.table? t = some table' →
      ((run acts).act action).1.cursors[c]? = some cur' →
      cur'.isValid table' = cur.isValid table := by
  have hw := run_sound acts
  have hfresh := cursor_fresh_iff acts ht hc hlt
  obtain ⟨a, hu⟩ := hw.exists_uses ht
  obtain ⟨hid, -, cs, hcs, -⟩ := hw.uses hu
  have hsettled := (run_tracked acts c cur hc).settled
  refine ⟨hfresh, ?_, ?_, ?_, ?_⟩
  · intro p name
    rw [← hfresh, hsettled]
    cases hv : cur.isValid table with
    | false => simp [(act_stale ht hc hv p).1]
    | true =>
      obtain ⟨passed, rest, hs⟩ := cursor_splits acts hu hcs hc hlt hv
      simp [(act_not_stale hu hcs hc hv hs p name).1]
  · intro p name
    rw [← hfresh, hsettled]
    cases hv : cur.isValid table with
    | false => simp [(act_stale ht hc hv p).2]
    | true =>
      obtain ⟨passed, rest, hs⟩ := cursor_splits acts hu hcs hc hlt hv
      simp [(act_not_stale hu hcs hc hv hs p name).2]
  · intro hv h hh
    obtain ⟨passed, rest, hs⟩ := cursor_splits acts hu hcs hc hlt hv
    obtain ⟨r, hr, hl⟩ := hcs.linked (hs.refers hh)
    exact ⟨a, r, hu.arenas, hr, hl⟩
  · intro action table' cur' hne hreset ht' hc'
    have hchange := act_change hw action
    obtain ⟨a', hu'⟩ := (hw.step hchange).exists_uses ht'
    obtain ⟨htable, hepoch⟩ := cursor_kept hw hc hreset hc'
    cases hw.fate hchange hu' with
    | kept hua _ _ =>
      obtain rfl : table = table' := Option.some.inj (ht.symm.trans hua.table?)
      rcases hepoch with hepoch | halters
      · rw [Cursor.isValid, Cursor.isValid, htable, hepoch]
      · -- the cursor belongs to another table
        have hother : cur.table ≠ t := fun he => hne (he ▸ halters)
        rw [Cursor.isValid, Cursor.isValid, htable, hid, beq_false_of_ne hother, Bool.false_and,
          Bool.false_and]
    | opened _ hsize =>
      exact absurd hsize (Array.getElem?_eq_some_iff.mp hu.tables).1.ne
    | inserted hd => exact absurd (hd ▸ rfl) hne
    | unlinked hd => exact absurd (hd ▸ rfl) hne

/-- A cursor stays valid over its own removal, and a clone of it does not. -/
theorem sample_own_removal : ∃ table own other,
    let acts := sample ++ [.clone 0, .advance 0 0 0, .removeCurrent 0 0 0]
    (run acts).space.table? 0 = some table ∧ (run acts).cursors[0]? = some own ∧
      (run acts).cursors[1]? = some other ∧ own.isValid table = true ∧
      other.isValid table = false ∧
      ((run acts).act (.advance 1 0 0)).2 = .error (.staleCursor "t") := by
  let acts : List (Action Unit) := sample ++ [.clone 0, .advance 0 0 0, .removeCurrent 0 0 0]
  obtain ⟨table, ht⟩ : ∃ table, (run acts).space.table? 0 = some table :=
    Option.isSome_iff_exists.mp (by decide +kernel)
  obtain ⟨own, hown⟩ : ∃ cur, (run acts).cursors[0]? = some cur :=
    Option.isSome_iff_exists.mp (by decide +kernel)
  obtain ⟨other, hother⟩ : ∃ cur, (run acts).cursors[1]? = some cur :=
    Option.isSome_iff_exists.mp (by decide +kernel)
  have hlt : Session.bumps acts 0 < 2 ^ 64 := by decide +kernel
  have hpast : history acts 0 = [.removed, .set 0 "t"] := by decide +kernel
  have hpast' : history acts 1 = [.altered 0, .set 0 "t"] := by decide +kernel
  have hstale : ¬ (history acts 1).Fresh 0 := by
    rw [hpast']
    exact fun h => h.2.1 rfl
  obtain ⟨hvalid, -⟩ := cursor_validity acts ht hown hlt
  obtain ⟨hvalid', hadvance, -⟩ := cursor_validity acts ht hother hlt
  refine ⟨table, own, other, ht, hown, hother, hvalid.mpr ?_, ?_,
    (hadvance 0 "t").mpr ⟨hstale, 0, ?_⟩⟩
  · rw [hpast]
    exact ⟨rfl, trivial⟩
  · exact Bool.eq_false_iff.mpr fun h => hstale (hvalid'.mp h)
  · rw [hpast']
    rfl

end Session
end RecordIndex
