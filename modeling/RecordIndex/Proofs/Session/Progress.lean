import Mathlib
import RecordIndex.Proofs.Session.Validity

/-! # Progress of a walk

A cursor is set on a table and goes through it, removing some of the records it comes to. Meanwhile
anything may be done that does not alter the table otherwise. The walk then yields the listing of
the table as it was at the start, and the listing loses exactly the records removed.
-/
namespace RecordIndex.Session
variable {α : Type}

structure Progress where
  yielded : List Handle
  removed : List Handle
  /-- What the last step yielded; nothing past the end. -/
  last : Option Handle

def Progress.note (c : Nat) (s : Session α) (action : Action α) (x : Progress) : Progress :=
  match action, (s.act action).2 with
  | .advance k _ _, .ok (.found found) =>
    if k = c then { x with yielded := x.yielded ++ found.toList, last := found } else x
  | .removeCurrent k _ _, .ok (.handle h) =>
    if k = c then { x with removed := h :: x.removed } else x
  | _, _ => x

def progress (c : Nat) (s : Session α) (acts : List (Action α)) : Progress :=
  track (Progress.note c) s ⟨[], [], none⟩ acts

/-- What may be done while the cursor `c` walks the table `t`: the structure of the table changes by
removals through the cursor only, the table stays in use, and the cursor is not reset. -/
structure Permits (c : Nat) (t : TableId) (s : Session α) (action : Action α) : Prop where
  alters : (s.does action).alters = some t → ∃ u p, action = .removeCurrent c u p
  retires : (s.does action).retires ≠ some t
  reset : ∀ u, action ≠ .reset c u

def PermitsAll (c : Nat) (t : TableId) : Session α → List (Action α) → Prop
  | _, [] => True
  | s, action :: acts => Permits c t s action ∧ PermitsAll c t (s.act action).1 acts

/-- The walk over a table that listed `all` at its start has come as far as `x`, with `rest` still
before it. -/
structure Walking (s : Session α) (c : Nat) (t : TableId) (p : ArenaId) (all : List Handle)
    (x : Progress) (rest : List Handle) : Prop where
  nodup : all.Nodup
  listed : all = x.yielded ++ rest
  removed : ∀ h ∈ x.removed, h ∈ x.yielded
  cursor : ∃ cur table a cs, s.cursors[c]? = some cur ∧ s.space.Uses t table a ∧
    table.arena = p ∧ table.Indexes a cs ∧ cur.isValid table = true ∧
    cur.place.Splits cs (x.yielded.filter (· ∉ x.removed)) rest ∧
    ∀ h, cur.current? = some h ↔ x.last = some h ∧ h ∉ x.removed

variable {s : Session α} {held : Holdings} {c : Nat} {t : TableId} {p : ArenaId}
  {all rest : List Handle} {x : Progress}

theorem walking_start {table : Table} {a : Arena α} {cs : Chains}
    (hu : s.space.Uses t table a) (hcs : table.Indexes a cs)
    (hc : s.cursors[c]? = some (.atStart table)) :
    s.Walking c t table.arena cs.flatten ⟨[], [], none⟩ cs.flatten := by
  refine ⟨hcs.threads.nodup, rfl, by simp, .atStart table, table, a, cs, hc, hu, rfl, hcs, ?_, ?_,
    ?_⟩
  · simp [Cursor.isValid, Cursor.atStart]
  · exact ⟨rfl, rfl⟩
  · simp [Cursor.current?, Cursor.atStart]

theorem Walking.other (hx : s.Walking c t p all x rest) (hw : s.space.Sound held)
    {action : Action α} (halters : (s.does action).alters ≠ some t)
    (hretires : (s.does action).retires ≠ some t)
    (hcur : (s.act action).1.cursors[c]? = s.cursors[c]?) :
    (s.act action).1.Walking c t p all x rest := by
  obtain ⟨cur, table, a, cs, hc, hu, hp, hcs, hv, hs, hcurrent⟩ := hx.cursor
  obtain ⟨a', hu', hcs', -⟩ := hw.kept (act_change hw action) hu hcs halters hretires
  exact ⟨hx.nodup, hx.listed, hx.removed, cur, table, a', cs, hcur.trans hc, hu', hp, hcs', hv, hs,
    hcurrent⟩

/-! ## Steps and removals of the walk -/

theorem Walking.not_removed (hx : s.Walking c t p all x rest) {h : Handle} (hh : h ∈ rest) :
    h ∉ x.removed := by
  intro hm
  have hn := hx.nodup
  rw [hx.listed] at hn
  exact (List.nodup_append.mp hn).2.2 h (hx.removed h hm) h hh rfl

theorem Walking.advance (hx : s.Walking c t p all x rest) :
    ∃ s', s.act (.advance c t p) = (s', .ok (.found rest.head?)) ∧
      s'.Walking c t p all
        { x with yielded := x.yielded ++ rest.head?.toList, last := rest.head? } rest.tail := by
  obtain ⟨cur, table, a, cs, hc, hu, rfl, hcs, hv, hs, -⟩ := hx.cursor
  obtain ⟨place, hact, hsplits, hcurrent⟩ := act_advance_splits hu hcs hc hv hs
  have hlt := (Array.getElem?_eq_some_iff.mp hc).1
  have hnew : ∀ h ∈ rest.head?.toList, h ∉ x.removed := by
    intro h hh
    exact hx.not_removed (List.mem_of_head? (Option.mem_toList.mp hh))
  have hkeep : rest.head?.toList.filter (· ∉ x.removed) = rest.head?.toList :=
    List.filter_eq_self.mpr (by simpa using hnew)
  refine ⟨_, hact, hx.nodup, ?_, ?_, { cur with place }, table, a, cs, ?_, hu, rfl, hcs, hv, ?_, ?_⟩
  · rw [hx.listed]
    cases rest <;> simp
  · exact fun h hh => List.mem_append_left _ (hx.removed h hh)
  · exact Array.getElem?_setIfInBounds_self_of_lt hlt
  · rw [List.filter_append, hkeep]
    exact hsplits
  · intro h
    rw [hcurrent]
    refine ⟨fun he => ⟨he, hnew h ?_⟩, fun he => he.1⟩
    simp [he]

theorem filter_not_mem_cons {yielded removed : List Handle} {h : Handle} (hn : yielded.Nodup)
    (hlast : (yielded.filter (· ∉ removed)).getLast? = some h) :
    (yielded.filter (· ∉ removed)).dropLast = yielded.filter (· ∉ h :: removed) := by
  have hsplit : (yielded.filter (· ∉ removed)).dropLast ++ [h] = yielded.filter (· ∉ removed) :=
    List.dropLast_append_getLast? h hlast
  have hnodup := hn.filter (· ∉ removed)
  have hcons : yielded.filter (· ∉ h :: removed) =
      (yielded.filter (· ∉ removed)).filter (· ≠ h) := by
    rw [List.filter_filter]
    apply List.filter_congr
    intro k _
    simp [not_or]
  rw [← hsplit] at hnodup
  rw [hcons, ← hsplit, List.dropLast_concat, List.filter_append]
  have hself : (yielded.filter (· ∉ removed)).dropLast.filter (· ≠ h) =
      (yielded.filter (· ∉ removed)).dropLast := by
    apply List.filter_eq_self.mpr
    intro k hk
    have hne : k ≠ h := (List.nodup_append.mp hnodup).2.2 k hk h List.mem_cons_self
    simpa using hne
  rw [hself]
  simp

theorem Walking.removeCurrent (hx : s.Walking c t p all x rest) :
    (s.act (.removeCurrent c t p) = (s, .error .noCurrentRecord) ∧
      ∀ h, x.last = some h → h ∈ x.removed) ∨
      ∃ s' h, s.act (.removeCurrent c t p) = (s', .ok (.handle h)) ∧ x.last = some h ∧
        h ∉ x.removed ∧ s'.Walking c t p all { x with removed := h :: x.removed } rest := by
  obtain ⟨cur, table, a, cs, hc, hu, rfl, hcs, hv, hs, hcurrent⟩ := hx.cursor
  rcases act_removeCurrent_splits hu hcs hc hv hs with
    ⟨hnone, hact⟩ | ⟨table', a', h, r, resume, hp, hr, hi, hact⟩
  · refine Or.inl ⟨hact, fun h hh => ?_⟩
    by_contra hn
    have hsome := (hcurrent h).mpr ⟨hh, hn⟩
    rw [hnone] at hsome
    cases hsome
  · have hon : cur.current? = some h := by rw [Cursor.current?, hp]
    obtain ⟨hlast, hnot⟩ := (hcurrent h).mp hon
    obtain ⟨hsplits, hgetLast⟩ := Cursor.splits_without hcs hp hr hs
    have hlt := (Array.getElem?_eq_some_iff.mp hc).1
    have hmem : h ∈ x.yielded := (List.mem_filter.mp (List.mem_of_getLast? hgetLast)).1
    refine Or.inr ⟨_, h, hact, hlast, hnot, hx.nodup, hx.listed, ?_, _, table', a', cs.without h,
      Array.getElem?_setIfInBounds_self_of_lt hlt, Workspace.put_uses hu hi.same.arena a',
      hi.same.arena, hi.indexes, ?_, ?_, ?_⟩
    · intro k hk
      rcases List.mem_cons.mp hk with rfl | hk
      · exact hmem
      · exact hx.removed k hk
    · simp only [Cursor.isValid, Bool.and_eq_true, beq_iff_eq] at hv ⊢
      exact ⟨hv.1.trans hi.same.id.symm, trivial⟩
    · have hn : x.yielded.Nodup := by
        have hall := hx.nodup
        rw [hx.listed] at hall
        exact (List.nodup_append.mp hall).1
      rw [← filter_not_mem_cons hn hgetLast]
      exact hsplits
    · intro k
      refine ⟨fun hk => by simp [Cursor.current?] at hk, fun hk => ?_⟩
      obtain ⟨hk, hnk⟩ := hk
      obtain rfl : h = k := Option.some.inj (hlast.symm.trans hk)
      exact absurd List.mem_cons_self hnk

/-- An action that names the cursor is refused, or it names the table of the walk with its arena. -/
theorem Walking.named (hx : s.Walking c t p all x rest) (hw : s.space.Sound held) {u : TableId}
    {cur : Cursor} {table : Table} {a : Arena α} (hc : s.cursors[c]? = some cur)
    (hu : s.space.Uses u table a) (hv : cur.isValid table = true) : u = t ∧ table.arena = p := by
  obtain ⟨cur', table', a', cs, hc', hu', hp, -, hv', -⟩ := hx.cursor
  obtain rfl : cur = cur' := Option.some.inj (hc.symm.trans hc')
  obtain rfl : u = t := (hw.table_eq hu hv).symm.trans (hw.table_eq hu' hv')
  obtain rfl : table = table' := Option.some.inj (hu.table?.symm.trans hu'.table?)
  exact ⟨rfl, hp⟩

theorem note_other {action : Action α} (hadvance : ∀ u q, action ≠ .advance c u q)
    (hremove : ∀ u q, action ≠ .removeCurrent c u q) : Progress.note c s action x = x := by
  unfold Progress.note
  split
  · rename_i k u q found _
    have hk : k ≠ c := fun he => hadvance u q (he ▸ rfl)
    rw [if_neg hk]
  · rename_i k u q h _
    have hk : k ≠ c := fun he => hremove u q (he ▸ rfl)
    rw [if_neg hk]
  · rfl

theorem Walking.step (hx : s.Walking c t p all x rest) (hw : s.space.Sound held)
    {action : Action α} (hpermits : Permits c t s action) :
    ∃ rest', (s.act action).1.Walking c t p all (Progress.note c s action x) rest' := by
  by_cases hadvance : ∀ u q, action ≠ .advance c u q
  · by_cases hremove : ∀ u q, action ≠ .removeCurrent c u q
    · obtain ⟨cur, -, -, -, hc, -⟩ := hx.cursor
      have hlt := (Array.getElem?_eq_some_iff.mp hc).1
      have halters : (s.does action).alters ≠ some t := by
        intro he
        obtain ⟨u, q, rfl⟩ := hpermits.alters he
        exact hremove u q rfl
      rw [note_other hadvance hremove]
      exact ⟨rest, hx.other hw halters hpermits.retires
        (cursors_other hw hlt hpermits.reset hadvance hremove)⟩
    · push Not at hremove
      obtain ⟨u, q, rfl⟩ := hremove
      rcases act_removeCurrent hw c u q with
        ⟨e, he⟩ | ⟨cur, table, a, cs, table', a', h, r, resume, hc, hu, rfl, hv, -, -, -, -, he⟩
      · simp only [Progress.note, he]
        exact ⟨rest, hx⟩
      · obtain ⟨rfl, rfl⟩ := hx.named hw hc hu hv
        rcases hx.removeCurrent with ⟨hact, -⟩ | ⟨s', k, hact, -, -, hwalk⟩
        · simp [he] at hact
        · simp only [Progress.note, hact, if_true]
          exact ⟨rest, hwalk⟩
  · push Not at hadvance
    obtain ⟨u, q, rfl⟩ := hadvance
    rcases act_advance hw c u q with ⟨e, he⟩ | ⟨cur, table, a, place, found, hc, hu, rfl, hv, -, -⟩
    · simp only [Progress.note, he]
      exact ⟨rest, hx⟩
    · obtain ⟨rfl, rfl⟩ := hx.named hw hc hu hv
      obtain ⟨s', hact, hwalk⟩ := hx.advance
      simp only [Progress.note, hact, if_true]
      exact ⟨rest.tail, hwalk⟩

theorem Walking.perform {acts : List (Action α)} (hx : s.Walking c t p all x rest)
    (hw : s.space.Sound held) (hpermits : PermitsAll c t s acts) :
    ∃ rest', (s.perform acts).Walking c t p all (track (Progress.note c) s x acts) rest' := by
  induction acts generalizing s held x rest with
  | nil => exact ⟨rest, hx⟩
  | cons action acts ih =>
    obtain ⟨hfirst, hrest⟩ := hpermits
    obtain ⟨rest', hx'⟩ := hx.step hw hfirst
    exact ih hx' (hw.step (act_change hw action)) hrest

/-- A walk yields the listing its table had at the start, record by record and then nothing more; a
removal succeeds exactly on a record just yielded and not removed yet; and the listing of the table
is always what was yielded and not removed, followed by what is still to come. -/
theorem walk_progress (acts : List (Action α)) {table : Table}
    (ht : (run acts).space.table? t = some table)
    (hc : (run acts).cursors[c]? = some (.atStart table))
    (hall : (run acts).space.handles t table.arena = .ok all) (more : List (Action α))
    (hpermits : PermitsAll c t (run acts) more) :
    let s := (run acts).perform more
    let x := progress c (run acts) more
    all.Nodup ∧ x.yielded = all.take x.yielded.length ∧
      s.space.handles t table.arena =
        .ok (x.yielded.filter (· ∉ x.removed) ++ all.drop x.yielded.length) ∧
      (s.act (.advance c t table.arena)).2 = .ok (.found all[x.yielded.length]?) ∧
      (∀ h, (s.act (.removeCurrent c t table.arena)).2 = .ok (.handle h) ↔
        x.last = some h ∧ h ∉ x.removed) ∧
      ((∀ h, x.last = some h → h ∈ x.removed) →
        (s.act (.removeCurrent c t table.arena)).2 = .error .noCurrentRecord) := by
  intro s x
  have hw := run_sound acts
  obtain ⟨a, hu⟩ := hw.exists_uses ht
  obtain ⟨-, -, cs, hcs, -⟩ := hw.uses hu
  have hlisting : (run acts).space.handles t table.arena = .ok cs.flatten := by
    rw [Workspace.handles, hu.getPair]
    exact hcs.handles
  obtain rfl : cs.flatten = all := Except.ok.inj (hlisting.symm.trans hall)
  obtain ⟨rest, hx⟩ : ∃ rest, s.Walking c t table.arena cs.flatten x rest :=
    (walking_start hu hcs hc).perform hw hpermits
  have htake : cs.flatten.take x.yielded.length = x.yielded := by
    rw [hx.listed]
    exact List.take_left
  have hdrop : cs.flatten.drop x.yielded.length = rest := by
    rw [hx.listed]
    exact List.drop_left
  refine ⟨hx.nodup, htake.symm, ?_, ?_, ?_, ?_⟩
  · obtain ⟨cur, table', a', cs', -, hu', hp, hcs', -, hs, -⟩ := hx.cursor
    rw [Workspace.handles, ← hp, hu'.getPair, hdrop, hs.append]
    exact hcs'.handles
  · obtain ⟨s', hact, -⟩ := hx.advance
    rw [← List.head?_drop, hdrop]
    exact congrArg Prod.snd hact
  · intro h
    rcases hx.removeCurrent with ⟨hact, hgone⟩ | ⟨s', k, hact, hlast, hn, -⟩ <;> rw [hact]
    · exact iff_of_false (by simp) fun hh => hh.2 (hgone h hh.1)
    · constructor
      · intro he
        cases he
        exact ⟨hlast, hn⟩
      · intro hh
        obtain rfl : k = h := Option.some.inj (hlast.symm.trans hh.1)
        rfl
  · intro hgone
    rcases hx.removeCurrent with ⟨hact, -⟩ | ⟨s', k, hact, hlast, hn, -⟩
    · exact congrArg Prod.snd hact
    · exact absurd (hgone k hlast) hn

/-- A walk over three records that removes and releases the first. -/
theorem sample_walk :
    let more := [.advance 0 0 0, .removeCurrent 0 0 0, .release 0 ⟨2, 1⟩, .advance 0 0 0]
    ((run sample).perform more).space.handles 0 0 = .ok [⟨1, 1⟩, ⟨0, 1⟩] ∧
      (((run sample).perform more).act (.advance 0 0 0)).2 = .ok (.found (some ⟨0, 1⟩)) ∧
      (((run sample).perform more).act (.removeCurrent 0 0 0)).2 = .ok (.handle ⟨1, 1⟩) := by
  intro more
  have ht : (run sample).space.table? 0 = some sampleTable := by rfl
  have hc : (run sample).cursors[0]? = some (.atStart sampleTable) := by rfl
  have hall : (run sample).space.handles 0 0 = .ok [⟨2, 1⟩, ⟨1, 1⟩, ⟨0, 1⟩] := by rfl
  have hpermits : PermitsAll 0 0 (run sample) more :=
    ⟨⟨fun h => absurd h (by decide +kernel), by decide +kernel, fun _ h => by cases h⟩,
      ⟨fun _ => ⟨0, 0, rfl⟩, by decide +kernel, fun _ h => by cases h⟩,
      ⟨fun h => absurd h (by decide +kernel), by decide +kernel, fun _ h => by cases h⟩,
      ⟨fun h => absurd h (by decide +kernel), by decide +kernel, fun _ h => by cases h⟩, trivial⟩
  have hyielded : (progress 0 (run sample) more).yielded = [⟨2, 1⟩, ⟨1, 1⟩] := by decide +kernel
  have hremoved : (progress 0 (run sample) more).removed = [⟨2, 1⟩] := by decide +kernel
  have hlast : (progress 0 (run sample) more).last = some ⟨1, 1⟩ := by decide +kernel
  obtain ⟨-, -, hlisting, hadvance, hremove, -⟩ := walk_progress sample ht hc hall more hpermits
  rw [hyielded] at hadvance hlisting
  rw [hremoved] at hlisting
  exact ⟨hlisting, hadvance, (hremove ⟨1, 1⟩).mpr ⟨hlast, by rw [hremoved]; decide⟩⟩

end RecordIndex.Session
