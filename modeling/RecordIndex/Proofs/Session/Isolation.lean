import Mathlib
import RecordIndex.Proofs.Session.Disposal
import RecordIndex.Proofs.Session.Refusals
import RecordIndex.Proofs.Workspace.Registers

/-! # Tables over one arena

All tables of an arena write into the links of its records. While only one of them is worked on, the
registers stay as they are, only records of that table and records inserted into it get other links,
and to the other tables and their cursors nothing has happened.
-/
namespace RecordIndex
variable {α : Type}

def Action.WorksOn (t : TableId) : Action α → Prop
  | .drop u => u = t
  | .takeNext u => u = t
  | action => ∃ p, action.pair? = some (t, p)

def Action.Reads : Action α → Prop
  | .lookup .. | .lookupSame .. | .entries .. | .handles .. | .census .. => True
  | _ => False

def Action.arena? : Action α → Option ArenaId
  | .alloc p _ => some p
  | .release p _ => some p
  | .rekey p _ _ => some p
  | .setPayload p _ _ => some p
  | _ => none

namespace Deed
variable {deed : Deed} {t : TableId}

def concerns : Deed → Option TableId
  | .inserted t _ _ | .unlinked t _ | .ended t | .closed t | .taken t _ => some t
  | _ => none

theorem not_alters (hd : deed.concerns ≠ some t) :
    deed.alters ≠ some t ∧ deed.retires ≠ some t := by
  cases deed with
  | inserted | unlinked => exact ⟨hd, nofun⟩
  | ended | closed => exact ⟨nofun, hd⟩
  | _ => exact ⟨nofun, nofun⟩

end Deed

namespace Workspace
variable {w w' : Workspace α} {held : Holdings} {deed : Deed} {t : TableId} {p : ArenaId}
  {a a' : Arena α} {h : Handle}

theorem Transfer.touched {hs : List Handle} (hc : Transfer w held t hs w')
    (ha : w.arenas[p]? = some a) (ha' : w'.arenas[p]? = some a')
    (hne : a'.get? h ≠ a.get? h) : p = (held t).arena ∧ (h ∈ (held t).records ∨ h ∈ hs) := by
  obtain ⟨b, b', x, x', -, hb, he, -, rfl⟩ := hc
  rw [setTable, arenas_setArena hb] at ha'
  split at ha'
  · rename_i hp
    cases ha'
    subst hp
    rw [hb] at ha
    cases ha
    refine ⟨rfl, ?_⟩
    by_contra hout
    rw [not_or] at hout
    exact hne (he.other h hout.1 hout.2)
  · rw [ha] at ha'
    cases ha'
    exact absurd rfl hne

/-- A change that did something has touched only records of the table it concerns, and the one it
put there. -/
theorem Sound.touched (hw : w.Sound held) (hc : Change w deed w') (hd : deed ≠ .nothing)
    (ha : w.arenas[p]? = some a) (ha' : w'.arenas[p]? = some a') (hne : a'.get? h ≠ a.get? h) :
    ∃ t, deed.concerns = some t ∧ p = (held t).arena ∧
      (h ∈ (held t).records ∨ ∃ events, deed = .inserted t h events) := by
  -- where the arenas are the same no record is touched
  have hstill : w'.arenas = w.arenas → False := by
    intro he
    rw [he, ha] at ha'
    cases ha'
    exact hne rfl
  cases hc with
  | quiet => exact absurd rfl hd
  | opened => exact absurd rfl hstill
  | ended => exact absurd rfl hstill
  | closed => exact absurd rfl hstill
  | inserted hu ht hr hl hi =>
    obtain ⟨hp, hm⟩ := (hw.transfer_inserted hu ht hr hl hi).touched ha ha' hne
    refine ⟨_, rfl, hp, ?_⟩
    rcases hm with hm | hm
    · exact Or.inl hm
    · rcases List.mem_cons.mp hm with rfl | hm
      · exact Or.inr ⟨_, rfl⟩
      · exact Or.inl hm
  | unlinked hu ht hi =>
    obtain ⟨hp, hm⟩ := (hw.transfer_unlinked hu ht hi).touched ha ha' hne
    exact ⟨_, rfl, hp, Or.inl (hm.elim id List.mem_of_mem_erase)⟩
  | taken ht hb hn =>
    obtain ⟨hp, hm⟩ := (hw.transfer_taken ht hb hn).touched ha ha' hne
    exact ⟨_, rfl, hp, Or.inl (hm.elim id List.mem_of_mem_erase)⟩

end Workspace

namespace Session
variable {s s' s'' : Session α} {held : Holdings} {t u : TableId} {p q : ArenaId} {table : Table}
  {a : Arena α} {cs : Chains} {action : Action α} {ops more : List (Action α)}

/-- Only what is done to an arena itself changes its register. -/
theorem register?_act (s : Session α) (harena : action.arena? = none) (hadd : action ≠ .addArena)
    (q : ArenaId) : (s.act action).1.space.register? q = s.space.register? q := by
  have hpair : ∀ {t p table} {b : Arena α}, s.space.getPair t p = .ok (table, b) →
      s.space.arenas[p]? = some b := Workspace.arenas_of_getPair
  cases action with
  | addArena => exact absurd rfl hadd
  | alloc | release | rekey | setPayload => cases harena
  | insert m t p h =>
    exact Workspace.register?_onPair (fun _ _ => hpair) (fun t a => t.register_insert m a h) q
  | remove t p key =>
    exact Workspace.register?_onPair (fun _ _ => hpair)
      (fun t a => t.register_removeFirst a key _) q
  | removeSame t p template same =>
    exact Workspace.register?_onPair (fun _ _ => hpair)
      (fun t a => t.register_removeFirst a template.key _) q
  | create m p name policy =>
    simp only [act, after, Workspace.create]
    split <;> rfl
  | beginTeardown t p =>
    simp only [act, after, Workspace.beginTeardown]
    split <;> rfl
  | takeNext t => exact s.space.register?_takeNext t q
  | cursor t =>
    simp only [act]
    split <;> rfl
  | clone c =>
    simp only [act]
    split <;> rfl
  | reset c t =>
    simp only [act]
    split <;> rfl
  | advance c t p =>
    simp only [act]
    split
    · rfl
    · split <;> rfl
  | removeCurrent c t p =>
    simp only [act]
    split
    · rfl
    · rename_i cur _
      have hregister : (s.space.removeCurrent cur t p).1.register? q = s.space.register? q :=
        Workspace.register?_onPair
          (fun _ _ hc => hpair (Workspace.getPair_of_getWalked hc))
          (fun t a => cur.register_removeCurrent t a) q
      split <;> rename_i hrem <;> rw [hrem] at hregister <;> exact hregister
  | _ => rfl

/-- An operation on a table that did nothing has left the workspace as it was. -/
theorem act_still (hw : s.space.Sound held) (ho : action.WorksOn t)
    (hd : s.does action = .nothing) : (s.act action).1.space = s.space := by
  cases action with
  | insert m t p h =>
    rcases act_insert hw m t p h with ⟨e, he, -⟩ | ⟨_, _, _, _, _, -, -, -, he, -⟩
    · rw [he]
    · rw [does, he] at hd
      cases hd
  | remove t p key =>
    rcases act_remove_cases hw t p with ⟨e, he, -⟩ | ⟨table, a, cs, hu, rfl, ht⟩
    · rw [he]
    · rcases act_remove hu ht key with ⟨-, he⟩ | ⟨_, _, -, he, -⟩
      · rw [he]
      · rw [does, he] at hd
        cases hd
  | removeSame t p template same =>
    rcases act_remove_cases hw t p with ⟨e, -, he⟩ | ⟨table, a, cs, hu, rfl, ht⟩
    · rw [he]
    · rcases act_removeSame hu ht template same with ⟨-, he⟩ | ⟨_, _, -, he, -⟩
      · rw [he]
      · rw [does, he] at hd
        cases hd
  | drop => cases hd
  | beginTeardown t p =>
    rw [does] at hd
    cases ha : (s.act (.beginTeardown t p)).2 <;> rw [ha] at hd <;> cases hd
  | takeNext t =>
    simp only [does, act, after] at hd ⊢
    rcases hw.takeNext_cases t with ⟨-, he⟩ | ⟨-, he⟩ | ⟨_, _, -, he, -⟩ <;> rw [he] at hd ⊢
    · cases hd
    · cases hd
  | advance c t p =>
    rcases act_advance hw c t p with ⟨e, he⟩ | ⟨_, _, _, _, _, -, -, -, -, -, he⟩ <;> rw [he]
    rfl
  | removeCurrent c t p =>
    rcases act_removeCurrent hw c t p with
      ⟨e, he⟩ | ⟨_, _, _, _, _, _, _, _, _, -, -, -, -, -, -, -, -, he⟩
    · rw [he]
    · rw [does, he] at hd
      cases hd
  | lookup | lookupSame | entries | handles | listing | census => rfl
  | _ => obtain ⟨p, hp⟩ := ho; cases hp

theorem deed_of_worksOn (ho : action.WorksOn t) (answer : Except Failure (Reply α)) :
    deed action answer = .nothing ∨ (deed action answer).concerns = some t := by
  unfold deed
  split
  case h_1 =>
    obtain ⟨p, hp⟩ := ho
    cases hp
  case h_6 | h_9 | h_10 => exact Or.inr (congrArg some ho)
  case h_11 => exact Or.inl rfl
  all_goals
    obtain ⟨p, hp⟩ := ho
    cases hp
    exact Or.inr rfl

theorem insert_of_does {h : Handle} {events : List Event}
    (hd : s.does action = .inserted t h events) : ∃ m p, action = .insert m t p h := by
  unfold does deed at hd
  split at hd <;> cases hd
  exact ⟨_, _, rfl⟩

theorem register?_worksOn (ho : action.WorksOn t) (q : ArenaId) :
    (s.act action).1.space.register? q = s.space.register? q := by
  apply register?_act
  · cases action with
    | alloc | release | rekey | setPayload =>
      obtain ⟨p, hp⟩ := ho
      cases hp
    | _ => rfl
  · rintro rfl
    obtain ⟨p, hp⟩ := ho
    cases hp

/-- What has become of a session while only the table `t` was worked on, which held what the account
says. -/
structure Frames (s s' : Session α) (held : Holdings) (t : TableId) (ops : List (Action α)) :
    Prop where
  register : ∀ q, s'.space.register? q = s.space.register? q
  touched : ∀ q h, s'.recordOf q h ≠ s.recordOf q h →
    q = (held t).arena ∧ (h ∈ (held t).records ∨ ∃ m p, .insert m t p h ∈ ops)
  kept : ∀ u ≠ t, ∀ (table : Table) a cs, s.space.Uses u table a → table.Indexes a cs →
    ∃ a', s'.space.Uses u table a' ∧ table.Indexes a' cs ∧
      ∀ h ∈ cs.flatten, a'.get? h = a.get? h
  cursors : ∀ (c : Nat) cur, s.cursors[c]? = some cur → cur.table ≠ t → s'.cursors[c]? = some cur

theorem frames_refl (s : Session α) (held : Holdings) (t : TableId) : Frames s s held t [] where
  register _ := rfl
  touched _ _ hne := absurd rfl hne
  kept _ _ _ a _ hu ht := ⟨a, hu, ht, fun _ _ => rfl⟩
  cursors _ _ hc _ := hc

theorem Frames.trans {held' : Holdings} (hf : Frames s s' held t ops)
    (hf' : Frames s' s'' held' t more) (harena : (held' t).arena = (held t).arena)
    (hrecords : ∀ h ∈ (held' t).records, h ∈ (held t).records ∨ ∃ m p, .insert m t p h ∈ ops) :
    Frames s s'' held t (ops ++ more) where
  register q := (hf'.register q).trans (hf.register q)
  touched q h hne := by
    have hmore : ∀ {acts : List (Action α)}, acts ⊆ ops ++ more →
        (h ∈ (held t).records ∨ ∃ m p, .insert m t p h ∈ acts) →
        h ∈ (held t).records ∨ ∃ m p, .insert m t p h ∈ ops ++ more := by
      rintro acts hsub (hh | ⟨m, p, hp⟩)
      · exact Or.inl hh
      · exact Or.inr ⟨m, p, hsub hp⟩
    by_cases hlast : s''.recordOf q h = s'.recordOf q h
    · rw [hlast] at hne
      obtain ⟨hq, hh⟩ := hf.touched q h hne
      exact ⟨hq, hmore (List.subset_append_left ..) hh⟩
    · obtain ⟨hq, hh⟩ := hf'.touched q h hlast
      refine ⟨hq.trans harena, ?_⟩
      rcases hh with hh | hh
      · exact hmore (List.subset_append_left ..) (hrecords h hh)
      · exact hmore (List.subset_append_right ..) (Or.inr hh)
  kept u hu table a cs hua ht := by
    obtain ⟨a', hua', ht', he⟩ := hf.kept u hu table a cs hua ht
    obtain ⟨a'', hua'', ht'', he'⟩ := hf'.kept u hu table a' cs hua' ht'
    exact ⟨a'', hua'', ht'', fun h hh => (he' h hh).trans (he h hh)⟩
  cursors c cur hc hne := hf'.cursors c cur (hf.cursors c cur hc hne) hne

theorem act_touched (hw : s.space.Sound held) (ho : action.WorksOn t) {h : Handle}
    (hne : (s.act action).1.recordOf q h ≠ s.recordOf q h) :
    q = (held t).arena ∧ (h ∈ (held t).records ∨ ∃ m p, action = .insert m t p h) := by
  by_cases hd : s.does action = .nothing
  · rw [recordOf, act_still hw ho hd] at hne
    exact absurd rfl hne
  · have hconcerns := (deed_of_worksOn ho (s.act action).2).resolve_left hd
    have hregister := register?_worksOn (s := s) ho q
    simp only [recordOf, Workspace.arena?] at hne
    cases ha : s.space.arenas[q]? with
    | none =>
      have hnone : (s.act action).1.space.arenas[q]? = none := by
        simpa [Workspace.register?, ha] using hregister
      rw [ha, hnone] at hne
      exact absurd rfl hne
    | some a =>
      obtain ⟨a', ha', -⟩ := Workspace.exists_of_register? hregister ha
      rw [ha, ha', Option.bind_some, Option.bind_some] at hne
      obtain ⟨v, hv, hq, hh⟩ := hw.touched (act_change hw action) hd ha ha' hne
      obtain rfl : t = v := Option.some.inj (hconcerns.symm.trans hv)
      refine ⟨hq, hh.imp_right ?_⟩
      rintro ⟨events, hi⟩
      exact insert_of_does hi

theorem act_cursors (hw : s.space.Sound held) (ho : action.WorksOn t) {c : Nat} {cur : Cursor}
    (hc : s.cursors[c]? = some cur) (hne : cur.table ≠ t) :
    (s.act action).1.cursors[c]? = some cur := by
  have hlt := (Array.getElem?_eq_some_iff.mp hc).1
  -- a cursor that is moved is valid for the table
  have hother : ∀ {c' : Nat} {cur' : Cursor} {table : Table} {a : Arena α},
      s.cursors[c']? = some cur' → s.space.Uses t table a → cur'.isValid table = true → c' ≠ c := by
    rintro c' cur' table a hc' hu hv rfl
    rw [hc] at hc'
    cases hc'
    exact hne (hw.table_eq hu hv)
  cases action with
  | advance c' t' p =>
    obtain ⟨p', hp'⟩ := ho
    cases hp'
    rcases act_advance hw c' t p with ⟨e, he⟩ | ⟨cur', _, _, _, _, hc', hu, -, hv, -, he⟩ <;>
      rw [he]
    · exact hc
    · rw [setCursor, Array.getElem?_setIfInBounds_ne (hother hc' hu hv), hc]
  | removeCurrent c' t' p =>
    obtain ⟨p', hp'⟩ := ho
    cases hp'
    rcases act_removeCurrent hw c' t p with
      ⟨e, he⟩ | ⟨cur', _, _, _, _, _, _, _, _, hc', hu, -, hv, -, -, -, -, he⟩ <;> rw [he]
    · exact hc
    · rw [Array.getElem?_setIfInBounds_ne (hother hc' hu hv), hc]
  | reset =>
    obtain ⟨p, hp⟩ := ho
    cases hp
  | _ => rw [cursors_other hw hlt (by simp) (by simp) (by simp), hc]

theorem act_frames (hw : s.space.Sound held) (ho : action.WorksOn t) :
    Frames s (s.act action).1 held t [action] where
  register := register?_worksOn ho
  touched q h hne := by
    obtain ⟨hq, hh⟩ := act_touched hw ho hne
    refine ⟨hq, hh.imp_right ?_⟩
    rintro ⟨m, p, rfl⟩
    exact ⟨m, p, List.mem_singleton_self _⟩
  kept u hu table a cs hua ht := by
    have hspares : (s.does action).concerns ≠ some u := by
      intro hd
      rcases deed_of_worksOn ho (s.act action).2 with he | he
      · rw [does, he] at hd
        cases hd
      · exact hu (Option.some.inj (hd.symm.trans he))
    obtain ⟨halters, hretires⟩ := Deed.not_alters hspares
    obtain ⟨a', hua', ht', he⟩ := hw.kept (act_change hw action) hua ht halters hretires
    obtain ⟨b, hb, hregister⟩ :=
      Workspace.exists_of_register? (register?_worksOn (s := s) ho table.arena) hua.arenas
    obtain rfl : a' = b := Option.some.inj (hua'.arenas.symm.trans hb)
    refine ⟨a', hua', ht', fun h hh => ?_⟩
    obtain ⟨r, hr, hl⟩ := ht.linked hh
    exact Arena.get?_of_thread? hr hl (he h hh) (Arena.label?_of_register hregister h)
  cursors c cur hc hne := act_cursors hw ho hc hne

theorem perform_frames (hw : s.space.Sound held) (hops : ∀ op ∈ ops, op.WorksOn t) :
    ∃ held', (s.perform ops).space.Sound held' ∧ (held' t).arena = (held t).arena ∧
      (∀ h ∈ (held' t).records, h ∈ (held t).records ∨ ∃ m p, .insert m t p h ∈ ops) ∧
      Frames s (s.perform ops) held t ops := by
  induction ops using List.reverseRecOn with
  | nil => exact ⟨held, hw, rfl, fun _ hh => Or.inl hh, frames_refl s held t⟩
  | append_singleton ops action ih =>
    obtain ⟨held', hw', harena, hrecords, hf⟩ := ih fun op ho => hops op (by simp [ho])
    have ho : action.WorksOn t := hops action (by simp)
    have hnew : ∀ p, (s.perform ops).does action ≠ .opened t p := by
      intro p he
      rcases deed_of_worksOn ho ((s.perform ops).act action).2 with hd | hd <;>
        rw [does] at he <;> rw [he] at hd <;> cases hd
    rw [perform_concat]
    refine ⟨_, hw'.step (act_change hw' action), (Deed.account_arena hnew).trans harena, ?_,
      hf.trans (act_frames hw' ho) harena hrecords⟩
    intro h hh
    rcases Deed.mem_account hh with ⟨hm, -⟩ | ⟨events, hi⟩
    · refine (hrecords h hm).imp_right ?_
      rintro ⟨m, p, hm⟩
      exact ⟨m, p, List.mem_append_left _ hm⟩
    · obtain ⟨m, p, rfl⟩ := insert_of_does hi
      exact Or.inr ⟨m, p, by simp⟩

/-! ## The other tables -/

def answers (s : Session α) : List (Action α) → List (Except Failure (Reply α))
  | [] => []
  | action :: acts => (s.act action).2 :: answers (s.act action).1 acts

theorem act_reads {a' : Arena α} (hu : s.space.Uses u table a) (hu' : s'.space.Uses u table a')
    (ht : table.Indexes a cs) (ht' : table.Indexes a' cs)
    (he : ∀ h ∈ cs.flatten, a'.get? h = a.get? h) (hr : action.Reads)
    (hpair : action.pair? = some (u, p)) : (s'.act action).2 = (s.act action).2 := by
  by_cases hp : p = table.arena
  · subst hp
    obtain ⟨hlookup, hsame, hentries, hhandles, hcensus⟩ := ht.reads_congr ht' he
    cases action with
    | lookup | lookupSame | entries | handles | census =>
      cases hpair
      simp only [act, read, Workspace.lookup, Workspace.lookupSame, Workspace.entries,
        Workspace.handles, Workspace.census, hu.getPair, hu'.getPair, bind, Except.bind, hlookup,
        hsame, hentries, hhandles, hcensus]
    | _ => cases hr
  · have hwalker : action.walker? = none := by
      cases action <;> first | rfl | cases hr
    rw [act_of_getPair (Workspace.getPair_foreign hu.table? hp) hpair hwalker,
      act_of_getPair (Workspace.getPair_foreign hu'.table? hp) hpair hwalker]

/-- A valid cursor is led through the rest of the listing, whatever else the arena holds. -/
theorem walk_answers (hu : s.space.Uses u table a) (ht : table.Indexes a cs) {c : Nat}
    {cur : Cursor} (hc : s.cursors[c]? = some cur) (hv : cur.isValid table = true)
    {passed rest : List Handle} (hs : cur.place.Splits cs passed rest) (n : Nat) :
    s.answers (List.replicate n (.advance c u table.arena)) =
      (List.range n).map fun i => .ok (.found rest[i]?) := by
  induction n generalizing s cur passed rest with
  | zero => rfl
  | succ n ih =>
    obtain ⟨place, hact, hs', -⟩ := act_advance_splits hu ht hc hv hs
    have hlt := (Array.getElem?_eq_some_iff.mp hc).1
    have hc' : (s.setCursor c { cur with place }).cursors[c]? = some { cur with place } :=
      Array.getElem?_setIfInBounds_self_of_lt hlt
    have hrest := ih (s := s.setCursor c { cur with place }) hu hc' hv hs'
    rw [List.replicate_succ, answers, hact, hrest, List.range_succ_eq_map, List.map_cons,
      List.map_map, List.head?_eq_getElem?]
    congr 1
    apply List.map_congr_left
    intro i _
    simp

/-! ## A teardown that disposes of nothing -/

theorem disposeAll_idle (n : Nat) : ∀ (hs : List Handle) (s : Session α),
    s.space.Closing t p hs → hs.length < n →
    let s' := s.perform (List.replicate (hs.length + 1) (.takeNext t))
    Workspace.disposeAll t (handOver fun s _ => s) n s.space s.cursors =
      (s'.space, .ok s'.cursors) := by
  induction n with
  | zero => exact fun hs s _ hlt => absurd hlt (Nat.not_lt_zero _)
  | succ n ih =>
    intro hs s hc hlt
    rcases act_takeNext hc with
      ⟨rfl, hn, hact⟩ | ⟨h, rest, a, w', rfl, hn, hact, hc', -, -⟩
    · simp [Workspace.disposeAll, hn, perform, hact]
    · have hrest := ih rest { s with space := w' } hc' (by simpa using hlt)
      rw [List.length_cons, List.replicate_succ, perform_cons, hact, Workspace.disposeAll, hn]
      exact hrest

theorem dismantle_idle (hw : s.space.Sound held) (hu : s.space.Uses t table a) :
    ∃ ops : List (Action α), (∀ op ∈ ops, op.WorksOn t) ∧ (∀ m p h, .insert m t p h ∉ ops) ∧
      s.dismantle t table.arena (fun s _ => s) = (s.perform ops, .ok ()) := by
  obtain ⟨-, -, cs, ht, -⟩ := hw.uses hu
  have hbegin : s.space.beginTeardown t table.arena = ((s.begun t table).space, .ok ()) := by
    rw [Workspace.beginTeardown, hu.getPair]
    rfl
  have hact : (s.act (.beginTeardown t table.arena)).1 = s.begun t table := by
    rw [act, after, hbegin]
    rfl
  have hrest := disposeAll_idle (table.count + 1) cs.flatten (s.begun t table)
    (begun_closing hu ht) (by rw [ht.count]; omega)
  refine ⟨.beginTeardown t table.arena :: List.replicate (cs.flatten.length + 1) (.takeNext t),
    ?_, ?_, ?_⟩
  · intro op ho
    rcases List.mem_cons.mp ho with rfl | ho
    · exact ⟨table.arena, rfl⟩
    · rw [List.eq_of_mem_replicate ho]
      exact rfl
  · intro m p h hm
    rcases List.mem_cons.mp hm with hm | hm
    · cases hm
    · cases List.eq_of_mem_replicate hm
  · rw [perform_cons, hact, dismantle, Workspace.dismantle]
    simp only [hu.table?, Option.elim, hbegin]
    simp only [begun] at hrest ⊢
    rw [hrest]

/-! ## Isolation -/

/-- While operations are done on one table only, or while it is taken apart and nothing is done with
its records, every handle is as live as before and stands for the same key and payload, and requests
for handles are served the same. Links change only on records that the table lists or takes in.
Every other table is the same, gives the same answers and leads its valid cursors through the same
records. -/
theorem tables_isolated (acts : List (Action α)) (ht : (run acts).space.table? t = some table)
    (hops : ∀ op ∈ ops, op.WorksOn t)
    (hs' : s' = (run acts).perform ops ∨
      ops = [] ∧ s' = ((run acts).dismantle t table.arena fun s _ => s).1) :
    let s := run acts
    (∀ q a, s.space.arena? q = some a → ∃ a', s'.space.arena? q = some a' ∧ a'.size = a.size ∧
      (∀ h, a'.contains h = a.contains h ∧ a'.label? h = a.label? h) ∧
      ∀ requests hs hs', a.serve requests = some hs → a'.serve requests = some hs' → hs' = hs) ∧
    (∃ hs, s.space.handles t table.arena = .ok hs ∧
      ∀ q h, s'.recordOf q h ≠ s.recordOf q h →
        q = table.arena ∧ (h ∈ hs ∨ ∃ m p, .insert m t p h ∈ ops)) ∧
    ∀ u other, u ≠ t → s.space.table? u = some other → s'.space.table? u = some other ∧
      (∀ action p, action.Reads → action.pair? = some (u, p) →
        (s'.act action).2 = (s.act action).2) ∧
      ∀ (c : Nat) cur, s.cursors[c]? = some cur → cur.isValid other = true →
        bumps acts u < 2 ^ 64 → s'.cursors[c]? = some cur ∧ ∀ n,
          s'.answers (List.replicate n (.advance c u other.arena)) =
            s.answers (List.replicate n (.advance c u other.arena)) := by
  intro s
  have hw := run_sound acts
  obtain ⟨a, hu⟩ := hw.exists_uses ht
  obtain ⟨-, hp, cs, hcs, hperm⟩ := hw.uses hu
  obtain ⟨steps, hsteps, hinserts, rfl⟩ : ∃ steps : List (Action α),
      (∀ op ∈ steps, op.WorksOn t) ∧
        (∀ m p h, .insert m t p h ∈ steps → .insert m t p h ∈ ops) ∧ s' = s.perform steps := by
    rcases hs' with he | ⟨-, he⟩
    · exact ⟨ops, hops, fun _ _ _ => id, he⟩
    · obtain ⟨steps, hsteps, hnone, hd⟩ := dismantle_idle hw hu
      exact ⟨steps, hsteps, fun m p h hm => absurd hm (hnone m p h), by rw [he, hd]⟩
  obtain ⟨-, -, -, -, hf⟩ := perform_frames hw hsteps
  refine ⟨?_, ⟨cs.flatten, hu.handles hcs, ?_⟩, ?_⟩
  · intro q b hb
    obtain ⟨b', hb', he⟩ := Workspace.exists_of_register? (hf.register q) hb
    have hlabel := fun h => Arena.label?_of_register he h
    refine ⟨b', hb', by rw [Arena.size_eq, he, Arena.size_eq], fun h => ⟨?_, hlabel h⟩,
      fun _ _ _ => Arena.serve_of_register he⟩
    rw [Arena.contains_eq, hlabel, Arena.contains_eq]
  · intro q h hne
    obtain ⟨hq, hh⟩ := hf.touched q h hne
    refine ⟨hq.trans hp.symm, hh.imp hperm.mem_iff.mpr ?_⟩
    rintro ⟨m, p, hm⟩
    exact ⟨m, p, hinserts m p h hm⟩
  · intro u other hne hother
    obtain ⟨b, hub⟩ := hw.exists_uses hother
    obtain ⟨-, -, ks, hks, -⟩ := hw.uses hub
    obtain ⟨b', hub', hks', he⟩ := hf.kept u hne other b ks hub hks
    refine ⟨hub'.table?, fun action p => act_reads hub hub' hks hks' he, ?_⟩
    intro c cur hc hv hlt
    obtain ⟨passed, rest, hs⟩ := cursor_splits acts hub hks hc hlt hv
    have hc' := hf.cursors c cur hc (by rw [hw.table_eq hub hv]; exact hne)
    refine ⟨hc', fun n => ?_⟩
    rw [walk_answers hub' hks' hc' hv hs, walk_answers hub hks hc hv hs]

def shared : List (Action Unit) :=
  [.addArena, .create .ample 0 "t" ⟨[1, 2], 1⟩, .create .ample 0 "u" ⟨[1, 2], 1⟩,
    .alloc 0 (.detached 4 ()), .alloc 0 (.detached 5 ()), .insert .ample 0 0 ⟨0, 1⟩,
    .insert .ample 1 0 ⟨1, 1⟩, .cursor 1]

/-- The first table lets its record go and takes it in again. -/
theorem shared_isolated : ∃ table other cur,
    let s := run shared
    let s' := s.perform [.remove 0 0 4, .insert .ample 0 0 ⟨0, 1⟩]
    s.space.table? 0 = some table ∧ s.space.table? 1 = some other ∧ s.cursors[0]? = some cur ∧
      cur.isValid other = true ∧ s'.space.table? 1 = some other ∧
      (s'.act (.lookup 1 0 5)).2 = .ok (.found (some ⟨1, 1⟩)) ∧
      s'.answers [.advance 0 1 0, .advance 0 1 0] =
        s.answers [.advance 0 1 0, .advance 0 1 0] := by
  let table : Table := ⟨0, 0, "t", ⟨[1, 2], 1⟩, #[some ⟨0, 1⟩], 1, 1, false⟩
  let other : Table := ⟨1, 0, "u", ⟨[1, 2], 1⟩, #[some ⟨1, 1⟩], 1, 1, false⟩
  let cur : Cursor := ⟨1, "u", 1, .start⟩
  have ht : (run shared).space.table? 0 = some table := by rfl
  have hother : (run shared).space.table? 1 = some other := by rfl
  have hc : (run shared).cursors[0]? = some cur := by rfl
  have hops : ∀ op ∈ ([.remove 0 0 4, .insert .ample 0 0 ⟨0, 1⟩] : List (Action Unit)),
      op.WorksOn 0 := by
    intro op ho
    rcases List.mem_pair.mp ho with rfl | rfl <;> exact ⟨0, rfl⟩
  obtain ⟨-, -, hothers⟩ := tables_isolated shared ht hops (Or.inl rfl)
  obtain ⟨htable, hreads, hwalk⟩ := hothers 1 other (by decide) hother
  obtain ⟨-, hanswers⟩ := hwalk 0 cur hc (by decide) (by decide +kernel)
  refine ⟨table, other, cur, ht, hother, hc, by decide, htable, ?_, ?_⟩
  · exact (hreads (.lookup 1 0 5) 0 trivial rfl).trans rfl
  · exact hanswers 2

end Session
end RecordIndex
