import Mathlib
import RecordIndex.Proofs.Session.Validity

/-! # Refused actions

An action that is refused leaves everything as it was: arenas, tables, cursors and the log; and so
does a removal that finds nothing. Only a teardown that is refused has a price, the table it was
for. With an arena that is not the one of the table every action on the table is refused.
-/
namespace RecordIndex
variable {α β : Type}

def Action.pair? : Action α → Option (TableId × ArenaId)
  | .insert _ t p _ => some (t, p)
  | .lookup t p _ => some (t, p)
  | .lookupSame t p _ _ => some (t, p)
  | .remove t p _ => some (t, p)
  | .removeSame t p _ _ => some (t, p)
  | .entries t p => some (t, p)
  | .handles t p => some (t, p)
  | .listing t p => some (t, p)
  | .census t p _ => some (t, p)
  | .beginTeardown t p => some (t, p)
  | .advance _ t p => some (t, p)
  | .removeCurrent _ t p => some (t, p)
  | _ => none

def Action.walker? : Action α → Option Nat
  | .advance c _ _ => some c
  | .removeCurrent c _ _ => some c
  | _ => none

namespace Session
variable {s : Session α} {held : Holdings} {t : TableId} {p : ArenaId} {table : Table}
  {e : Failure}

/-! ## The log -/

def log (acts : List (Action α)) : List Event :=
  track (fun s action events => events ++ s.emits action) empty [] acts

@[simp] theorem log_concat (acts : List (Action α)) (action : Action α) :
    log (acts ++ [action]) = log acts ++ (run acts).emits action :=
  track_concat ..

/-- An insertion is refused before the table has anything to report. -/
theorem emits_of_refused (hw : s.space.Sound held) {action : Action α}
    (he : (s.act action).2 = .error e) : s.emits action = [] := by
  cases action with
  | insert m t p h =>
    rcases act_insert hw m t p h with ⟨e', -, hnone⟩ | ⟨_, _, _, _, _, -, -, -, ha, -⟩
    · exact hnone
    · rw [ha] at he
      cases he
  | _ => rfl

/-! ## Nothing changes -/

theorem after_cases {result : Workspace α × Except Failure β}
    (hr : (∃ e, result = (s.space, .error e)) ∨ ∃ b, result.2 = .ok b) (reply : β → Reply α) :
    (∃ e, s.after result reply = (s, .error e)) ∨
      ∃ answer, (s.after result reply).2 = .ok answer := by
  rcases hr with ⟨e, rfl⟩ | ⟨b, hb⟩
  · exact Or.inl ⟨e, rfl⟩
  · exact Or.inr ⟨reply b, by rw [after, hb]; rfl⟩

theorem read_cases (s : Session α) (result : Except Failure β) (reply : β → Reply α) :
    (∃ e, s.read result reply = (s, .error e)) ∨
      ∃ answer, (s.read result reply).2 = .ok answer := by
  cases result with
  | error e => exact Or.inl ⟨e, rfl⟩
  | ok b => exact Or.inr ⟨reply b, rfl⟩

/-- Other than the beginning of a teardown, an action succeeds or does nothing. -/
theorem act_cases (hw : s.space.Sound held) {action : Action α}
    (hne : ∀ t p, action ≠ .beginTeardown t p) :
    (∃ e, s.act action = (s, .error e)) ∨ ∃ answer, (s.act action).2 = .ok answer := by
  cases action with
  | addArena => exact Or.inr ⟨_, rfl⟩
  | alloc p r => exact after_cases (s.space.onArena_cases p fun a => Or.inr ⟨_, rfl⟩) _
  | release p h =>
    refine after_cases (s.space.onArena_cases p fun a => ?_) _
    rcases a.release_cases h with hr | ⟨r, -, -, hr, -⟩
    · exact Or.inl hr
    · exact Or.inr ⟨r, hr⟩
  | rekey p h key =>
    refine after_cases (s.space.onArena_cases p fun a => ?_) _
    rcases a.rekey_cases h key with hr | ⟨r, -, -, hr⟩
    · exact Or.inl hr
    · exact Or.inr ⟨(), by rw [hr]⟩
  | setPayload p h payload =>
    exact after_cases (s.space.onArena_cases p fun a => Or.inr ⟨_, rfl⟩) _
  | create m p name policy =>
    refine after_cases ?_ _
    rcases s.space.create_cases m p name policy with hc | ⟨w', hc, -⟩
    · exact Or.inl hc
    · exact Or.inr ⟨_, by rw [hc]⟩
  | insert m t p h =>
    rcases act_insert hw m t p h with ⟨e, ha, -⟩ | ⟨_, _, _, _, _, -, -, -, ha, -⟩
    · exact Or.inl ⟨e, ha⟩
    · exact Or.inr ⟨_, by rw [ha]⟩
  | remove t p key =>
    rcases act_remove_cases hw t p with ⟨e, ha, -⟩ | ⟨table, a, cs, hu, rfl, ht⟩
    · exact Or.inl ⟨e, ha key⟩
    · exact Or.inr ⟨_, (act_remove hu ht key).answer.1⟩
  | removeSame t p template same =>
    rcases act_remove_cases hw t p with ⟨e, -, ha⟩ | ⟨table, a, cs, hu, rfl, ht⟩
    · exact Or.inl ⟨e, ha template same⟩
    · exact Or.inr ⟨_, (act_removeSame hu ht template same).answer.1⟩
  | drop t => exact Or.inr ⟨_, rfl⟩
  | beginTeardown t p => exact absurd rfl (hne t p)
  | takeNext t =>
    refine after_cases ?_ _
    rcases hw.takeNext_cases t with ⟨-, ht⟩ | ⟨-, ht⟩ | ⟨w', h, -, ht, -⟩
    · exact Or.inl ⟨_, ht⟩
    · exact Or.inr ⟨_, by rw [ht]⟩
    · exact Or.inr ⟨_, by rw [ht]⟩
  | cursor t =>
    simp only [act]
    rcases s.space.cursor_cases t with hc | ⟨table, -, hc⟩ <;> rw [hc]
    · exact Or.inl ⟨_, rfl⟩
    · exact Or.inr ⟨_, rfl⟩
  | clone c =>
    simp only [act]
    rcases s.getCursor_cases c with hc | ⟨cur, -, hc⟩ <;> rw [hc]
    · exact Or.inl ⟨_, rfl⟩
    · exact Or.inr ⟨_, rfl⟩
  | reset c t =>
    simp only [act]
    rcases s.getCursor_cases c with hc | ⟨cur, -, hc⟩ <;> rw [hc]
    · exact Or.inl ⟨_, rfl⟩
    · rcases s.space.cursor_cases t with hc' | ⟨table, -, hc'⟩ <;> rw [hc']
      · exact Or.inl ⟨_, rfl⟩
      · exact Or.inr ⟨_, rfl⟩
  | advance c t p =>
    rcases act_advance hw c t p with ha | ⟨_, _, _, _, _, -, -, -, -, -, ha⟩
    · exact Or.inl ha
    · exact Or.inr ⟨_, by rw [ha]⟩
  | removeCurrent c t p =>
    rcases act_removeCurrent hw c t p with
      ha | ⟨_, _, _, _, _, _, _, _, _, -, -, -, -, -, -, -, -, ha⟩
    · exact Or.inl ha
    · exact Or.inr ⟨_, by rw [ha]⟩
  | lookup t p key => exact read_cases ..
  | lookupSame t p template same => exact read_cases ..
  | entries t p => exact read_cases ..
  | handles t p => exact read_cases ..
  | listing t p => exact read_cases ..
  | census t p same => exact read_cases ..

theorem act_refused (hw : s.space.Sound held) {action : Action α}
    (hne : ∀ t p, action ≠ .beginTeardown t p) (he : (s.act action).2 = .error e) :
    (s.act action).1 = s := by
  rcases act_cases hw hne with ⟨e', ha⟩ | ⟨answer, ha⟩
  · rw [ha]
  · rw [ha] at he
    cases he

theorem beginTeardown_refused (hw : s.space.Sound held)
    (he : (s.act (.beginTeardown t p)).2 = .error e) :
    (s.act (.beginTeardown t p)).1 = { s with space := s.space.drop t } := by
  rw [act] at he ⊢
  rcases hw.beginTeardown_cases t p with ⟨e', hb⟩ | ⟨w', hb, -⟩ <;> rw [hb] at he ⊢
  · rfl
  · cases he

/-- A removal that finds nothing changes nothing. -/
theorem act_remove_miss (hw : s.space.Sound held) {key : UInt64}
    (he : (s.act (.remove t p key)).2 = .ok (.found none)) :
    (s.act (.remove t p key)).1 = s := by
  rcases act_remove_cases hw t p with ⟨e, ha, -⟩ | ⟨table, a, cs, hu, rfl, ht⟩
  · rw [ha]
  · obtain ⟨hanswer, hnone⟩ := (act_remove hu ht key).answer
    rw [hanswer, Except.ok.injEq, Reply.found.injEq] at he
    exact hnone he

theorem act_removeSame_miss (hw : s.space.Sound held) {template : Record α}
    {same : Record α → Record α → Bool}
    (he : (s.act (.removeSame t p template same)).2 = .ok (.found none)) :
    (s.act (.removeSame t p template same)).1 = s := by
  rcases act_remove_cases hw t p with ⟨e, -, ha⟩ | ⟨table, a, cs, hu, rfl, ht⟩
  · rw [ha]
  · obtain ⟨hanswer, hnone⟩ := (act_removeSame hu ht template same).answer
    rw [hanswer, Except.ok.injEq, Reply.found.injEq] at he
    exact hnone he

/-! ## Foreign arenas -/

/-- What hinders the access to the table and its arena hinders the action, unless a cursor is looked
at before. -/
theorem act_of_getPair (he : s.space.getPair t p = .error e) {action : Action α}
    (hpair : action.pair? = some (t, p)) (hwalker : action.walker? = none) :
    (s.act action).2 = .error e := by
  cases action with
  | insert | remove | removeSame =>
    cases hpair
    simp only [act, after, Workspace.insert, Workspace.remove, Workspace.removeSame, he]
    rfl
  | lookup | lookupSame | entries | handles | listing | census =>
    cases hpair
    simp only [act, read, Workspace.lookup, Workspace.lookupSame, Workspace.entries,
      Workspace.handles, Workspace.listing, Workspace.census, he]
    rfl
  | beginTeardown =>
    cases hpair
    simp only [act, after, Workspace.beginTeardown, he]
    rfl
  | advance | removeCurrent => cases hwalker
  | _ => cases hpair

/-- A teardown with a foreign arena loses the table, and nothing is disposed of. -/
theorem dismantle_foreign {σ : Type} {w : Workspace α} (ht : w.table? t = some table)
    (hp : p ≠ table.arena)
    (dispose : Workspace α → σ → Handle → Workspace α × ForInStep σ) (x : σ) :
    w.dismantle t p dispose x = (w.drop t, .error (.foreignArena table.name)) := by
  have hbegin : w.beginTeardown t p = (w.drop t, .error (.foreignArena table.name)) := by
    rw [Workspace.beginTeardown, Workspace.getPair_foreign ht hp]
  simp only [Workspace.dismantle, hbegin]

/-! ## Records that were refused -/

theorem arenas_of_recordOf {h : Handle} {r : Record α} (hr : s.recordOf p h = some r) :
    ∃ a : Arena α, s.space.arenas[p]? = some a ∧ a.get? h = some r :=
  Option.bind_eq_some_iff.mp hr

theorem act_release {h : Handle} {r : Record α} (hr : s.recordOf p h = some r) :
    (s.act (.release p h)).2 = if r.linked then .error .stillLinked else .ok (.record r) := by
  obtain ⟨a, ha, hget⟩ := arenas_of_recordOf hr
  rw [act_release_eq ha, Arena.release, hget]
  cases hl : r.linked <;> simp [hl, Except.map]

theorem act_rekey {h : Handle} {r : Record α} (hr : s.recordOf p h = some r) (key : UInt64) :
    (s.act (.rekey p h key)).2 = if r.linked then .error .stillLinked else .ok .done := by
  obtain ⟨a, ha, hget⟩ := arenas_of_recordOf hr
  rw [act_rekey_eq ha, Arena.rekey, hget]
  cases hl : r.linked <;> simp [hl, Except.map]

/-- An action that is refused after a run changes neither the session nor the log, and no more does
a removal that finds nothing; only a teardown that is refused takes the table it was for. With an
arena that is not the one of the table every action on the table is refused, those of a stale cursor
for being stale, and a teardown takes nothing but the table. A record that was not inserted can be
released, re-keyed or inserted as before. -/
theorem refusals_change_nothing (acts : List (Action α)) :
    let s := run acts
    (∀ action e, (s.act action).2 = .error e → log (acts ++ [action]) = log acts ∧
      ((∀ t p, action ≠ .beginTeardown t p) → (s.act action).1 = s)) ∧
    (∀ t p e, (s.act (.beginTeardown t p)).2 = .error e →
      (s.act (.beginTeardown t p)).1 = { s with space := s.space.drop t }) ∧
    (∀ t p key, (s.act (.remove t p key)).2 = .ok (.found none) →
      (s.act (.remove t p key)).1 = s ∧ log (acts ++ [.remove t p key]) = log acts) ∧
    (∀ t p template same, (s.act (.removeSame t p template same)).2 = .ok (.found none) →
      (s.act (.removeSame t p template same)).1 = s ∧
        log (acts ++ [.removeSame t p template same]) = log acts) ∧
    (∀ t p table, s.space.table? t = some table → p ≠ table.arena →
      (∀ action, action.pair? = some (t, p) → action.walker? = none →
        (s.act action).2 = .error (.foreignArena table.name)) ∧
      (∀ (c : Nat) cur, s.cursors[c]? = some cur →
        let e := if cur.isValid table then .foreignArena table.name else .staleCursor cur.tableName
        (s.act (.advance c t p)).2 = .error e ∧ (s.act (.removeCurrent c t p)).2 = .error e) ∧
      (∀ (σ : Type) (dispose : Workspace α → σ → Handle → Workspace α × ForInStep σ) (x : σ),
        s.space.dismantle t p dispose x = (s.space.drop t, .error (.foreignArena table.name))) ∧
      (s.space.drop t).arenas = s.space.arenas ∧
      ∀ u ≠ t, (s.space.drop t).tables[u]? = s.space.tables[u]?) ∧
    (∀ m t p h e r, (s.act (.insert m t p h)).2 = .error e → s.recordOf p h = some r →
      let s' := (s.act (.insert m t p h)).1
      (s'.act (.release p h)).2 = (if r.linked then .error .stillLinked else .ok (.record r)) ∧
      (∀ key, (s'.act (.rekey p h key)).2 = if r.linked then .error .stillLinked else .ok .done) ∧
      ∀ m u q, s'.act (.insert m u q h) = s.act (.insert m u q h)) := by
  intro s
  have hw := run_sound acts
  refine ⟨?_, ?_, ?_, ?_, ?_, ?_⟩
  · intro action e he
    refine ⟨?_, fun hne => act_refused hw hne he⟩
    rw [log_concat, emits_of_refused hw he, List.append_nil]
  · exact fun t p e he => beginTeardown_refused hw he
  · intro t p key he
    refine ⟨act_remove_miss hw he, ?_⟩
    rw [log_concat]
    exact List.append_nil _
  · intro t p template same he
    refine ⟨act_removeSame_miss hw he, ?_⟩
    rw [log_concat]
    exact List.append_nil _
  · intro t p table ht hp
    refine ⟨fun action => act_of_getPair (Workspace.getPair_foreign ht hp), ?_,
      fun σ => dismantle_foreign ht hp, rfl, fun u hu => ?_⟩
    · intro c cur hc e
      cases hv : cur.isValid table with
      | true =>
        have he : e = .foreignArena table.name := if_pos hv
        rw [he]
        exact act_foreign ht hc hv hp
      | false =>
        have he : e = .staleCursor cur.tableName := if_neg (by simp [hv])
        rw [he]
        exact act_stale ht hc hv p
    · exact Array.getElem?_setIfInBounds_ne (Ne.symm hu)
  · intro m t p h e r he hr s'
    have hs' : s' = s := act_refused hw (fun _ _ hne => by cases hne) he
    rw [hs']
    exact ⟨act_release hr, act_rekey hr, fun _ _ _ => rfl⟩

end Session
end RecordIndex
