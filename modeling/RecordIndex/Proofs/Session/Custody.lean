import Mathlib
import RecordIndex.Proofs.Session.Run

/-! # Custody of the records

Every action is a change of the workspace, so after every run the workspace is sound for the records
that the run has put into its tables and not taken out again. A table that is taken apart with a
function to dispose of its records is no exception, as long as the function acts on the session
only.
-/
namespace RecordIndex
variable {α : Type}

namespace Session
variable {s : Session α} {held : Holdings}

theorem change_refused {w : Workspace α} {deed : Deed} (hd : deed = .nothing) :
    Workspace.Change w deed w := hd ▸ .quiet (Workspace.quiet_refl w)

theorem after_ok {β : Type} {result : Workspace α × Except Failure β} {reply : β → Reply α}
    {answer : Reply α} (ha : (s.after result reply).2 = .ok answer) :
    ∃ b, result.2 = .ok b ∧ reply b = answer := by
  obtain ⟨w, outcome⟩ := result
  cases outcome with
  | error e => cases ha
  | ok b =>
    cases ha
    exact ⟨b, rfl, rfl⟩

theorem create_change (s : Session α) (m : Allocator) (p : ArenaId) (name : String)
    (policy : Policy) : Workspace.Change s.space (s.does (.create m p name policy))
      (s.act (.create m p name policy)).1.space := by
  simp only [does, act, after]
  rcases s.space.create_cases m p name policy with ⟨e, he⟩ | ⟨w', he, hc⟩ <;> rw [he]
  · exact change_refused rfl
  · exact hc

theorem act_insert (hw : s.space.Sound held) (m : Allocator) (t : TableId) (p : ArenaId)
    (h : Handle) :
    (∃ e, s.act (.insert m t p h) = (s, .error e) ∧ s.emits (.insert m t p h) = []) ∨
      ∃ table a r events w', s.space.Uses t table a ∧ p = table.arena ∧ a.get? h = some r ∧
        s.act (.insert m t p h) = ({ s with space := w' }, .ok (.events events)) ∧
        Workspace.Change s.space (.inserted t h events) w' := by
  simp only [act, after, emits]
  rcases hw.getPair_cases t p with ⟨e, he⟩ | ⟨table, a, cs, hu, rfl, ht⟩
  · rw [Workspace.insert, he]
    exact Or.inl ⟨e, rfl, rfl⟩
  · rcases Workspace.insert_cases hu ht m h with ⟨e, he, -⟩ | ⟨w', events, he, hc⟩
    · rw [he]
      exact Or.inl ⟨e, rfl, rfl⟩
    · obtain ⟨r, hr⟩ := hc.exists_of_inserted hu
      rw [he]
      exact Or.inr ⟨table, a, r, events, w', hu, rfl, hr, rfl, hc⟩

/-- An insertion that succeeds answers with the events it emits. -/
theorem emits_of_ok (s : Session α) {m : Allocator} {t : TableId} {p : ArenaId} {h : Handle}
    {reply : Reply α} (ha : (s.act (.insert m t p h)).2 = .ok reply) :
    reply = .events (s.emits (.insert m t p h)) := by
  simp only [act] at ha
  obtain ⟨-, -, rfl⟩ := after_ok ha
  rfl

def Removes (s : Session α) (t : TableId) (target : Option Handle)
    (result : Session α × Except Failure (Reply α)) : Prop :=
  target = none ∧ result = (s, .ok (.found none)) ∨
    ∃ h w', target = some h ∧ result = ({ s with space := w' }, .ok (.found (some h))) ∧
      Workspace.Change s.space (.unlinked t h) w'

theorem Removes.answer {t : TableId} {target : Option Handle}
    {result : Session α × Except Failure (Reply α)} (hr : Removes s t target result) :
    result.2 = .ok (.found target) ∧ (target = none → result.1 = s) := by
  rcases hr with ⟨rfl, rfl⟩ | ⟨h, w', rfl, rfl, -⟩
  · exact ⟨rfl, fun _ => rfl⟩
  · exact ⟨rfl, fun hn => by cases hn⟩

variable {m : Allocator} {t : TableId} {table : Table} {a : Arena α} {cs : Chains}

theorem recordOf_of_arena {p : ArenaId} (ha : s.space.arenas[p]? = some a) (h : Handle) :
    s.recordOf p h = a.get? h := by
  rw [recordOf, Workspace.arena?, ha, Option.bind_some]

theorem recordOf_uses (hu : s.space.Uses t table a) (h : Handle) :
    s.recordOf table.arena h = a.get? h := recordOf_of_arena hu.arenas h

/-- An insertion that is answered with events is the insertion of the table. -/
theorem act_insert_ok (hu : s.space.Uses t table a) (ht : table.Indexes a cs) {h : Handle}
    {events : List Event}
    (ha : (s.act (.insert m t table.arena h)).2 = .ok (.events events)) :
    ∃ table' a', table.insert m a h = (table', a', events, .ok ()) ∧ table.SameTable table' ∧
      s.act (.insert m t table.arena h) =
        ({ s with space := s.space.put t table' a' }, .ok (.events events)) := by
  simp only [act, after, Workspace.insert, hu.getPair] at ha ⊢
  rcases ht.insert m h with ⟨e, he, -⟩ | ⟨r, table', a', cs', events', -, -, he, hi⟩
  · rw [Workspace.onPair_same hu he] at ha
    cases ha
  · rw [Workspace.onPair_put he hi.same] at ha ⊢
    cases ha
    exact ⟨table', a', he, hi.same, rfl⟩

theorem act_insert_error_iff (hu : s.space.Uses t table a) (ht : table.Indexes a cs)
    {h : Handle} {e : Failure} :
    (s.act (.insert m t table.arena h)).2 = .error e ↔ table.Declines m a h e := by
  rw [← ht.insert_error_iff]
  simp only [act, after, Workspace.insert, hu.getPair, Workspace.onPair_eq]
  cases (table.insert m a h).2.2.2 <;> simp [Except.map]

/-- An insertion that is not refused answers with events. -/
theorem act_insert_ok_iff (hu : s.space.Uses t table a) (ht : table.Indexes a cs) {h : Handle} :
    (∃ events, (s.act (.insert m t table.arena h)).2 = .ok (.events events)) ↔
      ∀ e, ¬ table.Declines m a h e := by
  simp only [← act_insert_error_iff hu ht]
  simp only [act, after]
  cases (s.space.insert m t table.arena h).2.2 <;> simp [Except.map]

theorem act_remove (hu : s.space.Uses t table a) (ht : table.Indexes a cs) (key : UInt64) :
    Removes s t (Table.stack a cs key).head? (s.act (.remove t table.arena key)) := by
  simp only [act, after]
  rcases Workspace.remove_cases hu ht key with ⟨he, hh⟩ | ⟨w', h, he, hh, hc⟩ <;> rw [he]
  · exact Or.inl ⟨hh, rfl⟩
  · exact Or.inr ⟨h, w', hh, rfl, hc⟩

theorem act_removeSame (hu : s.space.Uses t table a) (ht : table.Indexes a cs)
    (template : Record α) (same : Record α → Record α → Bool) :
    Removes s t ((Table.stack a cs template.key).find? (a.meets fun _ => same template))
      (s.act (.removeSame t table.arena template same)) := by
  simp only [act, after]
  rcases Workspace.removeSame_cases hu ht template same with ⟨he, hh⟩ | ⟨w', h, he, hh, hc⟩ <;>
    rw [he]
  · exact Or.inl ⟨hh, rfl⟩
  · exact Or.inr ⟨h, w', hh, rfl, hc⟩

theorem after_onArena {β : Type} {p : ArenaId} (ha : s.space.arenas[p]? = some a)
    (f : Arena α → Arena α × Except Failure β) (reply : β → Reply α) :
    s.after (s.space.onArena p f) reply =
      ({ s with space := s.space.setArena p (f a).1 }, (f a).2.map reply) := by
  rw [after, Workspace.onArena_eq ha]

theorem act_alloc {p : ArenaId} (ha : s.space.arenas[p]? = some a) (r : Record α) :
    s.act (.alloc p r) =
      ({ s with space := s.space.setArena p (a.alloc r).1 }, .ok (.handle (a.alloc r).2)) :=
  after_onArena ha _ _

theorem act_release_eq {p : ArenaId} (ha : s.space.arenas[p]? = some a) (h : Handle) :
    s.act (.release p h) = ({ s with space := s.space.setArena p (a.release h).1 },
      (a.release h).2.map .record) :=
  after_onArena ha _ _

theorem act_rekey_eq {p : ArenaId} (ha : s.space.arenas[p]? = some a) (h : Handle)
    (key : UInt64) : s.act (.rekey p h key) =
      ({ s with space := s.space.setArena p (a.rekey h key).1 },
        (a.rekey h key).2.map fun _ => .done) :=
  after_onArena ha _ _

theorem act_setPayload {p : ArenaId} (ha : s.space.arenas[p]? = some a) (h : Handle)
    (payload : α) : s.act (.setPayload p h payload) =
      ({ s with space := s.space.setArena p (a.setPayload h payload).1 },
        .ok (.payload (a.setPayload h payload).2)) :=
  after_onArena ha _ _

/-- What is asked of a table is read off its chains. -/
theorem act_read (hu : s.space.Uses t table a) (ht : table.Indexes a cs) :
    (∀ key, (s.act (.lookup t table.arena key)).2 =
      .ok (.found (Table.stack a cs key).head?)) ∧
    (∀ template same, (s.act (.lookupSame t table.arena template same)).2 =
      .ok (.found ((Table.stack a cs template.key).find? (a.meets fun _ => same template)))) ∧
    (s.act (.entries t table.arena)).2 = .ok (.entries (a.read cs.flatten)) ∧
    (s.act (.handles t table.arena)).2 = .ok (.handles cs.flatten) ∧
    (s.act (.listing t table.arena)).2 = .ok (.listing (.of table a)) ∧
    ∀ same, (s.act (.census t table.arena same)).2 = .ok (.census (cs.foldl
      (fun (c : Census) hs => c.addChain same ((a.read hs).map (·.2))) Census.empty)) := by
  refine ⟨fun key => ?_, fun template same => ?_, ?_, ?_, ?_, fun same => ?_⟩ <;>
    simp only [act, read, Workspace.lookup, Workspace.lookupSame, Workspace.entries,
      Workspace.handles, Workspace.listing, Workspace.census, hu.getPair, bind, Except.bind, pure,
      Except.pure, Except.map, ht.lookup, ht.lookupSame, ht.entries, ht.handles, ht.census]

theorem act_census (hu : s.space.Uses t table a)
    (same : Record α → Record α → Bool) :
    (s.act (.census t table.arena same)).2 = (table.census a same).map .census := by
  simp only [act, read, Workspace.census, hu.getPair, bind, Except.bind]

/-- A removal from what is not a table in use with its own arena is refused. -/
theorem act_remove_cases (hw : s.space.Sound held) (t : TableId) (p : ArenaId) :
    (∃ e, (∀ key, s.act (.remove t p key) = (s, .error e)) ∧
      ∀ template same, s.act (.removeSame t p template same) = (s, .error e)) ∨
      ∃ table a cs, s.space.Uses t table a ∧ p = table.arena ∧ table.Indexes a cs := by
  rcases hw.getPair_cases t p with ⟨e, he⟩ | hcase
  · refine Or.inl ⟨e, fun key => ?_, fun template same => ?_⟩
    · simp only [act, after, Workspace.remove, he]
      rfl
    · simp only [act, after, Workspace.removeSame, he]
      rfl
  · exact Or.inr hcase

theorem insert_change (hw : s.space.Sound held) (m : Allocator) (t : TableId) (p : ArenaId)
    (h : Handle) : Workspace.Change s.space (s.does (.insert m t p h))
      (s.act (.insert m t p h)).1.space := by
  rw [does]
  rcases act_insert hw m t p h with ⟨e, he, -⟩ | ⟨table, a, r, events, w', -, -, -, he, hc⟩
  · rw [he]
    exact change_refused rfl
  · rw [he]
    exact hc

theorem remove_change (hw : s.space.Sound held) (t : TableId) (p : ArenaId) (key : UInt64) :
    Workspace.Change s.space (s.does (.remove t p key)) (s.act (.remove t p key)).1.space := by
  rw [does]
  rcases act_remove_cases hw t p with ⟨e, he, -⟩ | ⟨table, a, cs, hu, rfl, ht⟩
  · rw [he]
    exact change_refused rfl
  · rcases act_remove hu ht key with ⟨-, he⟩ | ⟨h, w', -, he, hc⟩ <;> rw [he]
    · exact change_refused rfl
    · exact hc

theorem removeSame_change (hw : s.space.Sound held) (t : TableId) (p : ArenaId)
    (template : Record α) (same : Record α → Record α → Bool) :
    Workspace.Change s.space (s.does (.removeSame t p template same))
      (s.act (.removeSame t p template same)).1.space := by
  rw [does]
  rcases act_remove_cases hw t p with ⟨e, -, he⟩ | ⟨table, a, cs, hu, rfl, ht⟩
  · rw [he]
    exact change_refused rfl
  · rcases act_removeSame hu ht template same with ⟨-, he⟩ | ⟨h, w', -, he, hc⟩ <;> rw [he]
    · exact change_refused rfl
    · exact hc

theorem beginTeardown_change (hw : s.space.Sound held) (t : TableId) (p : ArenaId) :
    Workspace.Change s.space (s.does (.beginTeardown t p))
      (s.act (.beginTeardown t p)).1.space := by
  simp only [does, act, after]
  rcases hw.beginTeardown_cases t p with ⟨e, he⟩ | ⟨w', he, hc⟩ <;> rw [he]
  · exact .ended t
  · exact hc

theorem takeNext_change (hw : s.space.Sound held) (t : TableId) :
    Workspace.Change s.space (s.does (.takeNext t)) (s.act (.takeNext t)).1.space := by
  simp only [does, act, after]
  rcases hw.takeNext_cases t with ⟨-, he⟩ | ⟨-, he⟩ | ⟨w', h, -, he, hc⟩ <;> rw [he]
  · exact change_refused rfl
  · exact .ended t
  · exact hc

theorem getCursor_cases (s : Session α) (c : Nat) :
    s.getCursor c = .error .unknownReference ∨
      ∃ cur, s.cursors[c]? = some cur ∧ s.getCursor c = .ok cur := by
  cases hc : s.cursors[c]? with
  | none => exact Or.inl (by rw [getCursor, hc])
  | some cur => exact Or.inr ⟨cur, rfl, by rw [getCursor, hc]⟩

theorem act_advance (hw : s.space.Sound held) (c : Nat) (t : TableId) (p : ArenaId) :
    (∃ e, s.act (.advance c t p) = (s, .error e)) ∨
      ∃ cur table a place found, s.cursors[c]? = some cur ∧ s.space.Uses t table a ∧
        p = table.arena ∧ cur.isValid table = true ∧
        cur.advance table a = .ok ({ cur with place }, found) ∧
        s.act (.advance c t p) = (s.setCursor c { cur with place }, .ok (.found found)) := by
  simp only [act]
  rcases s.getCursor_cases c with he | ⟨cur, hc, he⟩
  · exact Or.inl ⟨.unknownReference, by simp only [he]⟩
  · cases hadv : s.space.advance cur t p with
    | error e => exact Or.inl ⟨e, by simp only [he, hadv]⟩
    | ok result =>
      obtain ⟨cur', found⟩ := result
      obtain ⟨table, a, hu, hp, hv, hmove⟩ := hw.exists_of_advance hadv
      have hcur := Cursor.eq_of_advance hmove
      rw [hcur] at hmove
      refine Or.inr ⟨cur, table, a, cur'.place, found, hc, hu, hp, hv, hmove, ?_⟩
      simp only [he, hadv, ← hcur]

/-- A removal through a cursor is refused, or the cursor is valid, the record it stands on is
unlinked and the cursor is brought to the new epoch. -/
theorem act_removeCurrent (hw : s.space.Sound held) (c : Nat) (t : TableId) (p : ArenaId) :
    (∃ e, s.act (.removeCurrent c t p) = (s, .error e)) ∨
      ∃ cur table a cs table' a' h r resume, s.cursors[c]? = some cur ∧ s.space.Uses t table a ∧
        p = table.arena ∧ cur.isValid table = true ∧ table.Indexes a cs ∧
        cur.place = .on h resume ∧ a.get? h = some r ∧ table.Unlinked a cs h table' a' ∧
        s.act (.removeCurrent c t p) =
          (⟨s.space.put t table' a', s.cursors.setIfInBounds c
            { cur with epoch := table'.epoch, place := .gap r.next resume }⟩, .ok (.handle h)) := by
  simp only [act]
  rcases s.getCursor_cases c with he | ⟨cur, hc, he⟩
  · exact Or.inl ⟨.unknownReference, by simp only [he]⟩
  · simp only [he]
    rcases hw.getWalked_cases cur t p with ⟨e, hg⟩ | ⟨table, a, cs, hu, rfl, ht, hv⟩
    · have hrem : s.space.removeCurrent cur t p = (s.space, .error e) := by
        rw [Workspace.removeCurrent, hg]
        rfl
      exact Or.inl ⟨e, by simp only [hrem]⟩
    · rcases Workspace.removeCurrent_cases hu ht hv with
        ⟨-, hrem⟩ | ⟨h, -, -, hrem⟩ | ⟨table', a', h, r, resume, hp, hr, hrem, hi⟩
      · exact Or.inl ⟨.noCurrentRecord, by simp only [hrem]⟩
      · exact Or.inl ⟨.corrupted, by simp only [hrem]⟩
      · exact Or.inr ⟨cur, table, a, cs, table', a', h, r, resume, hc, hu, rfl, hv, ht, hp, hr, hi,
          by simp only [hrem, setCursor]⟩

theorem removeCurrent_change (hw : s.space.Sound held) (c : Nat) (t : TableId) (p : ArenaId) :
    Workspace.Change s.space (s.does (.removeCurrent c t p))
      (s.act (.removeCurrent c t p)).1.space := by
  rw [does]
  rcases act_removeCurrent hw c t p with
    ⟨e, he⟩ | ⟨cur, table, a, cs, table', a', h, r, resume, -, hu, -, -, ht, -, -, hi, he⟩ <;>
    rw [he]
  · exact change_refused rfl
  · exact .unlinked hu ht hi

/-- Every action is a change of the workspace, of the kind its answer tells. -/
theorem act_change (hw : s.space.Sound held) (action : Action α) :
    Workspace.Change s.space (s.does action) (s.act action).1.space := by
  cases action with
  | addArena => exact .quiet (Workspace.quiet_addArena s.space)
  | alloc p r => exact .quiet (hw.alloc p r)
  | release p h => exact .quiet (hw.release p h)
  | rekey p h key => exact .quiet (hw.rekey p h key)
  | setPayload p h payload => exact .quiet (hw.setPayload p h payload)
  | create m p name policy => exact create_change s m p name policy
  | insert m t p h => exact insert_change hw m t p h
  | remove t p key => exact remove_change hw t p key
  | removeSame t p template same => exact removeSame_change hw t p template same
  | drop t => exact .ended t
  | beginTeardown t p => exact beginTeardown_change hw t p
  | takeNext t => exact takeNext_change hw t
  | removeCurrent c t p => exact removeCurrent_change hw c t p
  | cursor t =>
    simp only [does, act]
    cases s.space.cursor t <;> exact change_refused rfl
  | clone c =>
    simp only [does, act]
    cases s.getCursor c <;> exact change_refused rfl
  | reset c t =>
    simp only [does, act]
    cases s.getCursor c <;> cases s.space.cursor t <;> exact change_refused rfl
  | advance c t p =>
    rcases act_advance hw c t p with ⟨e, he⟩ | ⟨_, _, _, _, _, -, -, -, -, -, he⟩ <;>
    · rw [does, he]
      exact change_refused rfl
  | _ => exact change_refused rfl

theorem run_sound (acts : List (Action α)) : (run acts).space.Sound (holdings acts) := by
  induction acts using List.reverseRecOn with
  | nil => exact Workspace.sound_empty
  | append_singleton acts action ih =>
    rw [run_concat, holdings_concat]
    exact ih.step (act_change ih action)

end Session
end RecordIndex
