import Mathlib
import RecordIndex.Proofs.Session.Custody
import RecordIndex.Proofs.Workspace.Fates

/-! # Taking a table apart in a session

The function that disposes of the records of a table acts on the session as any user would, other
teardowns included; only, it has no name for the table that it is given the records of. Whatever it
does, the teardown ends, and the session is one that a run of plain actions leads to.
-/
namespace RecordIndex.Session
variable {α : Type} {s : Session α} {held : Holdings} {t : TableId} {p : ArenaId}
  {dispose : Session α → Handle → Session α}

def handOver (dispose : Session α → Handle → Session α) (w : Workspace α) (cursors : Array Cursor)
    (h : Handle) : Workspace α × ForInStep (Array Cursor) :=
  let s := dispose ⟨w, cursors⟩ h
  (s.space, .yield s.cursors)

def dismantle (s : Session α) (t : TableId) (p : ArenaId)
    (dispose : Session α → Handle → Session α) : Session α × Except Failure Unit :=
  match s.space.dismantle t p (handOver dispose) s.cursors with
  | (w, .ok cursors) => (⟨w, cursors⟩, .ok ())
  | (w, .error e) => ({ s with space := w }, .error e)

def Spares (t : TableId) (dispose : Session α → Handle → Session α) : Prop :=
  ∀ s k d, s.space.tables[t]? = some (.closing d) →
    (dispose s k).space.tables[t]? = some (.closing d)

/-- The sessions that a session leads to by actions and teardowns in any order. -/
inductive Leads : Session α → Session α → Prop where
  | refl (s : Session α) : Leads s s
  | act {s s' : Session α} (h : Leads s s') (action : Action α) : Leads s (s'.act action).1
  | dismantle {s s' : Session α} (h : Leads s s') (t : TableId) (p : ArenaId)
      (dispose : Session α → Handle → Session α) (hspare : Spares t dispose)
      (hd : ∀ s k, Leads s (dispose s k)) : Leads s (s'.dismantle t p dispose).1

theorem perform_sound (hs : s.space.Sound held) (acts : List (Action α)) :
    ∃ held', (s.perform acts).space.Sound held' := by
  induction acts using List.reverseRecOn with
  | nil => exact ⟨held, hs⟩
  | append_singleton acts action ih =>
    obtain ⟨held', hs'⟩ := ih
    rw [perform_concat]
    exact ⟨_, hs'.step (act_change hs' action)⟩

theorem perform_out_of_use (hs : s.space.Sound held) (ht : t < s.space.tables.size)
    (hout : s.space.table? t = none) (acts : List (Action α)) :
    ∃ held', (s.perform acts).space.Sound held' ∧ t < (s.perform acts).space.tables.size ∧
      (s.perform acts).space.table? t = none ∧
      (held' t).records.length ≤ (held t).records.length := by
  induction acts using List.reverseRecOn with
  | nil => exact ⟨held, hs, ht, hout, le_rfl⟩
  | append_singleton acts action ih =>
    obtain ⟨held', hs', ht', hout', hle⟩ := ih
    have hc := act_change hs' action
    obtain ⟨hout'', hle'⟩ := hs'.out_of_use hc ht' hout'
    rw [perform_concat]
    exact ⟨_, hs'.step hc, ht'.trans_le (hs'.size_le hc), hout'', hle'.trans hle⟩

theorem lt_size_of_closing {w : Workspace α} {d : Teardown}
    (hd : w.tables[t]? = some (.closing d)) : t < w.tables.size ∧ w.table? t = none :=
  ⟨(Array.getElem?_eq_some_iff.mp hd).1, by rw [Workspace.table?, hd]⟩

theorem closing_of_taken {w w' : Workspace α} {h : Handle}
    (hc : Workspace.Change w (.taken t h) w') : ∃ d, w'.tables[t]? = some (.closing d) := by
  cases hc with
  | @taken _ d d' a _ ht =>
    exact ⟨d', (Workspace.tables_setTable (w := w.setArena d.arena (a.unlink h)) ht _ t).trans
      (if_pos rfl)⟩

/-- With a step for every record and one more, all records are handed over. -/
theorem disposeAll_run (hspare : Spares t dispose)
    (hd : ∀ s k held, s.space.Sound held → ∃ acts, dispose s k = s.perform acts) (n : Nat) :
    ∀ (s : Session α) (held : Holdings) (d : Teardown), s.space.Sound held →
      s.space.tables[t]? = some (.closing d) → (held t).records.length < n →
      ∃ acts, Workspace.disposeAll t (handOver dispose) n s.space s.cursors =
        ((s.perform acts).space, .ok (s.perform acts).cursors) := by
  induction n with
  | zero => exact fun s held d _ _ hlt => absurd hlt (Nat.not_lt_zero _)
  | succ n ih =>
    intro s held d hs hclosing hlt
    rcases hs.takeNext_cases t with ⟨hnot, -⟩ | ⟨-, hnone⟩ | ⟨w', h, hh, hsome, hc⟩
    · exact absurd hclosing (hnot d)
    · exact ⟨[.takeNext t], by simp [Workspace.disposeAll, perform, act, after, hnone]⟩
    · -- the session right after the record was taken out, and after it was disposed of
      have htaken : (s.act (.takeNext t)).1 = { s with space := w' } := by
        rw [act, after, hsome]
      have hs' : w'.Sound (Deed.account held (.taken t h)) := hs.step hc
      obtain ⟨d', hd'⟩ := closing_of_taken hc
      obtain ⟨hlt', hout⟩ := lt_size_of_closing hd'
      obtain ⟨acts, hacts⟩ := hd { s with space := w' } h _ hs'
      obtain ⟨held', hs'', -, -, hle⟩ :=
        perform_out_of_use (s := { s with space := w' }) hs' hlt' hout acts
      have hlen : (Deed.account held (.taken t h) t).records.length + 1 =
          (held t).records.length := by
        rw [Deed.account, Function.update_self]
        exact List.length_erase_add_one hh
      have hspared := hspare { s with space := w' } h d' hd'
      rw [hacts] at hspared
      obtain ⟨more, hmore⟩ := ih _ held' d' hs'' hspared (by omega)
      refine ⟨[.takeNext t] ++ acts ++ more, ?_⟩
      have hperform : s.perform ([.takeNext t] ++ acts ++ more) =
          (({ s with space := w' } : Session α).perform acts).perform more := by
        rw [perform_append, perform_append, ← htaken]
        rfl
      rw [hperform, ← hmore, Workspace.disposeAll, hsome]
      simp only [handOver, hacts]

/-- A teardown answers as its beginning does, and it is a run of actions. -/
theorem dismantle_run (hs : s.space.Sound held) (hspare : Spares t dispose)
    (hd : ∀ s k held, s.space.Sound held → ∃ acts, dispose s k = s.perform acts) :
    ∃ acts, s.dismantle t p dispose = (s.perform acts, (s.space.beginTeardown t p).2) := by
  unfold dismantle Workspace.dismantle
  rcases hs.beginTeardown_cases t p with ⟨e, he⟩ | ⟨w', he, hc⟩
  · exact ⟨[.beginTeardown t p], by simp [perform, act, after, he]⟩
  · have hbegun : (s.act (.beginTeardown t p)).1 = { s with space := w' } := by
      rw [act, after, he]
    have hs' : w'.Sound held := hs.step hc
    cases hc with
    | @closed _ table a hu =>
      obtain ⟨-, -, cs, ht, hperm⟩ := hs.uses hu
      have hclosing := Workspace.tables_setTable hu.tables (.closing (.of table)) t
      rw [if_pos rfl] at hclosing
      have hcount : (held t).records.length = table.count := by
        rw [ht.count, hperm.length_eq]
      obtain ⟨acts, hacts⟩ := disposeAll_run hspare hd (table.count + 1)
        { s with space := s.space.setTable t (.closing (.of table)) } held _ hs' hclosing (by omega)
      refine ⟨[.beginTeardown t p] ++ acts, ?_⟩
      have hperform : s.perform ([.beginTeardown t p] ++ acts) =
          ({ s with space := s.space.setTable t (.closing (.of table)) } : Session α).perform
            acts := by
        rw [perform_append, ← hbegun]
        rfl
      simp only [he, hu.table?, Option.elim, hacts, hperform]

theorem Leads.exists_perform {s s' : Session α} (h : Leads s s') :
    ∀ held, s.space.Sound held → ∃ acts, s' = s.perform acts := by
  induction h with
  | refl s => exact fun held _ => ⟨[], rfl⟩
  | act _ action ih =>
    intro held hs
    obtain ⟨acts, rfl⟩ := ih held hs
    exact ⟨acts ++ [action], by rw [perform_concat]⟩
  | dismantle _ t p dispose hspare _ ih ihd =>
    intro held hs
    obtain ⟨acts, rfl⟩ := ih held hs
    obtain ⟨held', hs'⟩ := perform_sound hs acts
    obtain ⟨more, hmore⟩ := dismantle_run hs' hspare ihd
    exact ⟨acts ++ more, by rw [hmore, perform_append]⟩

/-! ## Coherence -/

/-- What holds of the chains and records of a workspace whose tables hold what `held` says. A table
that was dropped holds, for good, what it held last. -/
structure Coherent (w : Workspace α) (held : Holdings) : Prop where
  /-- The chains of a table in use end. Their records are live and linked, each in the bucket of its
  key and met only once, and the table counts them all. -/
  chains : ∀ t table, w.table? t = some table → ∃ (a : Arena α) (cs : Chains),
    w.arena? table.arena = some a ∧
    cs.length = table.capacity ∧
    (∀ (i : Nat) hs, cs[i]? = some hs → a.Path table.buckets[i]?.join hs none ∧
      ∀ h ∈ hs, ∃ r, a.get? h = some r ∧ r.linked = true ∧ r.key.toNat % table.capacity = i) ∧
    cs.flatten.Nodup ∧ table.count = (cs.map List.length).sum ∧
    (held t).arena = table.arena ∧ cs.flatten.Perm (held t).records
  /-- What is left of a table that is being taken apart can still be taken out. -/
  closing : ∀ t d, w.tables[t]? = some (.closing d) → ∃ a rest, w.arena? d.arena = some a ∧
    d.Remains a rest ∧ (held t).arena = d.arena ∧ rest.Perm (held t).records
  /-- No record is held by two tables. -/
  apart : ∀ t u, t ≠ u → (held t).arena = (held u).arena →
    List.Disjoint (held t).records (held u).records
  /-- Linked are exactly the records that some table holds, and the others have no successor. -/
  linked : ∀ p a h r, w.arena? p = some a → a.get? h = some r →
    (r.linked = true ↔ ∃ t, (held t).arena = p ∧ h ∈ (held t).records) ∧
    (r.linked = false → r.next = none)
  /-- A record that a table holds is never released. -/
  live : ∀ t, ∀ h ∈ (held t).records,
    ∃ a r, w.arena? (held t).arena = some a ∧ a.get? h = some r

theorem coherent_of_sound {w : Workspace α} (hw : w.Sound held) : Coherent w held where
  chains t table ht := by
    obtain ⟨a, hu⟩ := hw.exists_uses ht
    obtain ⟨-, hp, cs, hcs, hperm⟩ := hw.uses hu
    refine ⟨a, cs, hu.arenas, hcs.threads.length, ?_, hcs.threads.nodup, ?_, hp.symm, hperm⟩
    · exact fun i hs hi => ⟨hcs.threads.path i hs hi, hcs.placed i hs hi⟩
    · rw [hcs.count, List.length_flatten]
  closing t d hd := by
    obtain ⟨a, ha, hp, rest, hrest, hperm⟩ := hw.tables t _ hd
    exact ⟨a, rest, hp ▸ ha, hrest, hp.symm, hperm⟩
  apart := hw.apart
  linked p a h r hp hr := by
    refine ⟨⟨hw.owned p a h r hp hr, ?_⟩, (hw.arenas p a hp).loose h r hr⟩
    rintro ⟨t, rfl, hm⟩
    obtain ⟨b, s, hb, hs, hl⟩ := hw.linked t h hm
    have hab : w.arenas[(held t).arena]? = some a := hp
    rw [hb] at hab
    cases hab
    rw [hr] at hs
    cases hs
    exact hl
  live t h hh := by
    obtain ⟨a, r, ha, hr, -⟩ := hw.linked t h hh
    exact ⟨a, r, ha, hr⟩

theorem leads_perform (s : Session α) (acts : List (Action α)) : Leads s (s.perform acts) := by
  induction acts using List.reverseRecOn with
  | nil => exact .refl s
  | append_singleton acts action ih =>
    rw [perform_concat]
    exact .act ih action

theorem leads_run (acts : List (Action α)) : Leads empty (run acts) := leads_perform empty acts

/-- After every run the workspace is coherent for what the run has left in its tables, and what the
empty session leads to, teardowns and all, are the sessions after the runs. -/
theorem runs_coherent :
    (∀ acts : List (Action α), Coherent (run acts).space (holdings acts)) ∧
      ∀ s : Session α, Leads empty s ↔ ∃ acts, s = run acts := by
  refine ⟨fun acts => coherent_of_sound (run_sound acts), fun s => ⟨fun hs => ?_, ?_⟩⟩
  · exact hs.exists_perform _ Workspace.sound_empty
  · rintro ⟨acts, rfl⟩
    exact leads_run acts

end RecordIndex.Session
