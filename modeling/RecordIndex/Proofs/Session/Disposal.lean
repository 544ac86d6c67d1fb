import Mathlib
import RecordIndex.Proofs.Session.Dismantling
import RecordIndex.Proofs.Workspace.Closing

/-! # What a teardown hands over

The function that disposes of the records of a table may act on the session in any way and keep a
state of its own; only, it has no name for the table. It is called for each record of the listing
once, in order, and each call finds its record unlinked and those of the calls to come untouched.
-/
namespace RecordIndex
variable {α σ : Type}

def Action.Spares (t : TableId) : Action α → Prop
  | .drop u => u ≠ t
  | .beginTeardown u _ => u ≠ t
  | .takeNext u => u ≠ t
  | _ => True

namespace Session
variable {s : Session α} {held : Holdings} {t u : TableId} {p : ArenaId} {hs : List Handle}
  {acts : List (Action α)}

/-! ## Steps of a performance -/

def steps (s : Session α) (acts : List (Action α)) : List (Session α × Action α) :=
  track (fun s action steps => steps ++ [(s, action)]) s [] acts

def deeds (s : Session α) (acts : List (Action α)) : List Deed :=
  (s.steps acts).map fun (s, action) => s.does action

@[simp] theorem steps_concat (s : Session α) (acts : List (Action α)) (action : Action α) :
    s.steps (acts ++ [action]) = s.steps acts ++ [(s.perform acts, action)] :=
  track_concat ..

@[simp] theorem deeds_concat (s : Session α) (acts : List (Action α)) (action : Action α) :
    s.deeds (acts ++ [action]) = s.deeds acts ++ [(s.perform acts).does action] := by
  rw [deeds, steps_concat, List.map_append]
  rfl

theorem steps_append (s : Session α) (acts more : List (Action α)) :
    s.steps (acts ++ more) = s.steps acts ++ (s.perform acts).steps more := by
  induction more using List.reverseRecOn with
  | nil => simp [steps, track]
  | append_singleton more action ih =>
    rw [← List.append_assoc, steps_concat, ih, perform_append, steps_concat, List.append_assoc]

theorem perform_accounts (hw : s.space.Sound held) (acts : List (Action α)) :
    (s.perform acts).space.Sound (Deed.accounts held (s.deeds acts)) := by
  induction acts using List.reverseRecOn with
  | nil => exact hw
  | append_singleton acts action ih =>
    rw [perform_concat, deeds_concat, Deed.accounts_concat]
    exact ih.step (act_change ih action)

theorem deed_spares {action : Action α} (hspare : action.Spares t)
    (answer : Except Failure (Reply α)) :
    (deed action answer).retires ≠ some t ∧ ∀ h, deed action answer ≠ .taken t h := by
  unfold deed
  split
  case h_6 | h_7 | h_8 | h_10 => exact ⟨fun he => hspare (Option.some.inj he), nofun⟩
  case h_9 => exact ⟨nofun, fun k he => hspare (by cases he; rfl)⟩
  all_goals exact ⟨nofun, nofun⟩

/-- What remains of a table that is being taken apart is not affected by those who spare it. -/
theorem perform_closing (hw : s.space.Sound held) (hc : s.space.Closing t p hs)
    (hspare : ∀ action ∈ acts, action.Spares t) :
    (s.perform acts).space.Closing t p hs ∧
      ∀ k ∈ hs, (s.perform acts).space.thread? p k = s.space.thread? p k := by
  induction acts using List.reverseRecOn with
  | nil => exact ⟨hc, fun _ _ => rfl⟩
  | append_singleton acts action ih =>
    obtain ⟨hc', he⟩ := ih fun a ha => hspare a (List.mem_append_left _ ha)
    have hw' := perform_accounts hw acts
    obtain ⟨hretires, htaken⟩ := deed_spares (hspare action (by simp))
      ((s.perform acts).act action).2
    obtain ⟨hc'', he'⟩ := hw'.closing_kept (act_change hw' action) hc' hretires htaken
    rw [perform_concat]
    exact ⟨hc'', fun k hk => (he' k hk).trans (he k hk)⟩

theorem uses_of_does (hw : s.space.Sound held) {action : Action α} {k : Handle}
    {events : List Event} (hi : s.does action = .inserted u k events) :
    ∃ table a, s.space.Uses u table a := by
  have hc := act_change hw action
  rw [hi] at hc
  obtain ⟨table, a, r, hu, -⟩ := hc.uses_of_inserted
  exact ⟨table, a, hu⟩

/-- A table that has taken a record in and not given it up is in use, or it listed the record when
it was retired. -/
theorem perform_lists (hw : s.space.Sound held) {k : Handle} {step : Session α × Action α}
    {events : List Event} (hstep : step ∈ s.steps acts)
    (hi : step.1.does step.2 = .inserted u k events)
    (hk : k ∈ (Deed.accounts held (s.deeds acts) u).records)
    (hp : (Deed.accounts held (s.deeds acts) u).arena = p) :
    (∃ table a, (s.perform acts).space.Uses u table a) ∨
      ∃ step ∈ s.steps acts, (step.1.does step.2).retires = some u ∧ step.1.space.Lists u p k := by
  induction acts using List.reverseRecOn with
  | nil => cases hstep
  | append_singleton acts action ih =>
    have hw' := perform_accounts hw acts
    have hc := act_change hw' action
    rw [deeds_concat, Deed.accounts_concat] at hk hp
    rw [steps_concat] at hstep ⊢
    rw [perform_concat]
    rcases Deed.mem_account hk with ⟨hbefore, ha⟩ | ⟨events', hlast⟩
    · have hp' := ha.symm.trans hp
      have hused : (∃ table a, (s.perform acts).space.Uses u table a) ∨
          ∃ step ∈ s.steps acts, (step.1.does step.2).retires = some u ∧
            step.1.space.Lists u p k := by
        rcases List.mem_append.mp hstep with hold | hnew
        · exact ih hold hbefore hp'
        · rw [List.mem_singleton.mp hnew] at hi
          exact Or.inl (uses_of_does hw' hi)
      rcases hused with ⟨table, a, hu⟩ | ⟨step', hs', hr, hl⟩
      · by_cases hretires : ((s.perform acts).does action).retires = some u
        · exact Or.inr ⟨(s.perform acts, action), by simp, hretires, hw'.lists hu hbefore hp'⟩
        · exact Or.inl (hw'.in_use hc hu hretires)
      · exact Or.inr ⟨step', List.mem_append_left _ hs', hr, hl⟩
    · obtain ⟨table, a, hu⟩ := uses_of_does hw' hlast
      exact Or.inl (hw'.in_use hc hu (by rw [hlast]; nofun))

/-! ## Calls -/

abbrev Disposer (α σ : Type) := σ → Session α → Handle → List (Action α) × σ

/-- A call as it was made: the session in which the record was handed over, and what was done. -/
structure Call (α : Type) where
  session : Session α
  handle : Handle
  acts : List (Action α)

def Call.steps (c : Call α) : List (Session α × Action α) := c.session.steps c.acts

def Call.deeds (c : Call α) : List Deed := c.session.deeds c.acts

structure Disposal (α σ : Type) where
  state : σ
  cursors : Array Cursor
  calls : List (Call α)

def callOn (f : Disposer α σ) (w : Workspace α) (x : Disposal α σ) (h : Handle) :
    Workspace α × ForInStep (Disposal α σ) :=
  let s : Session α := ⟨w, x.cursors⟩
  let (acts, state) := f x.state s h
  let s' := s.perform acts
  (s'.space, .yield ⟨state, s'.cursors, x.calls ++ [⟨s, h, acts⟩]⟩)

def unwound (t : TableId) (calls : List (Call α)) : List (Action α) :=
  calls.flatMap (fun c => .takeNext t :: c.acts) ++ [.takeNext t]

theorem perform_unwound_cons (s : Session α) (t : TableId) (c : Call α) (calls : List (Call α)) :
    s.perform (unwound t (c :: calls)) =
      ((s.act (.takeNext t)).1.perform c.acts).perform (unwound t calls) := by
  have happend : unwound t (c :: calls) = [.takeNext t] ++ c.acts ++ unwound t calls := by
    simp [unwound]
  rw [happend, perform_append, perform_append]
  rfl

theorem steps_unwound_cons (s : Session α) (t : TableId) (c : Call α) (calls : List (Call α)) :
    s.steps (unwound t (c :: calls)) = (s, .takeNext t) :: ((s.act (.takeNext t)).1.steps c.acts
      ++ ((s.act (.takeNext t)).1.perform c.acts).steps (unwound t calls)) := by
  have happend : unwound t (c :: calls) = [.takeNext t] ++ (c.acts ++ unwound t calls) := by
    simp [unwound]
  rw [happend, steps_append, steps_append]
  rfl

/-- The calls hand over `hs`: each finds its record under the key it had in `s` and unlinked, and
the records of the later calls as they were in `s`. -/
structure HandsOver (s : Session α) (held : Holdings) (t : TableId) (p : ArenaId)
    (hs : List Handle) (calls : List (Call α)) : Prop where
  handles : calls.map (·.handle) = hs
  detached : ∀ c ∈ calls, ∃ r key next, c.session.recordOf p c.handle = some r ∧
    s.space.thread? p c.handle = some (key, next) ∧ r.key = key ∧ r.linked = false ∧ r.next = none
  kept : calls.Pairwise fun c later =>
    c.session.space.thread? p later.handle = s.space.thread? p later.handle
  steps : ∀ step ∈ s.steps (unwound t calls), step.2 = .takeNext t ∨ ∃ c ∈ calls, step ∈ c.steps
  emptied : (Deed.accounts held (s.deeds (unwound t calls)) t).records = []

theorem act_takeNext (hc : s.space.Closing t p hs) :
    (hs = [] ∧ s.space.takeNext t = (s.space.drop t, .ok none) ∧
      s.act (.takeNext t) = ({ s with space := s.space.drop t }, .ok (.found none))) ∨
      ∃ h rest a w', hs = h :: rest ∧ s.space.takeNext t = (w', .ok (some h)) ∧
        s.act (.takeNext t) = ({ s with space := w' }, .ok (.found (some h))) ∧
        w'.Closing t p rest ∧ s.space.arenas[p]? = some a ∧ w'.arenas[p]? = some (a.unlink h) := by
  rcases hc.takeNext with ⟨rfl, hn⟩ | ⟨h, rest, a, w', rfl, hn, -, hc', ha, ha'⟩
  · exact Or.inl ⟨rfl, hn, by rw [act, after, hn]; rfl⟩
  · exact Or.inr ⟨h, rest, a, w', rfl, hn, by rw [act, after, hn]; rfl, hc', ha, ha'⟩

theorem handsOver_nil (hw : s.space.Sound held) (hc : s.space.Closing t p [])
    (hn : (s.act (.takeNext t)).2 = .ok (.found none)) : HandsOver s held t p [] [] := by
  have hdoes : s.does (.takeNext t) = .ended t := by rw [does, hn, deed]
  have hdeeds : s.deeds (unwound t []) = [.ended t] := by rw [← hdoes]; rfl
  refine ⟨rfl, by simp, .nil, fun step hstep => ?_, ?_⟩
  · obtain rfl := List.mem_singleton.mp hstep
    exact Or.inl rfl
  · rw [hdeeds]
    exact (hw.perm_of_closing hc).2.symm.eq_nil

variable {c : Call α} {rest : List Handle} {calls : List (Call α)}

/-- Taking out a record detaches it and leaves the others as they were. -/
theorem act_takeNext_cons (hc : s.space.Closing t p (c.handle :: rest))
    (ht : s.act (.takeNext t) = (c.session, .ok (.found (some c.handle)))) :
    c.session.space.Closing t p rest ∧
      (∃ r key next, c.session.recordOf p c.handle = some r ∧
        s.space.thread? p c.handle = some (key, next) ∧ r.key = key ∧ r.linked = false ∧
        r.next = none) ∧
      ∀ k ∈ rest, c.session.space.thread? p k = s.space.thread? p k := by
  rcases act_takeNext hc with ⟨hnil, -⟩ | ⟨h, rest', a, w', he, -, hact, hc', ha, ha'⟩
  · cases hnil
  · cases he
    have hsession : c.session.space = w' := congrArg (·.1.space) (ht.symm.trans hact)
    subst hsession
    obtain ⟨d, b, -, -, hb, hd⟩ := hc
    rw [ha] at hb
    cases hb
    obtain ⟨r, hr, hl⟩ := hd.linked c.handle List.mem_cons_self
    refine ⟨hc', ⟨r.detach, r.key, r.next, ?_, ?_, rfl, rfl, rfl⟩, fun k hk => ?_⟩
    · have hget : (a.unlink c.handle).get? c.handle = some r.detach := by
        rw [Arena.get?_unlink, if_pos rfl, hr, Option.map_some]
      exact (recordOf_of_arena ha' _).trans hget
    · rw [Workspace.thread?_of_arena ha, Arena.thread?_of_get? hr, if_pos hl]
    · have hne : k ≠ c.handle := by
        rintro rfl
        exact (List.nodup_cons.mp hd.nodup).1 hk
      rw [Workspace.thread?_of_arena ha', Workspace.thread?_of_arena ha]
      exact Arena.thread?_congr (by rw [Arena.get?_unlink, if_neg hne])

theorem sound_taken (hw : s.space.Sound held)
    (ht : s.act (.takeNext t) = (c.session, .ok (.found (some c.handle)))) :
    s.does (.takeNext t) = .taken t c.handle ∧
      c.session.space.Sound (Deed.account held (.taken t c.handle)) := by
  have hdoes : s.does (.takeNext t) = .taken t c.handle := by rw [does, ht, deed]
  have hstep := hw.step (act_change hw (.takeNext t))
  rw [hdoes, ht] at hstep
  exact ⟨hdoes, hstep⟩

theorem HandsOver.cons (hw : s.space.Sound held) (hc : s.space.Closing t p (c.handle :: rest))
    (ht : s.act (.takeNext t) = (c.session, .ok (.found (some c.handle))))
    (hspare : ∀ action ∈ c.acts, action.Spares t)
    (hcalls : HandsOver (c.session.perform c.acts)
      (Deed.accounts (Deed.account held (.taken t c.handle)) c.deeds) t p rest calls) :
    HandsOver s held t p (c.handle :: rest) (c :: calls) := by
  obtain ⟨hc', hdetached, hrest⟩ := act_takeNext_cons hc ht
  obtain ⟨hdoes, hw'⟩ := sound_taken hw ht
  obtain ⟨-, hperform⟩ := perform_closing hw' hc' hspare
  have hmem : ∀ c' ∈ calls, c'.handle ∈ rest := fun c' hm =>
    hcalls.handles ▸ List.mem_map_of_mem hm
  have hthread : ∀ c' ∈ calls, (c.session.perform c.acts).space.thread? p c'.handle =
      s.space.thread? p c'.handle := fun c' hm =>
    (hperform _ (hmem c' hm)).trans (hrest _ (hmem c' hm))
  have hsteps : s.steps (unwound t (c :: calls)) = (s, .takeNext t) :: (c.steps ++
      (c.session.perform c.acts).steps (unwound t calls)) := by
    rw [steps_unwound_cons, ht]
    rfl
  refine ⟨by rw [List.map_cons, hcalls.handles], ?_, ?_, ?_, ?_⟩
  · intro c' hm
    rcases List.mem_cons.mp hm with rfl | hm
    · exact hdetached
    · rw [← hthread c' hm]
      exact hcalls.detached c' hm
  · refine List.pairwise_cons.mpr ⟨fun c' hm => hrest _ (hmem c' hm), ?_⟩
    exact hcalls.kept.imp_of_mem fun _ hm he => he.trans (hthread _ hm)
  · intro step hstep
    rw [hsteps, List.mem_cons, List.mem_append] at hstep
    rcases hstep with rfl | hin | hlater
    · exact Or.inl rfl
    · exact Or.inr ⟨c, List.mem_cons_self, hin⟩
    · refine (hcalls.steps step hlater).imp_right fun ⟨c', hm, hin⟩ => ?_
      exact ⟨c', List.mem_cons_of_mem _ hm, hin⟩
  · have haccount : Deed.accounts held (s.deeds (unwound t (c :: calls))) =
        Deed.accounts (Deed.accounts (Deed.account held (.taken t c.handle)) c.deeds)
          ((c.session.perform c.acts).deeds (unwound t calls)) := by
      rw [deeds, hsteps, List.map_cons, List.map_append, ← hdoes, ← Deed.accounts_append]
      rfl
    rw [haccount]
    exact hcalls.emptied

/-- With a step for every record and one more, all are handed over, and what is done in all is a
list of actions. -/
theorem disposeAll_calls {f : Disposer α σ}
    (hf : ∀ x s h, ∀ action ∈ (f x s h).1, action.Spares t) (n : Nat) :
    ∀ (hs : List Handle) (s : Session α) (held : Holdings) (x : σ) (before : List (Call α)),
      s.space.Sound held → s.space.Closing t p hs → hs.length < n →
      ∃ state calls,
        let s' := s.perform (unwound t calls)
        Workspace.disposeAll t (callOn f) n s.space ⟨x, s.cursors, before⟩ =
          (s'.space, .ok ⟨state, s'.cursors, before ++ calls⟩) ∧
        HandsOver s held t p hs calls := by
  induction n with
  | zero => exact fun hs s held x before _ _ hlt => absurd hlt (Nat.not_lt_zero _)
  | succ n ih =>
    intro hs s held x before hw hc hlt
    rcases act_takeNext hc with
      ⟨rfl, hn, hact⟩ | ⟨h, rest, a, w', rfl, hn, hact, hc', -, -⟩
    · refine ⟨x, [], ?_, handsOver_nil hw hc (by rw [hact])⟩
      have hperform : s.perform (unwound t []) = { s with space := s.space.drop t } :=
        congrArg Prod.fst hact
      rw [Workspace.disposeAll, hn, hperform, List.append_nil]
    · let c : Call α := ⟨{ s with space := w' }, h, (f x { s with space := w' } h).1⟩
      have hspare : ∀ action ∈ c.acts, action.Spares t := hf x c.session h
      obtain ⟨-, hw'⟩ := sound_taken (c := c) hw hact
      obtain ⟨hc'', -⟩ := perform_closing hw' hc' hspare
      obtain ⟨state, calls, he, hcalls⟩ := ih rest (c.session.perform c.acts) _
        (f x c.session h).2 (before ++ [c]) (perform_accounts hw' c.acts) hc''
        (by simpa using hlt)
      refine ⟨state, c :: calls, ?_, hcalls.cons hw hc hact hspare⟩
      have hperform : s.perform (unwound t (c :: calls)) =
          (c.session.perform c.acts).perform (unwound t calls) := by
        rw [perform_unwound_cons, hact]
      rw [hperform, Workspace.disposeAll, hn]
      simp only [List.append_assoc, List.singleton_append] at he
      exact he

def begun (s : Session α) (t : TableId) (table : Table) : Session α :=
  { s with space := s.space.setTable t (.closing (.of table)) }

variable {table : Table} {a : Arena α} {cs : Chains}

theorem begun_closing (hu : s.space.Uses t table a) (hcs : table.Indexes a cs) :
    (s.begun t table).space.Closing t table.arena cs.flatten := by
  have ht := Workspace.tables_setTable hu.tables (.closing (.of table)) t
  rw [if_pos rfl] at ht
  exact ⟨.of table, a, ht, rfl, hu.arenas, Teardown.remains_of hcs⟩

theorem dismantle_calls {f : Disposer α σ}
    (hf : ∀ x s h, ∀ action ∈ (f x s h).1, action.Spares t) (hw : s.space.Sound held)
    (hu : s.space.Uses t table a) (hcs : table.Indexes a cs) (x : σ) :
    ∃ state calls,
      let s' := (s.begun t table).perform (unwound t calls)
      s.space.dismantle t table.arena (callOn f) ⟨x, s.cursors, []⟩ =
        (s'.space, .ok ⟨state, s'.cursors, calls⟩) ∧
      HandsOver (s.begun t table) held t table.arena cs.flatten calls := by
  have hw' : (s.begun t table).space.Sound held := hw.step (.closed hu)
  have hbegin : s.space.beginTeardown t table.arena = ((s.begun t table).space, .ok ()) := by
    rw [Workspace.beginTeardown, hu.getPair]
    rfl
  obtain ⟨state, calls, he, hcalls⟩ := disposeAll_calls hf (table.count + 1) cs.flatten
    (s.begun t table) held x [] hw' (begun_closing hu hcs) (by rw [hcs.count]; omega)
  refine ⟨state, calls, ?_, hcalls⟩
  unfold Workspace.dismantle
  simp only [hu.table?, Option.elim, hbegin]
  exact he

/-! ## Afterwards -/

theorem takeNext_apart (s : Session α) (hu : u ≠ t) :
    (s.does (.takeNext t)).retires ≠ some u ∧
      ∀ h events, s.does (.takeNext t) ≠ .inserted u h events := by
  have hspare : (Action.takeNext t : Action α).Spares u := Ne.symm hu
  refine ⟨(deed_spares hspare _).1, fun h events => ?_⟩
  unfold does deed
  split <;> simp_all

/-- A record handed over that is linked in the end was inserted in one of the calls, into another
table. That lists it still, or listed it when it was retired. -/
theorem HandsOver.linked (hcalls : HandsOver s held t p hs calls) (hw : s.space.Sound held)
    (hc : s.space.Closing t p hs) {h : Handle} (hh : h ∈ hs) {r : Record α}
    (hr : (s.perform (unwound t calls)).recordOf p h = some r) (hl : r.linked = true) :
    ∃ u, u ≠ t ∧
      (∃ c ∈ calls, ∃ step ∈ c.steps, ∃ events, step.1.does step.2 = .inserted u h events) ∧
      ((s.perform (unwound t calls)).space.Lists u p h ∨
        ∃ c ∈ calls, ∃ step ∈ c.steps, (step.1.does step.2).retires = some u ∧
          step.1.space.Lists u p h) := by
  obtain ⟨harena, hperm⟩ := hw.perm_of_closing hc
  have hw' := perform_accounts hw (unwound t calls)
  obtain ⟨a, ha, hget⟩ := Option.bind_eq_some_iff.mp hr
  obtain ⟨u, hu, hm⟩ := hw'.owned p a h r ha hget hl
  have hut : u ≠ t := by
    rintro rfl
    rw [hcalls.emptied] at hm
    cases hm
  have hinserted : ∃ step ∈ s.steps (unwound t calls), ∃ events,
      step.1.does step.2 = .inserted u h events := by
    rcases Deed.mem_accounts hm with ⟨hold, ha'⟩ | ⟨events, hi⟩
    · have hp : (held u).arena = (held t).arena := by rw [← ha', hu, harena]
      exact absurd (hperm.mem_iff.mp hh) (hw.apart u t hut hp hold)
    · obtain ⟨step, hstep, he⟩ := List.mem_map.mp hi
      exact ⟨step, hstep, events, he⟩
  obtain ⟨step, hstep, events, hi⟩ := hinserted
  refine ⟨u, hut, ?_, ?_⟩
  · rcases hcalls.steps step hstep with htake | ⟨c, hm', hin⟩
    · rw [htake] at hi
      exact absurd hi ((takeNext_apart step.1 hut).2 h events)
    · exact ⟨c, hm', step, hin, events, hi⟩
  · rcases perform_lists hw hstep hi hm hu with ⟨table, b, hb⟩ | ⟨last, hlast, hretires, hlists⟩
    · exact Or.inl (hw'.lists hb hm hu)
    · rcases hcalls.steps last hlast with htake | ⟨c, hm', hin⟩
      · rw [htake] at hretires
        exact absurd hretires (takeNext_apart last.1 hut).1
      · exact Or.inr ⟨c, hm', last, hin, hretires, hlists⟩

theorem recordOf_of_thread? {h : Handle} {key : UInt64} {next : Option Handle}
    (he : s.space.thread? p h = some (key, next)) :
    ∃ r, s.recordOf p h = some r ∧ r.linked = true ∧ r.key = key := by
  obtain ⟨a, ha, he⟩ := Option.bind_eq_some_iff.mp he
  obtain ⟨r, hr, hl, hk, -⟩ := Arena.thread?_eq_some.mp he
  exact ⟨r, (recordOf_of_arena ha h).trans hr, hl, hk⟩

/-- A table in use after a run is taken apart. The disposer is called for the records it lists, each
once and in this order. In each call the record is live under its old key, unlinked and without a
successor, and the records of the later calls are live, linked and under their old keys. In the end
a record that was handed over is linked only if it was inserted in a call, into another table that
still lists it, or did so when a call ended its use. -/
theorem dismantle_hands_over (acts : List (Action α)) {t : TableId} {table : Table}
    (ht : (run acts).space.table? t = some table) {f : Disposer α σ}
    (hf : ∀ x s h, ∀ action ∈ (f x s h).1, action.Spares t) (x : σ) :
    let s := run acts
    let p := table.arena
    ∃ hs w y, s.space.handles t p = .ok hs ∧ hs.Nodup ∧
      s.space.dismantle t p (callOn f) ⟨x, s.cursors, []⟩ = (w, .ok y) ∧
      y.calls.map (·.handle) = hs ∧
      (∀ c ∈ y.calls, ∃ r r', s.recordOf p c.handle = some r ∧
        c.session.recordOf p c.handle = some r' ∧ r'.key = r.key ∧ r'.linked = false ∧
        r'.next = none) ∧
      (y.calls.Pairwise fun c later => ∃ r r', s.recordOf p later.handle = some r ∧
        c.session.recordOf p later.handle = some r' ∧ r'.key = r.key ∧ r'.linked = true) ∧
      ∀ h ∈ hs, ∀ r, (⟨w, y.cursors⟩ : Session α).recordOf p h = some r → r.linked = true →
        ∃ u, u ≠ t ∧
          (∃ c ∈ y.calls, ∃ step ∈ c.steps, ∃ events, step.1.does step.2 = .inserted u h events) ∧
          (w.Lists u p h ∨ ∃ c ∈ y.calls, ∃ step ∈ c.steps,
            (step.1.does step.2).retires = some u ∧ step.1.space.Lists u p h) := by
  intro s p
  have hw := run_sound acts
  obtain ⟨a, hu⟩ := hw.exists_uses ht
  obtain ⟨-, -, cs, hcs, -⟩ := hw.uses hu
  obtain ⟨state, calls, he, hcalls⟩ := dismantle_calls hf hw hu hcs x
  have hw' : (s.begun t table).space.Sound (holdings acts) := hw.step (.closed hu)
  have hlisted : s.space.handles t p = .ok cs.flatten := by
    simp only [p, s, Workspace.handles, hu.getPair, bind, Except.bind, hcs.handles]
  have hold : ∀ c ∈ calls, ∃ key next, s.space.thread? p c.handle = some (key, next) := by
    intro c hc
    obtain ⟨-, key, next, -, hthread, -⟩ := hcalls.detached c hc
    exact ⟨key, next, hthread⟩
  refine ⟨cs.flatten, _, _, hlisted, hcs.threads.nodup, he, hcalls.handles, ?_, ?_, ?_⟩
  · intro c hc
    obtain ⟨r', key, next, hr', hthread, hkey, hl, hnext⟩ := hcalls.detached c hc
    obtain ⟨r, hr, -, hk⟩ := recordOf_of_thread? (s := s) hthread
    exact ⟨r, r', hr, hr', hkey.trans hk.symm, hl, hnext⟩
  · refine hcalls.kept.imp_of_mem fun {c later} _ hm hkept => ?_
    obtain ⟨key, next, hthread⟩ := hold later hm
    obtain ⟨r, hr, -, hk⟩ := recordOf_of_thread? hthread
    obtain ⟨r', hr', hl', hk'⟩ := recordOf_of_thread? (hkept.trans hthread)
    exact ⟨r, r', hr, hr', hk'.trans hk.symm, hl'⟩
  · intro h hh r hr hl
    exact hcalls.linked hw' (begun_closing hu hcs) hh hr hl

def sampleDisposer : Disposer Unit Nat := fun n _ h =>
  match n with
  | 0 => ([.insert .ample 1 0 h], 1)
  | 1 => ([.release 0 h, .alloc 0 (.detached 9 ())], 2)
  | n => ([.rekey 0 h 5], n)

def twoTables : List (Action Unit) := sample ++ [.create .ample 0 "u" ⟨[1, 2], 1⟩]

/-- The record that the first call inserts stays linked. -/
theorem sample_disposal : ∃ w y u,
    (run twoTables).space.dismantle 0 0 (callOn sampleDisposer) ⟨0, (run twoTables).cursors, []⟩ =
      (w, .ok y) ∧ y.calls.map (·.handle) = [⟨2, 1⟩, ⟨1, 1⟩, ⟨0, 1⟩] ∧ u ≠ 0 ∧
    ∃ c ∈ y.calls, ∃ step ∈ c.steps, ∃ events,
      step.1.does step.2 = .inserted u ⟨2, 1⟩ events := by
  have ht : (run twoTables).space.table? 0 = some sampleTable := by rfl
  have hf : ∀ n s h, ∀ action ∈ (sampleDisposer n s h).1, action.Spares 0 := by
    intro n s h action hm
    match n with
    | 0 =>
      obtain rfl := List.mem_singleton.mp hm
      trivial
    | 1 => rcases List.mem_pair.mp hm with rfl | rfl <;> trivial
    | n + 2 =>
      obtain rfl := List.mem_singleton.mp hm
      trivial
  obtain ⟨hs, w, y, hlisted, -, he, hcalls, -, -, hlinked⟩ := dismantle_hands_over _ ht hf 0
  have hsample : (run twoTables).space.handles 0 0 = .ok [⟨2, 1⟩, ⟨1, 1⟩, ⟨0, 1⟩] := by rfl
  have hhs : hs = [⟨2, 1⟩, ⟨1, 1⟩, ⟨0, 1⟩] := Except.ok.inj (hlisted.symm.trans hsample)
  have hrecord : (((run twoTables).space.dismantle 0 0 (callOn sampleDisposer)
      ⟨0, (run twoTables).cursors, []⟩).1.arena? 0 >>= (·.get? ⟨2, 1⟩)).any (·.linked) = true := by
    decide +kernel
  have he' : (run twoTables).space.dismantle 0 0 (callOn sampleDisposer)
      ⟨0, (run twoTables).cursors, []⟩ = (w, .ok y) := he
  rw [he'] at hrecord
  obtain ⟨r, hr, hl⟩ := (Option.any_eq_true _ _).mp hrecord
  obtain ⟨u, hu, hinserted, -⟩ := hlinked ⟨2, 1⟩ (by simp [hhs]) r hr hl
  exact ⟨w, y, u, he', hcalls.trans hhs, hu, hinserted⟩

end Session
end RecordIndex
