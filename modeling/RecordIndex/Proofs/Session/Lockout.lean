import Mathlib
import RecordIndex.Proofs.Session.Isolation
import RecordIndex.Proofs.Session.Safety

/-! # Records of a table that was dropped

A table that is dropped takes its records with it. They stay in the arena, live and linked, but
whatever is done from then on, nothing is done with them: no other table holds them, so no answer
names them, and what is linked is neither released nor given another key nor taken in.
-/
namespace RecordIndex
variable {α σ : Type}

/-- The answer names the handle. A listing names those that it will yield. -/
def Reply.Names (h : Handle) : Reply α → Prop
  | .handle k => k = h
  | .found k => k = some h
  | .entries es => h ∈ es.map (·.1)
  | .handles hs => h ∈ hs
  | .listing l => ∃ n es l', l.draw n = .ok (es, l') ∧ h ∈ es.map (·.1)
  | _ => False

namespace Session
variable {s : Session α} {held : Holdings} {t u : TableId} {p : ArenaId} {h : Handle}
  {table : Table} {a : Arena α} {cs : Chains} {action : Action α} {answer : Reply α}

/-! ## What an answer names -/

def arenaOf (s : Session α) : Action α → Option ArenaId
  | .takeNext t =>
    match s.space.tables[t]? with
    | some (.closing d) => some d.arena
    | _ => none
  | action => action.arena?.or (action.pair?.map (·.2))

/-- An action that does not fail is on a table in use and its own arena. -/
theorem uses_of_answer (hw : s.space.Sound held) (hpair : action.pair? = some (u, p))
    (ha : (s.act action).2 = .ok answer) :
    ∃ table a cs, s.space.Uses u table a ∧ p = table.arena ∧ table.Indexes a cs := by
  rcases hw.getPair_cases u p with ⟨e, he⟩ | hcase
  · cases hwalker : action.walker? with
    | none =>
      rw [act_of_getPair he hpair hwalker] at ha
      cases ha
    | some c =>
      cases action with
      | advance c t q =>
        cases hpair
        rcases act_advance hw c u p with ⟨e', he'⟩ | ⟨_, _, _, _, _, -, hu, rfl, -⟩
        · rw [he'] at ha
          cases ha
        · rw [hu.getPair] at he
          cases he
      | removeCurrent c t q =>
        cases hpair
        rcases act_removeCurrent hw c u p with ⟨e', he'⟩ | ⟨_, _, _, _, _, _, _, _, _, -, hu, rfl, -⟩
        · rw [he'] at ha
          cases ha
        · rw [hu.getPair] at he
          cases he
      | _ => cases hwalker
  · exact hcase

/-- The answer to an action on a table names no records but those of the table. -/
theorem mem_of_names (hw : s.space.Sound held) (hplaced : s.Placed) (hu : s.space.Uses u table a)
    (hcs : table.Indexes a cs) (hpair : action.pair? = some (u, table.arena))
    (ha : (s.act action).2 = .ok answer) (hn : answer.Names h) : h ∈ cs.flatten := by
  have hstack : ∀ {key}, h ∈ Table.stack a cs key → h ∈ cs.flatten := fun hm =>
    (List.mem_filter.mp hm).1
  have hread : ∀ {hs : List Handle}, (∀ k ∈ hs, ∃ r, a.get? k = some r) →
      h ∈ (a.read hs).map (·.1) → h ∈ hs := fun hlive hm => by rwa [Arena.map_fst_read hlive] at hm
  cases action with
  | insert | beginTeardown =>
    obtain ⟨b, -, rfl⟩ := after_ok ha
    cases hn
  | remove t q key =>
    cases hpair
    rw [(act_remove hu hcs key).answer.1] at ha
    cases ha
    exact hstack (List.mem_of_mem_head? hn)
  | removeSame t q template same =>
    cases hpair
    rw [(act_removeSame hu hcs template same).answer.1] at ha
    cases ha
    exact hstack (List.mem_of_find?_eq_some hn)
  | lookup t q key =>
    cases hpair
    rw [(act_read hu hcs).1 key] at ha
    cases ha
    exact hstack (List.mem_of_mem_head? hn)
  | lookupSame t q template same =>
    cases hpair
    rw [(act_read hu hcs).2.1 template same] at ha
    cases ha
    exact hstack (List.mem_of_find?_eq_some hn)
  | entries t q =>
    cases hpair
    rw [(act_read hu hcs).2.2.1] at ha
    cases ha
    exact hread hcs.threads.live hn
  | handles t q =>
    cases hpair
    rw [(act_read hu hcs).2.2.2.1] at ha
    cases ha
    exact hn
  | listing t q =>
    cases hpair
    rw [(act_read hu hcs).2.2.2.2.1] at ha
    cases ha
    obtain ⟨n, es, l', hdraw, hm⟩ := hn
    obtain ⟨l'', hdraw', -⟩ := (Listing.ahead_of hcs).draw n
    rw [hdraw] at hdraw'
    cases hdraw'
    apply List.mem_of_mem_take
    exact hread (fun k hk => hcs.threads.live k (List.mem_of_mem_take hk)) hm
  | census t q same =>
    cases hpair
    rw [(act_read hu hcs).2.2.2.2.2 same] at ha
    cases ha
    cases hn
  | advance c t q =>
    cases hpair
    rcases act_advance hw c u table.arena with
      ⟨e, he⟩ | ⟨cur, table', a', place, found, hc, hu', -, hv, -, -⟩
    · rw [he] at ha
      cases ha
    · -- a valid cursor divides the listing, and it comes next to the first record still ahead
      obtain ⟨rfl, rfl⟩ := hu.unique hu'
      obtain ⟨passed, rest, hs⟩ := hplaced c cur u table a cs hc hu hcs hv
      obtain ⟨place, hadv, -⟩ := act_advance_splits hu hcs hc hv hs
      rw [hadv] at ha
      cases ha
      rw [← hs.append]
      exact List.mem_append_right _ (List.mem_of_mem_head? hn)
  | removeCurrent c t q =>
    cases hpair
    rcases act_removeCurrent hw c u table.arena with
      ⟨e, he⟩ | ⟨_, table', a', cs', _, _, k, _, _, -, hu', -, -, hcs', -, -, hi, he⟩ <;>
      rw [he] at ha
    · cases ha
    · cases ha
      obtain ⟨rfl, rfl⟩ := hu.unique hu'
      obtain rfl := hcs.unique hcs'
      exact hn ▸ hi.member
  | _ => cases hpair

/-- A handle that an answer names did not resolve before, or a table that is not gone held it. -/
theorem held_of_names (hw : s.space.Sound held) (hplaced : s.Placed)
    (ha : (s.act action).2 = .ok answer) (hn : answer.Names h) (hp : s.arenaOf action = some p) :
    s.recordOf p h = none ∨ ∃ u, s.space.tables[u]? ≠ some .gone ∧ (held u).arena = p ∧
      h ∈ (held u).records := by
  cases action with
  | alloc q r =>
    cases hp
    cases hq : s.space.arenas[p]? with
    | none => exact Or.inl (by rw [recordOf, Workspace.arena?, hq, Option.bind_none])
    | some b =>
      rw [act_alloc hq] at ha
      cases ha
      cases hn
      exact Or.inl ((recordOf_of_arena hq _).trans (b.get?_alloc_fresh r (hw.arenas p b hq)))
  | release | rekey | setPayload =>
    obtain ⟨b, -, rfl⟩ := after_ok ha
    cases hn
  | takeNext t =>
    obtain ⟨found, he, rfl⟩ := after_ok ha
    cases hn
    simp only [arenaOf] at hp
    split at hp
    · rename_i d hd
      cases hp
      obtain ⟨-, -, harena, -⟩ := hw.tables t _ hd
      refine Or.inr ⟨t, by simp [hd], harena.symm, ?_⟩
      rcases hw.takeNext_cases t with ⟨-, hn⟩ | ⟨-, hn⟩ | ⟨_, k, hk, hn, -⟩ <;>
        rw [hn] at he <;> cases he
      exact hk
    · cases hp
  | addArena | create | drop | cursor | clone | reset => cases hp
  | insert _ t | lookup t | lookupSame t | remove t | removeSame t | entries t | handles t
  | listing t | census t | beginTeardown t | advance _ t | removeCurrent _ t =>
    cases hp
    obtain ⟨table, b, cs, hu, rfl, hcs⟩ := uses_of_answer hw rfl ha
    obtain ⟨-, harena, hperm⟩ := hw.perm hu hcs
    have hm := mem_of_names hw hplaced hu hcs rfl ha hn
    exact Or.inr ⟨t, by simp [hu.tables], harena.symm, hperm.mem_iff.mp hm⟩

/-! ## Tables that are gone -/

/-- A table that is gone stays gone, and its records stay as they are, whatever is done. -/
theorem perform_gone (hw : s.space.Sound held) (ht : s.space.tables[t]? = some .gone)
    (more : List (Action α)) : ∃ held', (s.perform more).space.Sound held' ∧
      (s.perform more).space.tables[t]? = some .gone ∧ held' t = held t ∧
      ∀ k ∈ (held t).records, (s.perform more).space.thread? (held t).arena k =
        s.space.thread? (held t).arena k := by
  induction more using List.reverseRecOn with
  | nil => exact ⟨held, hw, ht, rfl, fun _ _ => rfl⟩
  | append_singleton more action ih =>
    obtain ⟨held', hw', ht', hheld, hthread⟩ := ih
    have hc := act_change hw' action
    obtain ⟨ht'', haccount, hkept⟩ := hw'.gone_kept hc ht'
    rw [hheld] at hkept
    rw [perform_concat]
    exact ⟨_, hw'.step hc, ht'', haccount.trans hheld,
      fun k hk => (hkept k hk).trans (hthread k hk)⟩

/-- What a table that is gone held last no other table holds. -/
theorem not_mem_of_gone (hw : s.space.Sound held) (ht : s.space.tables[t]? = some .gone)
    (hh : h ∈ (held t).records) (hu : s.space.tables[u]? ≠ some .gone)
    (hp : (held u).arena = (held t).arena) : h ∉ (held u).records := by
  have hne : u ≠ t := by
    rintro rfl
    exact hu ht
  exact hw.apart t u hne.symm hp.symm hh

/-- The record is out of reach: it is not given up and not taken in, no answer names it, no table of
its arena counts it, whatever it is like, and no teardown hands it over. -/
structure Locked (s : Session α) (p : ArenaId) (h : Handle) : Prop where
  release : (s.act (.release p h)).2 = .error .stillLinked
  rekey : ∀ key, (s.act (.rekey p h key)).2 = .error .stillLinked
  insert : ∀ m u table, s.space.table? u = some table → table.arena = p →
    (s.act (.insert m u p h)).2 = .error .alreadyLinked
  unnamed : ∀ action answer, s.arenaOf action = some p → (s.act action).2 = .ok answer →
    ¬ answer.Names h
  uncounted : ∀ u table, s.space.table? u = some table → table.arena = p → ∃ a hs,
    s.space.arena? p = some a ∧ table.handles a = .ok hs ∧ h ∉ hs ∧ table.count = hs.length ∧
    ∀ same, ∃ c, table.census a same = .ok c ∧ ∀ f, table.census (a.modify h f) same = .ok c
  spared : ∀ u table, s.space.table? u = some table → table.arena = p →
    ∀ (σ : Type) (f : Disposer α σ), (∀ x s k, ∀ action ∈ (f x s k).1, action.Spares u) →
    ∀ x, ∃ w y, s.space.dismantle u p (callOn f) ⟨x, s.cursors, []⟩ = (w, .ok y) ∧
      ∀ c ∈ y.calls, c.handle ≠ h

theorem locked_of_gone (hw : s.space.Sound held) (hplaced : s.Placed)
    (ht : s.space.tables[t]? = some .gone) (hh : h ∈ (held t).records) :
    s.Locked (held t).arena h := by
  obtain ⟨b, r, hb, hr, hl⟩ := hw.linked t h hh
  have hrecord : s.recordOf (held t).arena h = some r := (recordOf_of_arena hb h).trans hr
  have hunlisted : ∀ {u table a cs}, s.space.Uses u table a → table.Indexes a cs →
      table.arena = (held t).arena → h ∉ cs.flatten := by
    intro u table a cs hu hcs hp
    obtain ⟨-, harena, hperm⟩ := hw.perm hu hcs
    rw [hperm.mem_iff]
    exact not_mem_of_gone hw ht hh (by simp [hu.tables]) (harena.symm.trans hp)
  constructor
  · rw [act_release hrecord, if_pos hl]
  · intro key
    rw [act_rekey hrecord, if_pos hl]
  · intro m u table htable hp
    obtain ⟨a, hu⟩ := hw.exists_uses htable
    obtain rfl : a = b := by
      have ha := hu.arenas
      rw [hp, hb] at ha
      exact (Option.some.inj ha).symm
    obtain ⟨-, -, cs, hcs, -⟩ := hw.uses hu
    rw [← hp]
    exact (act_insert_error_iff hu hcs).mpr (.linked hr hl)
  · intro action answer hp ha hn
    rcases held_of_names hw hplaced ha hn hp with hnone | ⟨u, hu, harena, hm⟩
    · rw [hrecord] at hnone
      cases hnone
    · exact not_mem_of_gone hw ht hh hu harena hm
  · intro u table htable hp
    obtain ⟨a, hu⟩ := hw.exists_uses htable
    obtain ⟨-, -, cs, hcs, -⟩ := hw.uses hu
    have hout := hunlisted hu hcs hp
    refine ⟨a, cs.flatten, hp ▸ hu.arenas, hcs.handles, hout, hcs.count, fun same => ?_⟩
    refine ⟨_, hcs.census same, fun f => ?_⟩
    -- the chains lead past the record, so they are the same whatever it is
    have hother : ∀ k ∈ cs.flatten, (a.modify h f).get? k = a.get? k := by
      intro k hk
      have hne : k ≠ h := by
        rintro rfl
        exact hout hk
      exact a.get?_modify_of_ne hne f
    have hcs' : table.Indexes (a.modify h f) cs := hcs.congr fun k hk =>
      Arena.thread?_congr (hother k hk)
    obtain ⟨-, -, -, -, hcensus⟩ := hcs.reads_congr hcs' hother
    rw [hcensus, hcs.census]
  · intro u table htable hp σ f hf x
    obtain ⟨a, hu⟩ := hw.exists_uses htable
    obtain ⟨-, -, cs, hcs, -⟩ := hw.uses hu
    obtain ⟨state, calls, he, hcalls⟩ := dismantle_calls hf hw hu hcs x
    rw [hp] at he
    refine ⟨_, _, he, ?_⟩
    rintro c hc rfl
    apply hunlisted hu hcs hp
    rw [← hcalls.handles]
    exact List.mem_map_of_mem hc

/-! ## Dropping a table -/

theorem act_drop (hw : s.space.Sound held) (hu : s.space.Uses t table a) :
    (s.act (.drop t)).1.space.Sound held ∧ (s.act (.drop t)).1.space.tables[t]? = some .gone ∧
      ∀ p h, (s.act (.drop t)).1.space.thread? p h = s.space.thread? p h :=
  ⟨hw.step (.ended t), (Workspace.tables_setTable hu.tables .gone t).trans (if_pos rfl),
    fun _ _ => rfl⟩

theorem run_drop (acts more : List (Action α)) (t : TableId) :
    run (acts ++ .drop t :: more) = ((run acts).act (.drop t)).1.perform more := by
  rw [run, perform_append, perform_cons]
  rfl

theorem recordOf_kept {s' : Session α} {r : Record α} (hr : s.recordOf p h = some r)
    (hl : r.linked = true) (he : s'.space.thread? p h = s.space.thread? p h) :
    ∃ r', s'.recordOf p h = some r' ∧ r'.linked = true ∧ r'.key = r.key ∧ r'.next = r.next := by
  obtain ⟨a, ha, hget⟩ := arenas_of_recordOf hr
  have hthread : s.space.thread? p h = some (r.key, r.next) := by
    rw [Workspace.thread?_of_arena ha, Arena.thread?_of_get? hget, if_pos hl]
  obtain ⟨a', ha', -⟩ := Option.bind_eq_some_iff.mp (he.trans hthread)
  rw [Workspace.thread?_of_arena ha, Workspace.thread?_of_arena ha'] at he
  obtain ⟨r', hr', hkept⟩ := Arena.exists_get?_of_thread? he hget hl
  exact ⟨r', (recordOf_of_arena ha' h).trans hr', hkept⟩

/-- A cursor on a table that is gone is stale for any table that is not. -/
theorem stale_of_gone (hw : s.space.Sound held) (ht : s.space.tables[t]? = some .gone) {c : Nat}
    {cur : Cursor} (hc : s.cursors[c]? = some cur) (hcur : cur.table = t)
    (hu : s.space.table? u = some table) : cur.isValid table = false ∧
      ∀ p, (s.act (.advance c u p)).2 = .error (.staleCursor cur.tableName) ∧
        (s.act (.removeCurrent c u p)).2 = .error (.staleCursor cur.tableName) := by
  have hv : cur.isValid table = false := by
    apply Bool.eq_false_iff.mpr
    intro hv
    obtain ⟨a, hua⟩ := hw.exists_uses hu
    have htu := hcur.symm.trans (hw.table_eq hua hv)
    have hactive := hua.tables
    rw [← htu, ht] at hactive
    cases hactive
  exact ⟨hv, act_stale hu hc hv⟩

/-- A table is dropped after a run. Whatever comes of it, by teardowns or otherwise, is a run as
well. As long as no epoch has wrapped around, the records that the table listed are live and linked
as they were and out of reach, and a cursor that was last set on the table is stale for every other
one. -/
theorem drop_locks (acts : List (Action α)) (ht : (run acts).space.table? t = some table) :
    ∃ hs, (run acts).space.handles t table.arena = .ok hs ∧
      (∀ s', Leads (run (acts ++ [.drop t])) s' ↔ ∃ more, s' = run (acts ++ .drop t :: more)) ∧
      ∀ more : List (Action α), (∀ u, bumps (acts ++ .drop t :: more) u < 2 ^ 64) →
        let s' := run (acts ++ .drop t :: more)
        (∀ h ∈ hs, s'.Locked table.arena h ∧ ∃ r r',
          (run acts).recordOf table.arena h = some r ∧ s'.recordOf table.arena h = some r' ∧
          r'.linked = true ∧ r'.key = r.key ∧ r'.next = r.next) ∧
        ∀ (c : Nat) cur, s'.cursors[c]? = some cur →
          (history (acts ++ .drop t :: more) c).settled.map (·.1) = some t →
          ∀ u other, s'.space.table? u = some other → cur.isValid other = false ∧
            ∀ q, (s'.act (.advance c u q)).2 = .error (.staleCursor cur.tableName) ∧
              (s'.act (.removeCurrent c u q)).2 = .error (.staleCursor cur.tableName) := by
  have hw := run_sound acts
  obtain ⟨a, hu⟩ := hw.exists_uses ht
  obtain ⟨-, harena, cs, hcs, hperm⟩ := hw.uses hu
  obtain ⟨hw', hgone, hstill⟩ := act_drop hw hu
  refine ⟨cs.flatten, hu.handles hcs, fun s' => ⟨fun hs' => ?_, ?_⟩, fun more hlt => ?_⟩
  · rw [run_concat] at hs'
    obtain ⟨more, hmore⟩ := hs'.exists_perform _ hw'
    exact ⟨more, hmore.trans (run_drop acts more t).symm⟩
  · rintro ⟨more, rfl⟩
    rw [run_concat, run_drop]
    exact leads_perform _ more
  · -- all that follows happens in a session in which the table is gone
    obtain ⟨held', hw'', hgone', hheld, hthread⟩ := perform_gone hw' hgone more
    rw [← run_drop] at hw'' hgone' hthread
    refine ⟨fun h hh => ⟨?_, ?_⟩, ?_⟩
    · have hh' : h ∈ (held' t).records := by
        rw [hheld]
        exact hperm.mem_iff.mp hh
      have hlocked := locked_of_gone hw'' (run_placed hlt) hgone' hh'
      rwa [hheld, ← harena] at hlocked
    · obtain ⟨r, hr, hl⟩ := hcs.linked hh
      have hrecord : (run acts).recordOf table.arena h = some r := (recordOf_uses hu h).trans hr
      have hkept := (hthread h (hperm.mem_iff.mp hh)).trans (hstill _ h)
      rw [← harena] at hkept
      obtain ⟨r', hr'⟩ := recordOf_kept hrecord hl hkept
      exact ⟨r, r', hrecord, hr'⟩
    · intro c cur hc hsettled u other hother
      rw [(run_tracked _ c cur hc).settled, Option.map_some, Option.some.injEq] at hsettled
      exact stale_of_gone hw'' hgone' hc hsettled hother

/-- A new table can neither take in the records of the dropped one nor be walked by its cursor. -/
theorem sample_drop :
    let acts := sample ++ .drop 0 :: [.create .ample 0 "u" ⟨[1, 2], 1⟩]
    let s := run acts
    (run sample).space.table? 0 = some sampleTable ∧ (∀ u, bumps acts u < 2 ^ 64) ∧
      s.Locked 0 ⟨2, 1⟩ ∧
      (s.act (.insert .ample 1 0 ⟨2, 1⟩)).2 = .error .alreadyLinked ∧
      (s.act (.release 0 ⟨2, 1⟩)).2 = .error .stillLinked ∧
      (s.act (.advance 0 1 0)).2 = .error (.staleCursor "t") := by
  intro acts s
  have ht : (run sample).space.table? 0 = some sampleTable := by rfl
  have hlt : ∀ u, bumps acts u < 2 ^ 64 := fun u => bumps_lt (by decide +kernel) u
  obtain ⟨hs, hlisted, -, hlocks⟩ := drop_locks sample ht
  have hsample : (run sample).space.handles 0 0 = .ok [⟨2, 1⟩, ⟨1, 1⟩, ⟨0, 1⟩] := by rfl
  have hhs : hs = [⟨2, 1⟩, ⟨1, 1⟩, ⟨0, 1⟩] := Except.ok.inj (hlisted.symm.trans hsample)
  obtain ⟨hrecords, hcursors⟩ := hlocks [.create .ample 0 "u" ⟨[1, 2], 1⟩] hlt
  obtain ⟨hlocked, -⟩ := hrecords ⟨2, 1⟩ (by simp [hhs])
  have hu : s.space.table? 1 = some ⟨1, 0, "u", ⟨[1, 2], 1⟩, #[none], 0, 0, false⟩ := by rfl
  have hc : s.cursors[0]? = some ⟨0, "t", 4, .start⟩ := by rfl
  have hpast : (history acts 0).settled.map (·.1) = some 0 := by decide +kernel
  obtain ⟨-, hstale⟩ := hcursors 0 _ hc hpast 1 _ hu
  exact ⟨ht, hlt, hlocked, hlocked.insert .ample 1 _ hu rfl, hlocked.release, (hstale 0).1⟩

end Session
end RecordIndex
