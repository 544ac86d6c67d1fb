import Mathlib
import RecordIndex.Proofs.Session.Disposal
import RecordIndex.Proofs.Session.Refusals
import RecordIndex.Proofs.Table.Safety
import RecordIndex.Proofs.Walk.Listing

/-! # Safety of a run

Two failures are no answers but the end of the program that meets them: a foreign arena and
corrupted chains. The user avoids the first by naming a table with its own arena, and no run comes
to the second, as long as no epoch wraps around.
-/
namespace RecordIndex
variable {α β : Type}

def Failure.isFatal : Failure → Bool
  | .foreignArena _ => true
  | .corrupted => true
  | _ => false

namespace Session
variable {s : Session α} {held : Holdings} {t : TableId} {p : ArenaId} {table : Table}
  {a : Arena α} {cs : Chains} {action : Action α} {e : Failure}

/-- The failure says, and rightly, that the action names a table with an arena not its own. -/
def Misnames (s : Session α) (action : Action α) (e : Failure) : Prop :=
  ∃ t p table, action.pair? = some (t, p) ∧ s.space.table? t = some table ∧ p ≠ table.arena ∧
    e = .foreignArena table.name

theorem after_error {result : Workspace α × Except Failure β} {reply : β → Reply α}
    (he : (s.after result reply).2 = .error e) : result.2 = .error e := by
  obtain ⟨w, answer⟩ := result
  cases answer with
  | error e' =>
    cases he
    rfl
  | ok b => cases he

/-! ## Actions without a table -/

theorem not_fatal_of_denied {m : Allocator} {name : String} {policy : Policy}
    (hd : Table.Denied m name policy e) : e.isFatal = false := by
  cases hd <;> rfl

theorem not_fatal_of_arena {f : Arena α → Arena α × Except Failure β} {reply : β → Reply α}
    (hf : ∀ a, (f a).2 = .error e → e.isFatal = false)
    (he : (s.after (s.space.onArena p f) reply).2 = .error e) : e.isFatal = false := by
  rcases Workspace.onArena_error (after_error he) with rfl | ⟨a, ha⟩
  · rfl
  · exact hf a ha

theorem not_fatal_of_pair?_none (hw : s.space.Sound held) (hpair : action.pair? = none)
    (he : (s.act action).2 = .error e) : e.isFatal = false := by
  cases action with
  | addArena | drop => cases he
  | alloc | setPayload => exact not_fatal_of_arena (fun a ha => by cases ha) he
  | release p h =>
    refine not_fatal_of_arena (fun a ha => ?_) he
    rcases Arena.release_error ha with rfl | rfl <;> rfl
  | rekey p h key =>
    refine not_fatal_of_arena (fun a ha => ?_) he
    rcases Arena.rekey_error ha with rfl | rfl <;> rfl
  | create m p name policy =>
    have hc := after_error he
    unfold Workspace.create at hc
    cases hp : s.space.getArena p with
    | error e' =>
      simp only [hp, Except.error.injEq] at hc
      rw [← hc, Workspace.getArena_error hp]
      rfl
    | ok a =>
      rcases Table.create_cases m s.space.tables.size p name policy with ⟨e', he', hd⟩ | ⟨-, hnew⟩
      · simp only [hp, he', Except.error.injEq] at hc
        exact not_fatal_of_denied (hc ▸ hd)
      · simp [hp, hnew] at hc
  | takeNext t =>
    have ht := after_error he
    rcases hw.takeNext_cases t with ⟨-, hn⟩ | ⟨-, hn⟩ | ⟨w', h, -, hn, -⟩ <;> rw [hn] at ht <;>
      cases ht
    rfl
  | cursor t =>
    simp only [act] at he
    rcases s.space.cursor_cases t with hc | ⟨table, -, hc⟩ <;> rw [hc] at he <;> cases he
    rfl
  | clone c =>
    simp only [act] at he
    rcases s.getCursor_cases c with hc | ⟨cur, -, hc⟩ <;> rw [hc] at he <;> cases he
    rfl
  | reset c t =>
    simp only [act] at he
    rcases s.getCursor_cases c with hc | ⟨cur, -, hc⟩ <;> rw [hc] at he
    · cases he
      rfl
    · rcases s.space.cursor_cases t with hc' | ⟨table, -, hc'⟩ <;> rw [hc'] at he <;> cases he
      rfl
  | _ => cases hpair

/-! ## Actions on a table and its own arena -/

theorem not_fatal_of_declines {m : Allocator} {h : Handle} (hd : table.Declines m a h e) :
    e.isFatal = false := by
  cases hd <;> rfl

theorem not_fatal_of_uses (hu : s.space.Uses t table a) (ht : table.Indexes a cs)
    (hpair : action.pair? = some (t, table.arena)) (hwalker : action.walker? = none)
    (he : (s.act action).2 = .error e) : e.isFatal = false := by
  cases action with
  | insert m t p h =>
    cases hpair
    have hi : (s.space.insert m t table.arena h).2.2 = .error e := after_error he
    rcases Workspace.insert_cases hu ht m h with ⟨e', hd, hdecl⟩ | ⟨w', events, hd, -⟩ <;>
      rw [hd] at hi <;> cases hi
    exact not_fatal_of_declines hdecl
  | remove t p key =>
    cases hpair
    rw [(act_remove hu ht key).answer.1] at he
    cases he
  | removeSame t p template same =>
    cases hpair
    rw [(act_removeSame hu ht template same).answer.1] at he
    cases he
  | lookup | lookupSame | entries | handles | listing | census =>
    cases hpair
    obtain ⟨hlookup, hsame, hentries, hhandles, hlisting, hcensus⟩ := act_read hu ht
    simp [hlookup, hsame, hentries, hhandles, hlisting, hcensus] at he
  | beginTeardown =>
    cases hpair
    simp [act, after, Workspace.beginTeardown, hu.getPair, Except.map] at he
  | advance | removeCurrent => cases hwalker
  | _ => cases hpair

theorem misnames_of_getPair (he : s.space.getPair t p = .error e)
    (hpair : action.pair? = some (t, p)) (hf : e.isFatal = true) : s.Misnames action e := by
  rcases Workspace.getPair_error he with rfl | ⟨table, ht, hp, rfl⟩
  · cases hf
  · exact ⟨t, p, table, hpair, ht, hp, rfl⟩

/-! ## Steps and removals of cursors -/

def Placed (s : Session α) : Prop :=
  ∀ (c : Nat) cur t table a cs, s.cursors[c]? = some cur → s.space.Uses t table a →
    table.Indexes a cs → cur.isValid table = true → ∃ passed rest, cur.place.Splits cs passed rest

theorem run_placed {acts : List (Action α)} (hlt : ∀ t, bumps acts t < 2 ^ 64) :
    (run acts).Placed :=
  fun _ _ t _ _ _ hc hu ht hv => cursor_splits acts hu ht hc (hlt t) hv

theorem misnames_of_getWalked {cur : Cursor} (he : s.space.getWalked cur t p = .error e)
    (hpair : action.pair? = some (t, p)) (hf : e.isFatal = true) : s.Misnames action e := by
  rcases Workspace.getWalked_error he with rfl | rfl | ⟨table, ht, hp, rfl⟩
  · cases hf
  · cases hf
  · exact ⟨t, p, table, hpair, ht, hp, rfl⟩

theorem advance_fatal (hw : s.space.Sound held) (hplaced : s.Placed) {c : Nat}
    (he : (s.act (.advance c t p)).2 = .error e) (hf : e.isFatal = true) :
    s.Misnames (.advance c t p) e := by
  rcases s.getCursor_cases c with hget | ⟨cur, hc, -⟩
  · simp only [act, hget, Except.error.injEq] at he
    subst he
    cases hf
  · rcases hw.getWalked_cases cur t p with ⟨e', hg⟩ | ⟨table, a, cs, hu, rfl, ht, hv⟩
    · rw [(act_of_getWalked hc hg).1, Except.error.injEq] at he
      exact misnames_of_getWalked (he ▸ hg) rfl hf
    · obtain ⟨passed, rest, hs⟩ := hplaced c cur t table a cs hc hu ht hv
      obtain ⟨place, hadv, -⟩ := act_advance_splits hu ht hc hv hs
      rw [hadv] at he
      cases he

theorem removeCurrent_fatal (hw : s.space.Sound held) (hplaced : s.Placed) {c : Nat}
    (he : (s.act (.removeCurrent c t p)).2 = .error e) (hf : e.isFatal = true) :
    s.Misnames (.removeCurrent c t p) e := by
  rcases s.getCursor_cases c with hget | ⟨cur, hc, -⟩
  · simp only [act, hget, Except.error.injEq] at he
    subst he
    cases hf
  · rcases hw.getWalked_cases cur t p with ⟨e', hg⟩ | ⟨table, a, cs, hu, rfl, ht, hv⟩
    · rw [(act_of_getWalked hc hg).2, Except.error.injEq] at he
      exact misnames_of_getWalked (he ▸ hg) rfl hf
    · obtain ⟨passed, rest, hs⟩ := hplaced c cur t table a cs hc hu ht hv
      rcases act_removeCurrent_splits hu ht hc hv hs with
        ⟨-, hrem⟩ | ⟨table', a', h, r, resume, -, -, -, hrem⟩
      · rw [hrem, Except.error.injEq] at he
        subst he
        cases hf
      · rw [hrem] at he
        cases he

/-! ## Runs -/

theorem act_fatal (hw : s.space.Sound held) (hplaced : s.Placed)
    (he : (s.act action).2 = .error e) (hf : e.isFatal = true) : s.Misnames action e := by
  cases hpair : action.pair? with
  | none => simp [not_fatal_of_pair?_none hw hpair he] at hf
  | some pair =>
    obtain ⟨t, p⟩ := pair
    cases hwalker : action.walker? with
    | none =>
      rcases hw.getPair_cases t p with ⟨e', hg⟩ | ⟨table, a, cs, hu, rfl, ht⟩
      · rw [act_of_getPair hg hpair hwalker, Except.error.injEq] at he
        exact misnames_of_getPair (he ▸ hg) hpair hf
      · simp [not_fatal_of_uses hu ht hpair hwalker he] at hf
    | some c =>
      cases action with
      | advance => exact advance_fatal hw hplaced he hf
      | removeCurrent => exact removeCurrent_fatal hw hplaced he hf
      | _ => cases hwalker

theorem draw_length (hcs : table.Indexes a cs) (n : Nat) :
    ∃ es l, (Listing.of table a).draw n = .ok (es, l) ∧ es.length = min n table.count ∧
      l.remaining = table.count - n := by
  obtain ⟨l, hdraw, hl⟩ := (Listing.ahead_of hcs).draw n
  have hlive : ∀ h ∈ cs.flatten.take n, ∃ r, a.get? h = some r := fun h hh =>
    hcs.threads.live h (List.mem_of_mem_take hh)
  have hlen := congrArg List.length (Arena.map_fst_read hlive)
  rw [List.length_map, List.length_take] at hlen
  refine ⟨_, l, hdraw, hlen.trans (by rw [hcs.count]), ?_⟩
  rw [hl.remaining, List.length_drop, hcs.count]

/-- After every run, as long as no epoch has wrapped around, the only fatal answer is that to a user
who names a table with an arena not its own. The tables take nothing for granted that is not so, a
listing yields as many records as its table counts and then nothing, and a teardown is done after as
many calls. -/
theorem runs_safe (acts : List (Action α)) (hlt : ∀ t, bumps acts t < 2 ^ 64) :
    let s := run acts
    (∀ action e, (s.act action).2 = .error e → e.isFatal = true → s.Misnames action e) ∧
    ∀ t table, s.space.table? t = some table → ∃ a, s.space.arena? table.arena = some a ∧
      table.Safe a ∧
      (∀ n, ∃ es l, (Listing.of table a).draw n = .ok (es, l) ∧
        es.length = min n table.count ∧ l.remaining = table.count - n) ∧
      ∀ (σ : Type) (f : Disposer α σ), (∀ x s h, ∀ action ∈ (f x s h).1, action.Spares t) →
        ∀ x, ∃ w y, s.space.dismantle t table.arena (callOn f) ⟨x, s.cursors, []⟩ = (w, .ok y) ∧
          y.calls.length = table.count := by
  intro s
  have hw := run_sound acts
  refine ⟨fun action e => act_fatal hw (run_placed hlt), fun t table ht => ?_⟩
  obtain ⟨a, hu⟩ := hw.exists_uses ht
  obtain ⟨-, -, cs, hcs, -⟩ := hw.uses hu
  refine ⟨a, hu.arenas, hcs.safe, draw_length hcs, fun σ f hf x => ?_⟩
  obtain ⟨state, calls, he, hcalls⟩ := dismantle_calls hf hw hu hcs x
  have hlen := congrArg List.length hcalls.handles
  rw [List.length_map] at hlen
  exact ⟨_, _, he, by rw [hcs.count, ← hlen]⟩

/-- A table that was never created has not changed. -/
theorem bumps_lt {acts : List (Action α)}
    (h : ∀ t < (run acts).space.tables.size, bumps acts t < 2 ^ 64) (t : TableId) :
    bumps acts t < 2 ^ 64 := by
  by_cases ht : t < (run acts).space.tables.size
  · exact h t ht
  · rw [(run_counts acts).fresh t (not_lt.mp ht)]
    decide

theorem sample_bumps (t : TableId) : bumps sample t < 2 ^ 64 := bumps_lt (by decide +kernel) t

/-- A table that has grown is listed to its end and no further. -/
theorem sample_safe : (∀ t, bumps sample t < 2 ^ 64) ∧
    ∃ a es l, (run sample).space.arena? 0 = some a ∧ sampleTable.Safe a ∧
      (Listing.of sampleTable a).draw 5 = .ok (es, l) ∧ es.length = 3 ∧ l.remaining = 0 := by
  have ht : (run sample).space.table? 0 = some sampleTable := by rfl
  obtain ⟨-, htables⟩ := runs_safe sample sample_bumps
  obtain ⟨a, ha, hsafe, hdraw, -⟩ := htables 0 sampleTable ht
  obtain ⟨es, l, he, hlen, hrem⟩ := hdraw 5
  exact ⟨sample_bumps, a, es, l, ha, hsafe, he, hlen, hrem⟩

end Session
end RecordIndex
