import Mathlib
import RecordIndex.Proofs.Arena.Ledger
import RecordIndex.Proofs.Session.Isolation

/-! # The ledgers of a run

A ledger is kept along the run for each arena, from the answers to what is done to it. At every time
the arena is what its ledger says, whatever the tables do meanwhile.
-/
namespace RecordIndex
variable {α : Type}

def Action.written? : Action α → Except Failure (Reply α) → Option (ArenaId × Handle)
  | .alloc p _, .ok (.handle h) => some (p, h)
  | .release p h, _ => some (p, h)
  | .rekey p h _, _ => some (p, h)
  | .setPayload p h _, _ => some (p, h)
  | _, _ => none

namespace Ledger

def note (p : ArenaId) (L : Ledger α) : Action α → Except Failure (Reply α) → Ledger α
  | .alloc q r, .ok (.handle h) => if q = p then L.store h (r.key, r.payload) else L
  | .release q h, .ok _ => if q = p then L.release h else L
  | .rekey q h key, .ok _ => if q = p then L.write h fun e => (key, e.2) else L
  | .setPayload q h payload, .ok _ => if q = p then L.write h fun e => (e.1, payload) else L
  | _, _ => L

theorem note_other {p : ArenaId} {action : Action α} (hp : action.arena? ≠ some p) (L : Ledger α)
    (answer : Except Failure (Reply α)) : L.note p action answer = L := by
  unfold note
  split <;> first | rfl | exact if_neg fun he => hp (congrArg some he)

theorem note_error (p : ArenaId) (L : Ledger α) (action : Action α) (e : Failure) :
    L.note p action (.error e) = L := by
  cases action <;> rfl

end Ledger

namespace Session
variable {s : Session α} {held : Holdings} {p q : ArenaId} {a : Arena α} {action : Action α}
  {L : Ledger α} {h : Handle}

def ledger (p : ArenaId) (acts : List (Action α)) : Ledger α :=
  track (fun s action L => L.note p action (s.act action).2) empty .empty acts

@[simp] theorem ledger_concat (p : ArenaId) (acts : List (Action α)) (action : Action α) :
    ledger p (acts ++ [action]) = (ledger p acts).note p action ((run acts).act action).2 :=
  track_concat ..

/-- Every arena is what its ledger says, and nothing is said of arenas to come. -/
structure Kept (s : Session α) (ledgers : ArenaId → Ledger α) : Prop where
  arenas : ∀ (p : ArenaId) a, s.space.arenas[p]? = some a → a.Matches (ledgers p)
  absent : ∀ p : ArenaId, s.space.arenas[p]? = none → ledgers p = .empty

theorem act_absent (ha : s.space.arenas[p]? = none) (hp : action.arena? = some p) :
    s.act action = (s, .error .unknownReference) := by
  have hget : s.space.getArena p = .error .unknownReference := by
    rw [Workspace.getArena, Workspace.arena?, ha]
  cases action with
  | alloc | release | rekey | setPayload =>
    cases hp
    simp only [act, after, Workspace.alloc, Workspace.release, Workspace.rekey,
      Workspace.setPayload, Workspace.onArena, hget]
    rfl
  | _ => cases hp

/-- What is done to an arena is done to it alone, and noted in its ledger. -/
theorem act_arena (ha : s.space.arenas[p]? = some a) (hs : a.Sound)
    (hp : action.arena? = some p) : ∃ a', (s.act action).1.space = s.space.setArena p a' ∧
      (∀ k, action.written? (s.act action).2 ≠ some (p, k) → a'.get? k = a.get? k) ∧
      ∀ L, a.Matches L → a'.Matches (L.note p action (s.act action).2) := by
  cases action with
  | alloc q r =>
    cases hp
    rw [act_alloc ha]
    refine ⟨_, rfl, fun k hk => a.get?_alloc_of_ne r hs fun he => hk ?_, fun L hm => ?_⟩
    · rw [he]
      rfl
    · rw [Ledger.note, if_pos rfl]
      exact hm.alloc hs r
  | release q h =>
    cases hp
    rw [act_release_eq ha]
    rcases a.release_cases h with ⟨e, he⟩ | ⟨r, -, -, hr, hget⟩
    · rw [he]
      exact ⟨a, rfl, fun _ _ => rfl, fun L hm => hm⟩
    · refine ⟨_, rfl, fun k hk => ?_, fun L hm => ?_⟩
      · rw [hget, if_neg fun he => hk (congrArg _ (congrArg _ he.symm))]
      · rw [hr, Except.map, Ledger.note, if_pos rfl]
        exact hm.release hr
  | rekey q h key =>
    cases hp
    rw [act_rekey_eq ha]
    rcases a.rekey_cases h key with ⟨e, he⟩ | ⟨r, -, -, he⟩ <;> rw [he]
    · exact ⟨a, rfl, fun _ _ => rfl, fun L hm => hm⟩
    · refine ⟨_, rfl, fun k hk => ?_, fun L hm => ?_⟩
      · exact Arena.get?_modify_of_ne a (fun he => hk (congrArg _ (congrArg _ he.symm))) _
      · rw [Except.map, Ledger.note, if_pos rfl]
        exact hm.modify h fun _ => rfl
  | setPayload q h payload =>
    cases hp
    rw [act_setPayload ha, Arena.setPayload]
    cases hr : a.get? h with
    | none =>
      refine ⟨a, rfl, fun _ _ => rfl, fun L hm => ?_⟩
      have hdead : L.live h = none := by rw [← hm.live, Arena.label?, hr, Option.map_none]
      rw [Ledger.note, if_pos rfl, Ledger.write_of_none hdead]
      exact hm
    | some r =>
      refine ⟨_, rfl, fun k hk => ?_, fun L hm => ?_⟩
      · exact Arena.get?_modify_of_ne a (fun he => hk (congrArg _ (congrArg _ he.symm))) _
      · rw [Ledger.note, if_pos rfl]
        exact hm.modify h fun _ => rfl
  | _ => cases hp

theorem Kept.act {ledgers : ArenaId → Ledger α} (hk : s.Kept ledgers)
    (hw : s.space.Sound held) (action : Action α) :
    (s.act action).1.Kept fun p => (ledgers p).note p action (s.act action).2 := by
  cases hq : action.arena? with
  | some q =>
    cases ha : s.space.arenas[q]? with
    | none =>
      rw [act_absent ha hq]
      simp only [Ledger.note_error]
      exact hk
    | some a =>
      obtain ⟨a', hspace, -, hmatches⟩ := act_arena ha (hw.arenas q a ha) hq
      have hother : ∀ p, p ≠ q → (ledgers p).note p action (s.act action).2 = ledgers p := by
        intro p hp
        apply Ledger.note_other
        rw [hq]
        exact fun he => hp (Option.some.inj he).symm
      constructor
      · intro p b hb
        rw [hspace, Workspace.arenas_setArena ha] at hb
        split at hb
        · rename_i hp
          cases hb
          rw [hp]
          exact hmatches _ (hk.arenas q a ha)
        · rename_i hp
          rw [hother p hp]
          exact hk.arenas p b hb
      · intro p hb
        rw [hspace, Workspace.arenas_setArena ha] at hb
        split at hb
        · cases hb
        · rename_i hp
          rw [hother p hp]
          exact hk.absent p hb
  | none =>
    have hsame : ∀ p, (ledgers p).note p action (s.act action).2 = ledgers p := fun p =>
      Ledger.note_other (by rw [hq]; nofun) _ _
    simp only [hsame]
    by_cases hadd : action = .addArena
    · subst hadd
      have hpush : ∀ p : ArenaId, (s.act .addArena).1.space.arenas[p]? =
          if p = s.space.arenas.size then some .empty else s.space.arenas[p]? := fun p =>
        Array.getElem?_push
      constructor
      · intro p b hb
        rw [hpush] at hb
        split at hb
        · rename_i hp
          cases hb
          rw [hk.absent p (by simp [hp])]
          exact Arena.matches_empty
        · exact hk.arenas p b hb
      · intro p hb
        rw [hpush] at hb
        split at hb
        · cases hb
        · exact hk.absent p hb
    · have hregister := register?_act s hq hadd
      constructor
      · intro p b hb
        obtain ⟨a, ha, he⟩ := Workspace.exists_of_register? (hregister p).symm hb
        exact (hk.arenas p a ha).congr he.symm
      · intro p hb
        apply hk.absent
        simpa [Workspace.register?, hb] using (hregister p).symm

theorem run_kept (acts : List (Action α)) : (run acts).Kept fun p => ledger p acts := by
  induction acts using List.reverseRecOn with
  | nil => exact ⟨fun p a ha => by simp [empty, Workspace.empty] at ha, fun _ _ => rfl⟩
  | append_singleton acts action ih =>
    rw [run_concat, funext fun p => ledger_concat p acts action]
    exact ih.act (run_sound acts) action

/-! ## Answers -/

def heldFast (s : Session α) (p : ArenaId) (h : Handle) : Bool :=
  (s.recordOf p h).any (·.linked)

/-- A handle that does not resolve is stale. One that does is the record of the ledger; as long as
it is in a chain it is neither released nor re-keyed, and outside of one it has no links. -/
theorem act_answers (ha : s.space.arenas[p]? = some a) (hs : a.Sound) (hm : a.Matches L)
    (h : Handle) :
    (s.act (.release p h)).2 = (match L.live h with
      | none => .error .staleHandle
      | some (key, payload) =>
        if s.heldFast p h then .error .stillLinked else .ok (.record (.detached key payload))) ∧
    (∀ key, (s.act (.rekey p h key)).2 = match L.live h with
      | none => .error .staleHandle
      | some _ => if s.heldFast p h then .error .stillLinked else .ok .done) ∧
    ∀ payload, (s.act (.setPayload p h payload)).2 = .ok (.payload ((L.live h).map (·.2))) := by
  have hrecord : s.recordOf p h = a.get? h := recordOf_of_arena ha h
  rw [← hm.live, Arena.label?, heldFast, hrecord]
  cases hr : a.get? h with
  | none =>
    refine ⟨?_, fun key => ?_, fun payload => ?_⟩
    · rw [act_release_eq ha, Arena.release, hr]
      rfl
    · rw [act_rekey_eq ha, Arena.rekey, hr]
      rfl
    · rw [act_setPayload ha, Arena.setPayload, hr]
      rfl
  | some r =>
    refine ⟨?_, fun key => ?_, fun payload => ?_⟩
    · rw [act_release (hrecord.trans hr)]
      cases hl : r.linked with
      | true => simp [hl]
      | false =>
        have hloose : r = .detached r.key r.payload := by
          have hnext := hs.loose h r hr hl
          obtain ⟨key, payload, next, linked⟩ := r
          simp_all [Record.detached]
        simpa [hl] using hloose
    · rw [act_rekey (hrecord.trans hr)]
      rfl
    · rw [act_setPayload ha, Arena.setPayload, hr]
      rfl

/-- An arena stands at every time for what its ledger says. A handle resolves if and only if it was
given out and its record not taken out since, and then to the key and the payload written last. The
next handle is a new one as long as its slot was emptied less than 2 ^ 31 times. A record is given
back as it was written, with its links cleared; the size counts the live handles; and what is done
to one handle makes no difference to the others, here or in other arenas. -/
theorem arenas_keep_ledgers (acts : List (Action α)) (ha : (run acts).space.arena? p = some a) :
    let s := run acts
    let L := ledger p acts
    (∀ h, (s.recordOf p h).map (fun r => (r.key, r.payload)) = L.live h ∧
      a.contains h = (L.live h).isSome ∧ ((L.live h).isSome = true → h ∈ L.issued)) ∧
    (∀ r, ∃ h, (s.act (.alloc p r)).2 = .ok (.handle h) ∧
      (L.releases h.slot < 2 ^ 31 → h ∉ L.issued)) ∧
    (∀ h, (s.act (.release p h)).2 = match L.live h with
      | none => .error .staleHandle
      | some (key, payload) =>
        if s.heldFast p h then .error .stillLinked else .ok (.record (.detached key payload))) ∧
    (∀ h key, (s.act (.rekey p h key)).2 = match L.live h with
      | none => .error .staleHandle
      | some _ => if s.heldFast p h then .error .stillLinked else .ok .done) ∧
    (∀ h payload,
      (s.act (.setPayload p h payload)).2 = .ok (.payload ((L.live h).map (·.2)))) ∧
    (∃ hs : List Handle, hs.Nodup ∧ (∀ h, h ∈ hs ↔ (L.live h).isSome = true) ∧
      a.size = hs.length) ∧
    ∀ action q k, action.arena?.isSome = true →
      action.written? (s.act action).2 ≠ some (q, k) →
        (s.act action).1.recordOf q k = s.recordOf q k := by
  intro s L
  have hw := run_sound acts
  have hs := hw.arenas p a ha
  have hm : a.Matches L := (run_kept acts).arenas p a ha
  have hlive : ∀ h, a.contains h = (L.live h).isSome := fun h => by
    rw [Arena.contains_eq, hm.live]
  refine ⟨fun h => ⟨?_, hlive h, hm.known h⟩, fun r => ⟨_, by rw [act_alloc ha r], hm.fresh hs r⟩,
    fun h => (act_answers ha hs hm h).1, fun h => (act_answers ha hs hm h).2.1,
    fun h => (act_answers ha hs hm h).2.2,
    ⟨a.liveHandles, a.nodup_liveHandles, fun h => ?_, a.length_liveHandles.symm⟩, ?_⟩
  · rw [← hm.live, recordOf, ha, Option.bind_some, Arena.label?]
  · rw [Arena.mem_liveHandles, hlive]
  · intro action q k hsome hne
    obtain ⟨p', hp'⟩ := Option.isSome_iff_exists.mp hsome
    cases hb : s.space.arenas[p']? with
    | none => rw [act_absent hb hp']
    | some b =>
      obtain ⟨b', hspace, hget, -⟩ := act_arena hb (hw.arenas p' b hb) hp'
      rw [recordOf, recordOf, Workspace.arena?, Workspace.arena?, hspace,
        Workspace.arenas_setArena hb]
      split
      · rename_i hq
        subst hq
        rw [hb, Option.bind_some, Option.bind_some]
        exact hget k hne
      · rfl

def recycled : List (Action Unit) :=
  [.addArena, .alloc 0 (.detached 1 ()), .release 0 ⟨0, 1⟩]

/-- The slot is filled under a handle that is not the old one. -/
theorem recycled_ledger : ∃ a h, (run recycled).space.arena? 0 = some a ∧
    (ledger 0 recycled).issued = [⟨0, 1⟩] ∧ (ledger 0 recycled).releases 0 = 1 ∧
    ((run recycled).act (.alloc 0 (.detached 1 ()))).2 = .ok (.handle h) ∧ h.slot = 0 ∧
    h ≠ ⟨0, 1⟩ := by
  have ha : (run recycled).space.arena? 0 = some ⟨#[⟨2, none⟩], [0]⟩ := by rfl
  have hissued : (ledger 0 recycled).issued = [⟨0, 1⟩] := by rfl
  have hreleases : (ledger 0 recycled).releases 0 = 1 := by rfl
  obtain ⟨-, halloc, -⟩ := arenas_keep_ledgers recycled ha
  obtain ⟨h, hanswer, hfresh⟩ := halloc (.detached 1 ())
  have hslot : h.slot = 0 := by
    have he : (⟨0, 3⟩ : Handle) = h := by
      have hfirst : ((run recycled).act (.alloc 0 (.detached 1 ()))).2 = .ok (.handle ⟨0, 3⟩) := by
        rfl
      exact Reply.handle.inj (Except.ok.inj (hfirst.symm.trans hanswer))
    rw [← he]
  rw [hslot, hreleases, hissued] at hfresh
  exact ⟨_, h, ha, hissued, hreleases, hanswer, hslot, by simpa using hfresh (by decide)⟩

end Session
end RecordIndex
