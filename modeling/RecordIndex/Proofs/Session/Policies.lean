import Mathlib
import RecordIndex.Proofs.Census.Table
import RecordIndex.Proofs.Session.Isolation
import RecordIndex.Proofs.Session.Order
import RecordIndex.Proofs.Workspace.Twins

/-! # The growth policy has no say

Two tables that are created alike but for their policies are worked on in the same way. They grow at
different times and have other buckets and chains, but as long as neither is refused memory the
stacks of their keys are the same, and so is all that is said of keys, payloads and marks.
-/
namespace RecordIndex
variable {α : Type}

def Action.Basic (t : TableId) : Action α → Prop
  | .addArena | .alloc .. | .release .. | .rekey .. | .setPayload .. => True
  | .insert _ u .. | .lookup u .. | .remove u .. => u = t
  | .lookupSame u _ _ same | .removeSame u _ _ same => u = t ∧ Record.Overlooks same
  | _ => False

def Reply.silent : Reply α → Reply α
  | .events _ => .events []
  | reply => reply

namespace Session
variable {s s' : Session α} {held held' : Holdings} {t : TableId} {p : ArenaId} {action : Action α}

structure Keeps (s s' : Session α) (t : TableId) (p : ArenaId) (action : Action α) : Prop where
  twins : Workspace.Twins (s.act action).1.space (s'.act action).1.space t p
  answer : (s'.act action).2.map Reply.silent = (s.act action).2.map Reply.silent

theorem keeps_of_eq (ht : Workspace.Twins (s.act action).1.space (s'.act action).1.space t p)
    (ha : (s'.act action).2 = (s.act action).2) : Keeps s s' t p action :=
  ⟨ht, congrArg (Except.map Reply.silent) ha⟩

theorem keeps_insert (h : Workspace.Twins s.space s'.space t p) (m : Allocator) (q : ArenaId)
    (k : Handle)
    (hroom : ∀ name n, (s.act (.insert m t q k)).2 ≠ .error (.allocationFailed name n))
    (hroom' : ∀ name n, (s'.act (.insert m t q k)).2 ≠ .error (.allocationFailed name n)) :
    Keeps s s' t p (.insert m t q k) := by
  have hinner : ∀ {s : Session α},
      (∀ name n, (s.act (.insert m t q k)).2 ≠ .error (.allocationFailed name n)) →
      ∀ name n, (s.space.insert m t q k).2.2 ≠ .error (.allocationFailed name n) := by
    intro s hs name n he
    refine hs name n ?_
    simp only [act, after, he]
    rfl
  have hsilent : ∀ (s : Session α), (s.act (.insert m t q k)).2.map Reply.silent =
      (s.space.insert m t q k).2.2.map fun _ => .events [] := by
    intro s
    simp only [act, after]
    cases (s.space.insert m t q k).2.2 <;> rfl
  obtain ⟨ht, ha⟩ := h.insert m q k (hinner hroom) (hinner hroom')
  exact ⟨ht, by rw [hsilent, hsilent, ha]⟩

/-- One action in both sessions. -/
theorem act_keeps (h : Workspace.Twins s.space s'.space t p) (hw : s.space.Sound held)
    (hw' : s'.space.Sound held') (hb : action.Basic t)
    (hroom : ∀ name n, (s.act action).2 ≠ .error (.allocationFailed name n))
    (hroom' : ∀ name n, (s'.act action).2 ≠ .error (.allocationFailed name n)) :
    Keeps s s' t p action := by
  cases action with
  | addArena =>
    have ha : (s'.act .addArena).2 = (s.act .addArena).2 := by
      simp only [act, Workspace.addArena, h.size]
    exact keeps_of_eq (h.addArena hw hw') ha
  | alloc q r =>
    obtain ⟨ht, ha⟩ := h.alloc hw hw' q r
    exact keeps_of_eq ht (congrArg (Except.map Reply.handle) ha)
  | release q k =>
    obtain ⟨ht, ha⟩ := h.release hw hw' q k
    exact keeps_of_eq ht (congrArg (Except.map Reply.record) ha)
  | rekey q k key =>
    obtain ⟨ht, ha⟩ := h.rekey hw hw' q k key
    exact keeps_of_eq ht (congrArg (Except.map fun _ => Reply.done) ha)
  | setPayload q k payload =>
    obtain ⟨ht, ha⟩ := h.setPayload hw hw' q k payload
    exact keeps_of_eq ht (congrArg (Except.map Reply.payload) ha)
  | insert m u q k =>
    obtain rfl : u = t := hb
    exact keeps_insert h m q k hroom hroom'
  | lookup u q key =>
    obtain rfl : u = t := hb
    exact keeps_of_eq h (congrArg (Except.map Reply.found) (h.lookup q key))
  | lookupSame u q template same =>
    obtain ⟨rfl, hs⟩ := hb
    exact keeps_of_eq h (congrArg (Except.map Reply.found) (h.lookupSame q template hs))
  | remove u q key =>
    obtain rfl : u = t := hb
    obtain ⟨ht, ha⟩ := h.removeFirst q key (fun _ => true) fun _ => rfl
    exact keeps_of_eq ht (congrArg (Except.map Reply.found) ha)
  | removeSame u q template same =>
    obtain ⟨rfl, hs⟩ := hb
    obtain ⟨ht, ha⟩ := h.removeFirst q template.key (same template) (hs.right template)
    exact keeps_of_eq ht (congrArg (Except.map Reply.found) ha)
  | _ => cases hb

theorem created {acts : List (Action α)} {m : Allocator} {name : String} {policy : Policy}
    (hs : (run acts).act (.create m p name policy) = (s, .ok (.table t))) :
    (run acts).space.create m p name policy = (s.space, .ok t) := by
  rw [act] at hs
  have hanswer := congrArg Prod.snd hs
  have hspace := congrArg (·.1.space) hs
  obtain ⟨u, hu, he⟩ := after_ok hanswer
  cases he
  exact Prod.ext hspace hu

/-! ## Runs -/

variable {ops : List (Action α)}

def HasRoom (s : Session α) (ops : List (Action α)) : Prop :=
  ∀ name n, .error (.allocationFailed name n) ∉ s.answers ops

theorem hasRoom_of_all (hall : (s.answers ops).all fun
    | .error e => e.isContractViolation
    | .ok _ => true) : s.HasRoom ops := by
  intro name n hm
  cases List.all_eq_true.mp hall _ hm

/-- The operations leave twins at every point, and the answers are the same. -/
theorem run_keeps (h : Workspace.Twins s.space s'.space t p) (hw : s.space.Sound held)
    (hw' : s'.space.Sound held') (hb : ∀ op ∈ ops, op.Basic t) (hroom : s.HasRoom ops)
    (hroom' : s'.HasRoom ops) :
    (s'.answers ops).map (·.map Reply.silent) = (s.answers ops).map (·.map Reply.silent) ∧
      ∀ before, before <+: ops →
        Workspace.Twins (s.perform before).space (s'.perform before).space t p := by
  induction ops generalizing s s' held held' with
  | nil =>
    refine ⟨rfl, fun before hp => ?_⟩
    rw [List.prefix_nil.mp hp]
    exact h
  | cons op ops ih =>
    obtain ⟨hop, hops⟩ := List.forall_mem_cons.mp hb
    have hk := act_keeps h hw hw' hop
      (fun name n he => hroom name n (by rw [answers, he]; exact List.mem_cons_self))
      (fun name n he => hroom' name n (by rw [answers, he]; exact List.mem_cons_self))
    obtain ⟨hanswers, htwins⟩ := ih hk.twins (hw.step (act_change hw op))
      (hw'.step (act_change hw' op)) hops
      (fun name n hm => hroom name n (List.mem_cons_of_mem _ hm))
      (fun name n hm => hroom' name n (List.mem_cons_of_mem _ hm))
    constructor
    · rw [answers, answers, List.map_cons, List.map_cons, hk.answer, hanswers]
    · intro before hp
      rcases List.prefix_cons_iff.mp hp with rfl | ⟨rest, rfl, hrest⟩
      · exact h
      · exact htwins rest hrest

def keyOf? (s : Session α) (p : ArenaId) (h : Handle) : Option UInt64 :=
  (s.recordOf p h).map (·.key)

/-- What two sessions say in the same way of keys, payloads and marks, and of a table in both. The
snapshots list the same records, those of one key in the same order. -/
structure Agrees (s s' : Session α) (t : TableId) (p : ArenaId) : Prop where
  records : ∀ q h, (s'.recordOf q h).map Record.bare = (s.recordOf q h).map Record.bare
  count : ∃ table table', s.space.table? t = some table ∧ s'.space.table? t = some table' ∧
    table'.count = table.count
  snapshots : ∃ hs hs', s.Lists t p hs ∧ s'.Lists t p hs' ∧ hs'.Perm hs ∧ ∀ key,
    hs'.filter (s'.keyOf? p · = some key) = hs.filter (s.keyOf? p · = some key)
  census : ∀ same, Record.Overlooks same → ∃ c c',
    (s.act (.census t p same)).2 = .ok (.census c) ∧
    (s'.act (.census t p same)).2 = .ok (.census c') ∧
    c'.keys = c.keys ∧ c'.elements = c.elements

theorem hasKey_eq {table : Table} {a : Arena α} (hu : s.space.Uses t table a) (key : UInt64) :
    (fun h => decide (s.keyOf? table.arena h = some key)) = a.hasKey key := by
  funext h
  rw [keyOf?, recordOf_uses hu]
  cases hr : a.get? h with
  | none => simp [Arena.hasKey, Arena.label?, hr]
  | some r =>
    rw [Arena.hasKey_of_get? hr, Option.map_some, beq_eq_decide]
    simp only [Option.some_inj]

theorem agrees_of_twins (h : Workspace.Twins s.space s'.space t p) : Agrees s s' t p := by
  obtain ⟨table, table', a, a', cs, cs', hu, hu', hcs, hcs', rfl, hp', -, hstack⟩ := h.table
  have hlike := h.alike table.arena a a' hu.arenas (by rw [← hp']; exact hu'.arenas)
  have hperm := Table.perm_of_stack hcs hcs' hstack
  constructor
  · intro q k
    rw [recordOf, recordOf, Workspace.arena?, Workspace.arena?]
    exact h.bare? q k
  · refine ⟨table, table', hu.table?, hu'.table?, ?_⟩
    rw [hcs.count, hcs'.count, hperm.length_eq]
  · refine ⟨cs.flatten, cs'.flatten, lists_uses hu hcs, hp' ▸ lists_uses hu' hcs', hperm, ?_⟩
    intro key
    rw [hasKey_eq hu, ← hp', hasKey_eq hu']
    exact congrFun hstack key
  · intro same hs
    obtain ⟨c, c', hc, hc', hcounts⟩ := hcs.census_alike hcs' hlike hstack hs
    refine ⟨c, c', by rw [act_census hu, hc]; rfl, ?_, hcounts⟩
    rw [← hp', act_census hu', hc']
    rfl

/-- Two tables that are created with different policies over the same records, and then worked on
in the same way, answer in the same way and agree at every point, if memory never runs out. -/
theorem policy_has_no_effect (acts : List (Action α)) {m m' : Allocator} {name : String}
    {first second : Policy} (hs : (run acts).act (.create m p name first) = (s, .ok (.table t)))
    (hs' : (run acts).act (.create m' p name second) = (s', .ok (.table t)))
    (hb : ∀ op ∈ ops, op.Basic t) (hroom : s.HasRoom ops) (hroom' : s'.HasRoom ops) :
    (s'.answers ops).map (·.map Reply.silent) = (s.answers ops).map (·.map Reply.silent) ∧
      ∀ before, before <+: ops → Agrees (s.perform before) (s'.perform before) t p := by
  have hw := (run_sound acts).step (act_change (run_sound acts) (.create m p name first))
  have hw' := (run_sound acts).step (act_change (run_sound acts) (.create m' p name second))
  rw [hs] at hw
  rw [hs'] at hw'
  have htwins : Workspace.Twins s.space s'.space t p :=
    Workspace.twins_create (created hs) (created hs')
  obtain ⟨hanswers, hat⟩ := run_keeps htwins hw hw' hb hroom hroom'
  exact ⟨hanswers, fun before hp => agrees_of_twins (hat before hp)⟩

def exercise : List (Action Unit) :=
  [.alloc 0 (.detached 4 ()), .alloc 0 (.detached 6 ()), .alloc 0 (.detached 4 ()),
    .insert .ample 0 0 ⟨0, 1⟩, .insert .ample 0 0 ⟨1, 1⟩, .insert .ample 0 0 ⟨2, 1⟩,
    .lookup 0 0 4, .remove 0 0 4, .insert .ample 0 0 ⟨1, 1⟩]

/-- One table grows while it is worked on, the other has room from the start. -/
theorem exercise_agrees :
    let s : Session Unit := ((run [.addArena]).act (.create .ample 0 "t" ⟨[1, 2], 1⟩)).1
    let s' : Session Unit := ((run [.addArena]).act (.create .ample 0 "t" ⟨[4], 5⟩)).1
    (∀ op ∈ exercise, op.Basic 0) ∧ s.HasRoom exercise ∧ s'.HasRoom exercise ∧
      (s'.answers exercise).map (·.map Reply.silent) =
        (s.answers exercise).map (·.map Reply.silent) ∧
      Agrees (s.perform exercise) (s'.perform exercise) 0 0 := by
  intro s s'
  have hb : ∀ op ∈ exercise, op.Basic 0 := by simp [exercise, Action.Basic]
  have hroom : s.HasRoom exercise := hasRoom_of_all (by decide +kernel)
  have hroom' : s'.HasRoom exercise := hasRoom_of_all (by decide +kernel)
  have hs : (run [.addArena]).act (.create .ample 0 "t" ⟨[1, 2], 1⟩) = (s, .ok (.table 0)) := rfl
  have hs' : (run [.addArena]).act (.create .ample 0 "t" ⟨[4], 5⟩) = (s', .ok (.table 0)) := rfl
  obtain ⟨hanswers, hat⟩ := policy_has_no_effect [.addArena] hs hs' hb hroom hroom'
  exact ⟨hb, hroom, hroom', hanswers, hat exercise List.prefix_rfl⟩

end Session
end RecordIndex
