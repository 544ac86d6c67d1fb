import Mathlib
import RecordIndex.Proofs.Session.Run
import RecordIndex.Proofs.Workspace.Payloads

/-! # Payloads have no say

Sessions that differ in the payloads of their records only answer every action in the same way, but
for the payloads in the answer, and are led to sessions that again differ in payloads only. Actions
that compare payloads are left out.
-/
namespace RecordIndex
variable {α β γ δ σ : Type} {f : α → β}

/-! ## Other payloads -/

/-- The action with other payloads. In place of a comparator, which may look at payloads, there is
the one that holds of any two records. -/
def Action.map (f : α → β) : Action α → Action β
  | .addArena => .addArena
  | .alloc p r => .alloc p (r.map f)
  | .release p h => .release p h
  | .rekey p h key => .rekey p h key
  | .setPayload p h payload => .setPayload p h (f payload)
  | .create m p name policy => .create m p name policy
  | .insert m t p h => .insert m t p h
  | .lookup t p key => .lookup t p key
  | .lookupSame t p template _ => .lookupSame t p (template.map f) fun _ _ => true
  | .remove t p key => .remove t p key
  | .removeSame t p template _ => .removeSame t p (template.map f) fun _ _ => true
  | .entries t p => .entries t p
  | .handles t p => .handles t p
  | .listing t p => .listing t p
  | .census t p _ => .census t p fun _ _ => true
  | .drop t => .drop t
  | .beginTeardown t p => .beginTeardown t p
  | .takeNext t => .takeNext t
  | .cursor t => .cursor t
  | .clone c => .clone c
  | .reset c t => .reset c t
  | .advance c t p => .advance c t p
  | .removeCurrent c t p => .removeCurrent c t p

/-- The action compares no payloads. A census without a comparator takes any two records of one key
for the same. -/
def Action.KeyOnly : Action α → Prop
  | .lookupSame .. | .removeSame .. => False
  | .census _ _ same => same = fun _ _ => true
  | _ => True

def Reply.map (f : α → β) : Reply α → Reply β
  | .done => .done
  | .arena p => .arena p
  | .table t => .table t
  | .cursor c => .cursor c
  | .handle h => .handle h
  | .found h => .found h
  | .record r => .record (r.map f)
  | .payload old => .payload (old.map f)
  | .events log => .events log
  | .entries es => .entries (es.map (Entry.map f))
  | .handles hs => .handles hs
  | .listing l => .listing (l.map f)
  | .census c => .census c

namespace Session

def map (f : α → β) (s : Session α) : Session β := ⟨s.space.map f, s.cursors⟩

@[simp] theorem map_empty : (empty : Session α).map f = empty := by
  simp [map, empty, Workspace.map, Workspace.empty]

@[simp] theorem space_map (s : Session α) : (s.map f).space = s.space.map f := rfl

def mapResult (f : α → β) (x : Session α × Except Failure (Reply α)) :
    Session β × Except Failure (Reply β) :=
  (x.1.map f, x.2.map (Reply.map f))

section
variable {reply : γ → Reply α} {reply' : δ → Reply β} {n : Except Failure γ → Except Failure δ}

/-- An answer is translated by `n`, which leaves failures as they are, as its reply is by `f`. -/
theorem map_answer (hn : ∀ e, n (.error e) = .error e)
    (hok : ∀ x, (n (.ok x)).map reply' = .ok ((reply x).map f)) (answer : Except Failure γ) :
    (n answer).map reply' = (answer.map reply).map (Reply.map f) := by
  cases answer with
  | error e =>
    rw [hn]
    rfl
  | ok x => exact hok x

theorem after_map (s : Session α) {result : Workspace α × Except Failure γ}
    {result' : Workspace β × Except Failure δ} (hr : result' = (result.1.map f, n result.2))
    (hn : ∀ e, n (.error e) = .error e)
    (hok : ∀ x, (n (.ok x)).map reply' = .ok ((reply x).map f)) :
    (s.map f).after result' reply' = mapResult f (s.after result reply) := by
  subst hr
  exact Prod.ext rfl (map_answer hn hok _)

theorem read_map (s : Session α) {answer : Except Failure γ} {answer' : Except Failure δ}
    (hr : answer' = n answer) (hn : ∀ e, n (.error e) = .error e)
    (hok : ∀ x, (n (.ok x)).map reply' = .ok ((reply x).map f)) :
    (s.map f).read answer' reply' = mapResult f (s.read answer reply) := by
  subst hr
  exact Prod.ext rfl (map_answer hn hok _)

end

theorem getCursor_map (s : Session α) (c : Nat) : (s.map f).getCursor c = s.getCursor c := rfl

/-- An action that compares no payloads can be taken over other payloads. -/
theorem act_map (s : Session α) {action : Action α} (hk : action.KeyOnly) :
    (s.map f).act (action.map f) = mapResult f (s.act action) := by
  cases action with
  | addArena =>
    simp only [act, Action.map, space_map, Workspace.addArena_map]
    rfl
  | alloc p r =>
    exact after_map (n := fun answer => answer) s (s.space.alloc_map p r) (fun _ => rfl)
      fun _ => rfl
  | release p h =>
    exact after_map (n := Except.map (Record.map f)) s (s.space.release_map p h) (fun _ => rfl)
      fun _ => rfl
  | rekey p h key =>
    exact after_map (n := fun answer => answer) s (s.space.rekey_map p h key) (fun _ => rfl)
      fun _ => rfl
  | setPayload p h payload =>
    exact after_map (n := Except.map (Option.map f)) s (s.space.setPayload_map p h payload)
      (fun _ => rfl) fun _ => rfl
  | create m p name policy =>
    exact after_map (n := fun answer => answer) s (s.space.create_map m p name policy)
      (fun _ => rfl) fun _ => rfl
  | insert m t p h =>
    simp only [act, Action.map, space_map, s.space.insert_map m t p h]
    exact after_map (n := fun answer => answer) s rfl (fun _ => rfl) fun _ => rfl
  | lookup t p key =>
    exact read_map (n := fun answer => answer) s (s.space.lookup_map t p key) (fun _ => rfl)
      fun _ => rfl
  | remove t p key =>
    exact after_map (n := fun answer => answer) s (s.space.remove_map t p key) (fun _ => rfl)
      fun _ => rfl
  | lookupSame | removeSame => cases hk
  | entries t p =>
    exact read_map (n := Except.map (List.map (Entry.map f))) s (s.space.entries_map t p)
      (fun _ => rfl) fun _ => rfl
  | handles t p =>
    exact read_map (n := fun answer => answer) s (s.space.handles_map t p) (fun _ => rfl)
      fun _ => rfl
  | listing t p =>
    exact read_map (n := Except.map (Listing.map f)) s (s.space.listing_map t p) (fun _ => rfl)
      fun _ => rfl
  | census t p same =>
    have hcensus : (s.space.map f).census t p (fun _ _ => true) = s.space.census t p same :=
      s.space.census_map (fun _ _ => by rw [hk]) t p
    exact read_map (n := fun answer => answer) s hcensus (fun _ => rfl) fun _ => rfl
  | drop t => rfl
  | beginTeardown t p =>
    exact after_map (n := fun answer => answer) s (s.space.beginTeardown_map t p) (fun _ => rfl)
      fun _ => rfl
  | takeNext t =>
    exact after_map (n := fun answer => answer) s (s.space.takeNext_map t) (fun _ => rfl)
      fun _ => rfl
  | cursor t =>
    simp only [act, Action.map, space_map, Workspace.cursor_map]
    cases s.space.cursor t <;> rfl
  | clone c =>
    simp only [act, Action.map, getCursor_map]
    cases s.getCursor c <;> rfl
  | reset c t =>
    simp only [act, Action.map, getCursor_map, space_map, Workspace.cursor_map]
    cases s.getCursor c with
    | error e => rfl
    | ok cur => cases s.space.cursor t <;> rfl
  | advance c t p =>
    simp only [act, Action.map, getCursor_map]
    cases s.getCursor c with
    | error e => rfl
    | ok cur =>
      simp only [space_map, Workspace.advance_map]
      cases s.space.advance cur t p <;> rfl
  | removeCurrent c t p =>
    simp only [act, Action.map, getCursor_map]
    cases s.getCursor c with
    | error e => rfl
    | ok cur =>
      simp only [space_map, Workspace.removeCurrent_map]
      obtain ⟨w, answer⟩ := s.space.removeCurrent cur t p
      cases answer <;> rfl

end Session

/-! ## Sessions that differ in payloads only -/

def Session.blank (s : Session α) : Session Unit := s.map fun _ => ()

def Action.blank (action : Action α) : Action Unit := action.map fun _ => ()

def Reply.blank (reply : Reply α) : Reply Unit := reply.map fun _ => ()

def Listing.blank (l : Listing α) : Listing Unit := l.map fun _ => ()

structure Action.Resembles (action : Action α) (action' : Action β) : Prop where
  left : action.KeyOnly
  right : action'.KeyOnly
  blank : action'.blank = action.blank

namespace Session

def Resembles (s : Session α) (s' : Session β) : Prop := s'.blank = s.blank

variable {s : Session α} {s' : Session β}

theorem act_resembles (h : s.Resembles s') {action : Action α} {action' : Action β}
    (ha : action.Resembles action') :
    (s.act action).1.Resembles (s'.act action').1 ∧
      (s'.act action').2.map Reply.blank = (s.act action).2.map Reply.blank := by
  have hact := act_map (f := fun _ => ()) s ha.left
  have hact' := act_map (f := fun _ => ()) s' ha.right
  have hsame : mapResult (fun _ => ()) (s'.act action') = mapResult (fun _ => ()) (s.act action) :=
    calc mapResult (fun _ => ()) (s'.act action') = s'.blank.act action'.blank := hact'.symm
      _ = s.blank.act action.blank := by rw [h, ha.blank]
      _ = mapResult (fun _ => ()) (s.act action) := hact
  exact Prod.mk.inj hsame

/-! ## Teardowns -/

/-- What is done to the session with a record that is handed over, and whether there are to be
more. The state is passed on from one record to the next. -/
abbrev Undertaker (α σ : Type) := Session α → σ → Handle → Session α × ForInStep σ

def handing (dispose : Undertaker α σ) (w : Workspace α) (x : Array Cursor × σ) (h : Handle) :
    Workspace α × ForInStep (Array Cursor × σ) :=
  match dispose ⟨w, x.1⟩ x.2 h with
  | (s, .yield y) => (s.space, .yield (s.cursors, y))
  | (s, .done y) => (s.space, .done (s.cursors, y))

def dismantleWith (s : Session α) (t : TableId) (p : ArenaId) (dispose : Undertaker α σ) (x : σ) :
    Session α × Except Failure σ :=
  match s.space.dismantle t p (handing dispose) (s.cursors, x) with
  | (w, .ok (cursors, y)) => (⟨w, cursors⟩, .ok y)
  | (w, .error e) => ({ s with space := w }, .error e)

def Undertaker.Blind (dispose : Undertaker α σ) (dispose' : Undertaker β σ) : Prop :=
  ∀ (s : Session α) (s' : Session β) x h, s.Resembles s' →
    (dispose s x h).1.Resembles (dispose' s' x h).1 ∧ (dispose' s' x h).2 = (dispose s x h).2

variable {dispose : Undertaker α σ} {dispose' : Undertaker β σ}

theorem resembles_iff :
    s.Resembles s' ↔ s'.space.blank = s.space.blank ∧ s'.cursors = s.cursors := by
  rw [Resembles, blank, blank, map, map, mk.injEq]
  exact Iff.rfl

theorem Undertaker.Blind.handing (hd : dispose.Blind dispose') :
    Workspace.Blind (handing dispose) (handing dispose') := by
  intro w w' x h hw
  have hdone := hd ⟨w, x.1⟩ ⟨w', x.1⟩ x.2 h (resembles_iff.mpr ⟨hw, rfl⟩)
  unfold Session.handing
  generalize dispose ⟨w, x.1⟩ x.2 h = disposed at hdone ⊢
  generalize dispose' ⟨w', x.1⟩ x.2 h = disposed' at hdone ⊢
  obtain ⟨u, step⟩ := disposed
  obtain ⟨u', step'⟩ := disposed'
  obtain ⟨hu, rfl⟩ : u.Resembles u' ∧ step' = step := hdone
  obtain ⟨hspace, hcursors⟩ := resembles_iff.mp hu
  cases step' <;> exact ⟨hspace, by simp only [hcursors]⟩

theorem dismantleWith_resembles (h : s.Resembles s') (hd : dispose.Blind dispose') (t : TableId)
    (p : ArenaId) (x : σ) :
    (s.dismantleWith t p dispose x).1.Resembles (s'.dismantleWith t p dispose' x).1 ∧
      (s'.dismantleWith t p dispose' x).2 = (s.dismantleWith t p dispose x).2 := by
  obtain ⟨hspace, hcursors⟩ := resembles_iff.mp h
  have hdone := Workspace.dismantle_blank hd.handing hspace t p (s.cursors, x)
  unfold dismantleWith
  rw [hcursors]
  generalize s.space.dismantle t p (handing dispose) (s.cursors, x) = dismantled at hdone ⊢
  generalize s'.space.dismantle t p (handing dispose') (s.cursors, x) = dismantled' at hdone ⊢
  obtain ⟨w, answer⟩ := dismantled
  obtain ⟨w', answer'⟩ := dismantled'
  obtain ⟨hw, rfl⟩ : w'.blank = w.blank ∧ answer' = answer := hdone
  cases answer' with
  | error e => exact ⟨resembles_iff.mpr ⟨hw, rfl⟩, rfl⟩
  | ok y => exact ⟨resembles_iff.mpr ⟨hw, rfl⟩, rfl⟩

end Session

/-! ## Runs -/

inductive Move (α σ : Type) where
  | act (action : Action α)
  | dismantle (t : TableId) (p : ArenaId) (dispose : Session.Undertaker α σ) (x : σ)

inductive Move.Resembles : Move α σ → Move β σ → Prop where
  | act {action : Action α} {action' : Action β} (h : action.Resembles action') :
      Resembles (.act action) (.act action')
  | dismantle (t : TableId) (p : ArenaId) {dispose : Session.Undertaker α σ}
      {dispose' : Session.Undertaker β σ} (h : dispose.Blind dispose') (x : σ) :
      Resembles (.dismantle t p dispose x) (.dismantle t p dispose' x)

inductive Outcome (α σ : Type) where
  | replied (reply : Reply α)
  | disposed (x : σ)

def Outcome.blank : Outcome α σ → Outcome Unit σ
  | .replied reply => .replied reply.blank
  | .disposed x => .disposed x

namespace Session

def make (s : Session α) : Move α σ → Session α × Except Failure (Outcome α σ)
  | .act action => ((s.act action).1, (s.act action).2.map .replied)
  | .dismantle t p dispose x =>
    ((s.dismantleWith t p dispose x).1, (s.dismantleWith t p dispose x).2.map .disposed)

def play (s : Session α) : List (Move α σ) → Session α × List (Except Failure (Outcome α σ))
  | [] => (s, [])
  | move :: moves =>
    let (s', outcomes) := (s.make move).1.play moves
    (s', (s.make move).2 :: outcomes)

variable {s : Session α} {s' : Session β}

theorem make_resembles (h : s.Resembles s') {move : Move α σ} {move' : Move β σ}
    (hm : move.Resembles move') :
    (s.make move).1.Resembles (s'.make move').1 ∧
      (s'.make move').2.map Outcome.blank = (s.make move).2.map Outcome.blank := by
  cases hm with
  | act ha =>
    obtain ⟨hs, hanswer⟩ := act_resembles h ha
    have hreplied : ∀ {γ : Type} (answer : Except Failure (Reply γ)),
        (answer.map Outcome.replied).map Outcome.blank =
          (answer.map Reply.blank).map (Outcome.replied (σ := σ)) := by
      intro γ answer
      cases answer <;> rfl
    refine ⟨hs, ?_⟩
    simp only [make, hreplied, hanswer]
  | dismantle t p hd x =>
    obtain ⟨hs, hanswer⟩ := dismantleWith_resembles h hd t p x
    have hdisposed : ∀ {γ : Type} (answer : Except Failure σ),
        (answer.map (Outcome.disposed (α := γ))).map Outcome.blank = answer.map .disposed := by
      intro γ answer
      cases answer <;> rfl
    refine ⟨hs, ?_⟩
    simp only [make, hdisposed, hanswer]

theorem play_resembles (h : s.Resembles s') {moves : List (Move α σ)} {moves' : List (Move β σ)}
    (hm : List.Forall₂ Move.Resembles moves moves') :
    (s.play moves).1.Resembles (s'.play moves').1 ∧
      (s'.play moves').2.map (·.map Outcome.blank) =
        (s.play moves).2.map (·.map Outcome.blank) := by
  induction hm generalizing s s' with
  | nil => exact ⟨h, rfl⟩
  | cons hmove _ ih =>
    obtain ⟨hs, houtcome⟩ := make_resembles h hmove
    obtain ⟨hlast, houtcomes⟩ := ih hs
    refine ⟨hlast, ?_⟩
    simp only [play, List.map_cons, houtcome, houtcomes]

def chain? (s : Session α) (p : ArenaId) (head : Option Handle) : Option (List Handle) :=
  (s.space.arena? p).bind fun a => (a.chain? head).map (List.map Prod.fst)

theorem chain?_map (s : Session α) (p : ArenaId) (head : Option Handle) :
    (s.map f).chain? p head = s.chain? p head := by
  rw [chain?, chain?, space_map, Workspace.arena?_map]
  cases s.space.arena? p with
  | none => rfl
  | some a =>
    rw [Option.map_some, Option.bind_some, Option.bind_some, Arena.chain?_map, Option.map_map]
    congr 1
    funext es
    simp

theorem Resembles.chain? (h : s.Resembles s') (p : ArenaId) (head : Option Handle) :
    s'.chain? p head = s.chain? p head :=
  calc s'.chain? p head = s'.blank.chain? p head := (s'.chain?_map p head).symm
    _ = s.blank.chain? p head := by rw [h]
    _ = s.chain? p head := s.chain?_map p head

theorem setPayload_resembles (s : Session α) (p : ArenaId) (h : Handle) (payload : α) :
    let s' := (s.act (.setPayload p h payload)).1
    s.Resembles s' ∧ s'.space.tables = s.space.tables ∧ s'.cursors = s.cursors := by
  obtain ⟨hspace, htables⟩ := s.space.map_setPayload (f := fun _ => ()) (fun _ _ => rfl) p h payload
  exact ⟨resembles_iff.mpr ⟨hspace, rfl⟩, htables, rfl⟩

theorem draw_resembles {l : Listing α} {l' : Listing β} (h : l'.blank = l.blank) (n : Nat) :
    (l'.draw n).map (fun (es, l) => (es.map (Entry.map fun _ => ()), l.blank)) =
      (l.draw n).map fun (es, l) => (es.map (Entry.map fun _ => ()), l.blank) :=
  calc _ = l'.blank.draw n := (l'.draw_map n).symm
    _ = l.blank.draw n := by rw [h]
    _ = _ := l.draw_map n

/-- In sessions that differ in payloads only the same moves come to the same, and lead to sessions
that differ in payloads only. Listings that do are drawn from alike. Overwriting a payload changes
neither tables, cursors nor chains. -/
theorem payloads_have_no_effect (h : s.Resembles s') {moves : List (Move α σ)}
    {moves' : List (Move β σ)} (hm : List.Forall₂ Move.Resembles moves moves') :
    (s.play moves).1.Resembles (s'.play moves').1 ∧
      (s'.play moves').2.map (·.map Outcome.blank) =
        (s.play moves).2.map (·.map Outcome.blank) ∧
      (∀ (l : Listing α) (l' : Listing β), l'.blank = l.blank → l'.remaining = l.remaining ∧ ∀ n,
        (l'.draw n).map (fun (es, l) => (es.map (Entry.map fun _ => ()), l.blank)) =
          (l.draw n).map fun (es, l) => (es.map (Entry.map fun _ => ()), l.blank)) ∧
      ∀ p k payload,
        let after := (s.act (.setPayload p k payload)).1
        s.Resembles after ∧ after.space.tables = s.space.tables ∧ after.cursors = s.cursors ∧
          ∀ q head, after.chain? q head = s.chain? q head := by
  obtain ⟨hlast, houtcomes⟩ := play_resembles h hm
  refine ⟨hlast, houtcomes, fun l l' hl => ⟨congrArg Listing.remaining hl, draw_resembles hl⟩, ?_⟩
  intro p k payload after
  obtain ⟨hs, htables, hcursors⟩ := s.setPayload_resembles p k payload
  exact ⟨hs, htables, hcursors, hs.chain?⟩

def releaseAll : Undertaker α Nat := fun s n h => ((s.act (.release 0 h)).1, .yield (n + 1))

theorem releaseAll_blind : (releaseAll (α := α)).Blind (releaseAll (α := β)) := by
  intro s s' n h hs
  have ha : (Action.release 0 h : Action α).Resembles (Action.release 0 h : Action β) :=
    ⟨trivial, trivial, rfl⟩
  exact ⟨(act_resembles hs ha).1, rfl⟩

def trial (first second third : α) : List (Move α Nat) :=
  [.act .addArena, .act (.create .ample 0 "t" ⟨[1, 2], 1⟩),
    .act (.alloc 0 (.detached 4 first)), .act (.alloc 0 (.detached 6 second)),
    .act (.insert .ample 0 0 ⟨0, 1⟩), .act (.insert .ample 0 0 ⟨1, 1⟩),
    .act (.setPayload 0 ⟨0, 1⟩ third), .act (.lookup 0 0 4), .dismantle 0 0 releaseAll 0]

theorem trial_resembles :
    ((empty : Session Nat).play (trial 1 2 3)).1.Resembles
        ((empty : Session String).play (trial "a" "b" "a")).1 ∧
      ((empty : Session String).play (trial "a" "b" "a")).2.map (·.map Outcome.blank) =
        ((empty : Session Nat).play (trial 1 2 3)).2.map (·.map Outcome.blank) := by
  have hempty : (empty : Session Nat).Resembles (empty : Session String) :=
    map_empty.trans map_empty.symm
  have hacts : ∀ {action : Action Nat} {action' : Action String}, action.KeyOnly →
      action'.KeyOnly → action'.blank = action.blank →
      Move.Resembles (σ := Nat) (.act action) (.act action') :=
    fun hk hk' hb => .act ⟨hk, hk', hb⟩
  have hm : List.Forall₂ Move.Resembles (trial 1 2 3) (trial "a" "b" "a") := by
    repeat' apply List.Forall₂.cons
    all_goals first
      | exact hacts trivial trivial rfl
      | exact .dismantle 0 0 releaseAll_blind 0
      | exact .nil
  obtain ⟨hlast, houtcomes, -⟩ := payloads_have_no_effect hempty hm
  exact ⟨hlast, houtcomes⟩

end Session
end RecordIndex
