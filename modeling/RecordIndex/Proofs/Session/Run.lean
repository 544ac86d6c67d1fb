import Mathlib
import RecordIndex.Proofs.Workspace.Operations

/-! # Sessions

A session is a workspace together with the cursors its user keeps. The user acts on it in any order,
and every action is answered, be it with a failure. A run is what becomes of the empty session.
-/
namespace RecordIndex

structure Session (α : Type) where
  space : Workspace α
  cursors : Array Cursor

inductive Action (α : Type) where
  | addArena
  | alloc (p : ArenaId) (r : Record α)
  | release (p : ArenaId) (h : Handle)
  | rekey (p : ArenaId) (h : Handle) (key : UInt64)
  | setPayload (p : ArenaId) (h : Handle) (payload : α)
  | create (m : Allocator) (p : ArenaId) (name : String) (policy : Policy)
  | insert (m : Allocator) (t : TableId) (p : ArenaId) (h : Handle)
  | lookup (t : TableId) (p : ArenaId) (key : UInt64)
  | lookupSame (t : TableId) (p : ArenaId) (template : Record α)
      (same : Record α → Record α → Bool)
  | remove (t : TableId) (p : ArenaId) (key : UInt64)
  | removeSame (t : TableId) (p : ArenaId) (template : Record α)
      (same : Record α → Record α → Bool)
  | entries (t : TableId) (p : ArenaId)
  | handles (t : TableId) (p : ArenaId)
  | listing (t : TableId) (p : ArenaId)
  | census (t : TableId) (p : ArenaId) (same : Record α → Record α → Bool)
  | drop (t : TableId)
  | beginTeardown (t : TableId) (p : ArenaId)
  | takeNext (t : TableId)
  | cursor (t : TableId)
  | clone (c : Nat)
  | reset (c : Nat) (t : TableId)
  | advance (c : Nat) (t : TableId) (p : ArenaId)
  | removeCurrent (c : Nat) (t : TableId) (p : ArenaId)

inductive Reply (α : Type) where
  | done
  | arena (p : ArenaId)
  | table (t : TableId)
  | cursor (c : Nat)
  | handle (h : Handle)
  | found (h : Option Handle)
  | record (r : Record α)
  | payload (old : Option α)
  | events (events : List Event)
  | entries (entries : List (Entry α))
  | handles (hs : List Handle)
  | listing (l : Listing α)
  | census (c : Census)

namespace Session
variable {α β : Type}

def empty : Session α := ⟨.empty, #[]⟩

def after (s : Session α) (result : Workspace α × Except Failure β) (reply : β → Reply α) :
    Session α × Except Failure (Reply α) :=
  ({ s with space := result.1 }, result.2.map reply)

def read (s : Session α) (answer : Except Failure β) (reply : β → Reply α) :
    Session α × Except Failure (Reply α) :=
  (s, answer.map reply)

def keep (s : Session α) (cur : Cursor) : Session α × Except Failure (Reply α) :=
  ({ s with cursors := s.cursors.push cur }, .ok (.cursor s.cursors.size))

def setCursor (s : Session α) (c : Nat) (cur : Cursor) : Session α :=
  { s with cursors := s.cursors.setIfInBounds c cur }

def getCursor (s : Session α) (c : Nat) : Except Failure Cursor :=
  match s.cursors[c]? with
  | some cur => .ok cur
  | none => .error .unknownReference

def recordOf (s : Session α) (p : ArenaId) (h : Handle) : Option (Record α) :=
  (s.space.arena? p).bind (·.get? h)

def act (s : Session α) : Action α → Session α × Except Failure (Reply α)
  | .addArena => ({ s with space := s.space.addArena.1 }, .ok (.arena s.space.addArena.2))
  | .alloc p r => s.after (s.space.alloc p r) .handle
  | .release p h => s.after (s.space.release p h) .record
  | .rekey p h key => s.after (s.space.rekey p h key) fun _ => .done
  | .setPayload p h payload => s.after (s.space.setPayload p h payload) .payload
  | .create m p name policy => s.after (s.space.create m p name policy) .table
  | .insert m t p h =>
    let (w, events, answer) := s.space.insert m t p h
    s.after (w, answer) fun _ => .events events
  | .lookup t p key => s.read (s.space.lookup t p key) .found
  | .lookupSame t p template same => s.read (s.space.lookupSame t p template same) .found
  | .remove t p key => s.after (s.space.remove t p key) .found
  | .removeSame t p template same => s.after (s.space.removeSame t p template same) .found
  | .entries t p => s.read (s.space.entries t p) .entries
  | .handles t p => s.read (s.space.handles t p) .handles
  | .listing t p => s.read (s.space.listing t p) .listing
  | .census t p same => s.read (s.space.census t p same) .census
  | .drop t => ({ s with space := s.space.drop t }, .ok .done)
  | .beginTeardown t p => s.after (s.space.beginTeardown t p) fun _ => .done
  | .takeNext t => s.after (s.space.takeNext t) .found
  | .cursor t =>
    match s.space.cursor t with
    | .ok cur => s.keep cur
    | .error e => (s, .error e)
  | .clone c =>
    match s.getCursor c with
    | .ok cur => s.keep cur
    | .error e => (s, .error e)
  | .reset c t =>
    match s.getCursor c, s.space.cursor t with
    | .ok _, .ok cur => (s.setCursor c cur, .ok .done)
    | .ok _, .error e => (s, .error e)
    | .error e, _ => (s, .error e)
  | .advance c t p =>
    match s.getCursor c with
    | .error e => (s, .error e)
    | .ok cur =>
      match s.space.advance cur t p with
      | .ok (cur, found) => (s.setCursor c cur, .ok (.found found))
      | .error e => (s, .error e)
  | .removeCurrent c t p =>
    match s.getCursor c with
    | .error e => (s, .error e)
    | .ok cur =>
      match s.space.removeCurrent cur t p with
      | (w, .ok (cur, h)) => ({ s with space := w }.setCursor c cur, .ok (.handle h))
      | (w, .error e) => ({ s with space := w }, .error e)

/-- The events that an action emits, be it refused or not. Only an insertion has any. -/
def emits (s : Session α) : Action α → List Event
  | .insert m t p h => (s.space.insert m t p h).2.1
  | _ => []

/-- A cursor that is kept steps as it does in the workspace. -/
theorem act_advance_eq {s : Session α} {c : Nat} {cur : Cursor} (hc : s.cursors[c]? = some cur)
    (t : TableId) (p : ArenaId) : s.act (.advance c t p) =
      match s.space.advance cur t p with
      | .ok (cur, found) => (s.setCursor c cur, .ok (.found found))
      | .error e => (s, .error e) := by
  have hget : s.getCursor c = .ok cur := by rw [getCursor, hc]
  simp only [act, hget]

theorem act_removeCurrent_eq {s : Session α} {c : Nat} {cur : Cursor}
    (hc : s.cursors[c]? = some cur) (t : TableId) (p : ArenaId) : s.act (.removeCurrent c t p) =
      match s.space.removeCurrent cur t p with
      | (w, .ok (cur, h)) => ({ s with space := w }.setCursor c cur, .ok (.handle h))
      | (w, .error e) => ({ s with space := w }, .error e) := by
  have hget : s.getCursor c = .ok cur := by rw [getCursor, hc]
  simp only [act, hget]

/-! ## Runs -/

def perform (s : Session α) (acts : List (Action α)) : Session α :=
  acts.foldl (fun s action => (s.act action).1) s

def run (acts : List (Action α)) : Session α := empty.perform acts

/-- What an observer of a run has noted down at its end. Each action is noted in the session in
which it is taken. -/
def track {σ : Type} (note : Session α → Action α → σ → σ) (s : Session α) (x : σ)
    (acts : List (Action α)) : σ :=
  (acts.foldl (fun (s, x) action => ((s.act action).1, note s action x)) (s, x)).2

theorem perform_cons (s : Session α) (action : Action α) (acts : List (Action α)) :
    s.perform (action :: acts) = (s.act action).1.perform acts := rfl

theorem perform_append (s : Session α) (acts more : List (Action α)) :
    s.perform (acts ++ more) = (s.perform acts).perform more := List.foldl_append

@[simp] theorem perform_concat (s : Session α) (acts : List (Action α)) (action : Action α) :
    s.perform (acts ++ [action]) = ((s.perform acts).act action).1 := by
  rw [perform_append]
  rfl

@[simp] theorem run_nil : run ([] : List (Action α)) = empty := rfl

@[simp] theorem run_concat (acts : List (Action α)) (action : Action α) :
    run (acts ++ [action]) = ((run acts).act action).1 := perform_concat ..

@[simp] theorem track_concat {σ : Type} (note : Session α → Action α → σ → σ) (s : Session α)
    (x : σ) (acts : List (Action α)) (action : Action α) :
    track note s x (acts ++ [action]) = note (s.perform acts) action (track note s x acts) := by
  -- the fold carries along the session as it is performed
  have hfst : (acts.foldl (fun (s, x) action => ((s.act action).1, note s action x)) (s, x)).1 =
      s.perform acts := by
    induction acts generalizing s x with
    | nil => rfl
    | cons first acts ih => exact ih _ _
  rw [track, List.foldl_append, ← hfst]
  rfl

/-! ## Deeds -/

def deed : Action α → Except Failure (Reply α) → Deed
  | .create _ p _ _, .ok (.table t) => .opened t p
  | .insert _ t _ h, .ok (.events events) => .inserted t h events
  | .remove t _ _, .ok (.found (some h)) => .unlinked t h
  | .removeSame t _ _ _, .ok (.found (some h)) => .unlinked t h
  | .removeCurrent _ t _, .ok (.handle h) => .unlinked t h
  | .drop t, _ => .ended t
  | .beginTeardown t _, .ok _ => .closed t
  | .beginTeardown t _, .error _ => .ended t
  | .takeNext t, .ok (.found (some h)) => .taken t h
  | .takeNext t, .ok (.found none) => .ended t
  | _, _ => .nothing

def does (s : Session α) (action : Action α) : Deed := deed action (s.act action).2

/-- The records the tables hold after a run: those inserted and neither unlinked nor taken out
since. -/
def holdings (acts : List (Action α)) : Holdings :=
  track (fun s action held => (s.does action).account held) empty (fun _ => ⟨0, []⟩) acts

def tally (measure : Deed → Nat) (acts : List (Action α)) : Nat :=
  track (fun s action n => n + measure (s.does action)) empty 0 acts

@[simp] theorem holdings_concat (acts : List (Action α)) (action : Action α) :
    holdings (acts ++ [action]) = ((run acts).does action).account (holdings acts) :=
  track_concat ..

@[simp] theorem tally_concat (measure : Deed → Nat) (acts : List (Action α)) (action : Action α) :
    tally measure (acts ++ [action]) = tally measure acts + measure ((run acts).does action) :=
  track_concat ..

def sample : List (Action Unit) :=
  [.addArena, .create .ample 0 "t" ⟨[1, 2], 1⟩, .alloc 0 (.detached 4 ()),
    .alloc 0 (.detached 6 ()), .alloc 0 (.detached 4 ()), .insert .ample 0 0 ⟨0, 1⟩,
    .insert .ample 0 0 ⟨1, 1⟩, .insert .ample 0 0 ⟨2, 1⟩, .cursor 0]

def sampleTable : Table := ⟨0, 0, "t", ⟨[1, 2], 1⟩, #[some ⟨2, 1⟩, none], 3, 4, true⟩

end Session
end RecordIndex
