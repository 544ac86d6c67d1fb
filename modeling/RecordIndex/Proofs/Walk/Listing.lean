import Mathlib
import RecordIndex.Proofs.Walk.Place
import RecordIndex.Walk.Listing

/-! # What a listing has still to yield

A listing stands between the records of its table just as a cursor does, and it counts those still
to come. It yields them one by one, and then nothing any more.
-/
namespace RecordIndex.Listing
variable {α : Type} {l : Listing α} {cs : Chains} {passed rest : List Handle}

def place (l : Listing α) : Place := l.last.elim .start (.on · l.resume)

structure Ahead (l : Listing α) (cs : Chains) (passed rest : List Handle) : Prop where
  threads : l.buckets.Threads l.arena cs
  splits : l.place.Splits cs passed rest
  start : l.last = none → l.resume = 0
  remaining : l.remaining = rest.length

theorem ahead_of {t : Table} {a : Arena α} (ht : t.Indexes a cs) :
    (Listing.of t a).Ahead cs [] cs.flatten :=
  ⟨ht.threads, ⟨rfl, rfl⟩, fun _ => rfl, ht.count⟩

theorem Ahead.onward (hl : l.Ahead cs passed rest) :
    ∃ link, l.successor = .ok link ∧ Onward cs link l.resume passed rest := by
  have hs := hl.splits
  unfold place at hs
  unfold successor
  cases hlast : l.last with
  | none =>
    rw [hlast] at hs
    obtain ⟨rfl, rfl⟩ := hs
    rw [hl.start hlast]
    exact ⟨none, rfl, .between 0⟩
  | some h =>
    rw [hlast] at hs
    obtain ⟨r, hr, ho⟩ := hs.onward hl.threads
    exact ⟨r.next, by simp only [hr], ho⟩

/-- The count of a listing never runs out before the records do. -/
theorem Ahead.next? (hl : l.Ahead cs passed rest) :
    (l.next? = .ok none ∧ rest = []) ∨
      ∃ h r rest' l', rest = h :: rest' ∧ l.arena.get? h = some r ∧
        l.next? = .ok (some ((h, r), l')) ∧ l'.arena = l.arena ∧
        l'.Ahead cs (passed ++ [h]) rest' := by
  obtain ⟨link, hlink, ho⟩ := hl.onward
  rcases ho.step? hl.threads with ⟨hstep, rfl⟩ | ⟨h, resume, rest', hstep, rfl, hon⟩
  · exact Or.inl ⟨by simp only [Listing.next?, hlink, bind, Except.bind, hstep]; rfl, rfl⟩
  · have hmem : h ∈ cs.flatten := by
      rw [← ho.append]
      simp
    obtain ⟨r, hr⟩ := hl.threads.live h hmem
    have hcount : l.remaining = rest'.length + 1 := hl.remaining
    refine Or.inr ⟨h, r, rest', { l with last := some h, resume, remaining := rest'.length }, rfl,
      hr, ?_, rfl, hl.threads, hon, nofun, rfl⟩
    simp only [Listing.next?, hlink, bind, Except.bind, hstep, hr, hcount]
    rfl

def draw (l : Listing α) : Nat → Except Failure (List (Entry α) × Listing α)
  | 0 => .ok ([], l)
  | n + 1 =>
    match l.next? with
    | .error e => .error e
    | .ok none => .ok ([], l)
    | .ok (some (e, l)) => (l.draw n).map fun (es, l) => (e :: es, l)

theorem Ahead.draw (hl : l.Ahead cs passed rest) (n : Nat) :
    ∃ l', l.draw n = .ok (l.arena.read (rest.take n), l') ∧
      l'.Ahead cs (passed ++ rest.take n) (rest.drop n) := by
  induction n generalizing l passed rest with
  | zero => exact ⟨l, rfl, by simpa using hl⟩
  | succ n ih =>
    rcases hl.next? with ⟨hnext, rfl⟩ | ⟨h, r, rest', l', rfl, hr, hnext, ha, hl'⟩
    · exact ⟨l, by rw [Listing.draw, hnext]; rfl, by simpa using hl⟩
    · obtain ⟨l'', hdraw, hl''⟩ := ih hl'
      refine ⟨l'', ?_, by simpa using hl''⟩
      rw [Listing.draw, hnext, List.take_succ_cons, Arena.read_cons hr, ← ha]
      simp only [hdraw, Except.map]

/-! ## Call by call -/

/-- What one call yields, and what the listing is then. A listing with nothing to yield stays as it
is, so it can be called for ever. -/
def pull (l : Listing α) : Except Failure (Option (Entry α) × Listing α) :=
  match l.next? with
  | .error e => .error e
  | .ok none => .ok (none, l)
  | .ok (some (e, l)) => .ok (some e, l)

def after (l : Listing α) : Nat → Except Failure (Listing α)
  | 0 => .ok l
  | n + 1 =>
    match l.after n with
    | .error e => .error e
    | .ok l => l.pull.map (·.2)

theorem Ahead.pull (hl : l.Ahead cs passed rest) :
    ∃ l', l.pull = .ok ((l.arena.read rest).head?, l') ∧ l'.arena = l.arena ∧
      l'.Ahead cs (passed ++ rest.take 1) (rest.drop 1) ∧ (rest = [] → l' = l) := by
  rcases hl.next? with ⟨hnext, rfl⟩ | ⟨h, r, rest', l', rfl, hr, hnext, ha, hl'⟩
  · exact ⟨l, by rw [Listing.pull, hnext]; rfl, rfl, by simpa using hl, fun _ => rfl⟩
  · refine ⟨l', ?_, ha, by simpa using hl', nofun⟩
    rw [Listing.pull, hnext, Arena.read_cons hr, List.head?_cons]

theorem Ahead.after (hl : l.Ahead cs passed rest) (n : Nat) :
    ∃ l', l.after n = .ok l' ∧ l'.arena = l.arena ∧
      l'.Ahead cs (passed ++ rest.take n) (rest.drop n) := by
  induction n with
  | zero => exact ⟨l, rfl, rfl, by simpa using hl⟩
  | succ n ih =>
    obtain ⟨l', hafter, ha, hl'⟩ := ih
    obtain ⟨l'', hpull, ha', hl'', -⟩ := hl'.pull
    rw [List.append_assoc, ← List.take_add, List.drop_drop] at hl''
    exact ⟨l'', by rw [Listing.after, hafter]; simp only [hpull, Except.map], ha'.trans ha, hl''⟩

/-- The count of a listing is what its bounds say and what its length is. -/
theorem Ahead.length (hl : l.Ahead cs passed rest) :
    l.sizeHint = (rest.length, some rest.length) ∧ l.length = .ok rest.length := by
  have hhint : l.sizeHint = (rest.length, some rest.length) := by rw [sizeHint, hl.remaining]
  exact ⟨hhint, by rw [Listing.length, hhint, if_pos rfl]⟩

end RecordIndex.Listing
