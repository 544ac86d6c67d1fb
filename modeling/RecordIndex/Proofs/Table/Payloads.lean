import Mathlib
import RecordIndex.Proofs.Arena.Payloads
import RecordIndex.Proofs.Census.Groups
import RecordIndex.Table.Insertion
import RecordIndex.Table.Removal
import RecordIndex.Walk.Cursor
import RecordIndex.Proofs.Walk.Listing
import RecordIndex.Walk.Teardown

/-! # Payloads and tables

What a table does to its records it does to those with other payloads in the same way, as long as no
comparator looks at them.
-/
namespace RecordIndex
variable {α β γ : Type} {f : α → β}

/-! ## Bucket arrays -/

namespace Buckets

/-- A fold over buckets can be done on images. -/
theorem foldrM_map {δ ε : Type} {m : γ → δ} {g : ε → γ → Option γ} {g' : ε → δ → Option δ}
    (hg : ∀ x y, g' x (m y) = (g x y).map m) (b : Array ε) (y : γ) :
    b.foldrM g' (m y) = (b.foldrM g y).map m := by
  rw [← Array.foldrM_toList, ← Array.foldrM_toList]
  induction b.toList with
  | nil => rfl
  | cons x xs ih =>
    rw [List.foldrM_cons, List.foldrM_cons, ih]
    cases xs.foldrM g y with
    | none => rfl
    | some z => exact hg x z

theorem foldlM_map {δ ε : Type} {m : γ → δ} {g : γ → ε → Option γ} {g' : δ → ε → Option δ}
    (hg : ∀ x y, g' (m x) y = (g x y).map m) (b : Array ε) (x : γ) :
    b.foldlM g' (m x) = (b.foldlM g x).map m := by
  rw [← Array.foldlM_toList, ← Array.foldlM_toList]
  induction b.toList generalizing x with
  | nil => rfl
  | cons y ys ih =>
    rw [List.foldlM_cons, List.foldlM_cons, hg]
    cases g x y with
    | none => rfl
    | some z => exact ih z

theorem entries?_map (b : Buckets) (a : Arena α) :
    b.entries? (a.map f) = (b.entries? a).map (List.map (Entry.map f)) := by
  refine foldrM_map (m := List.map (Entry.map f)) (fun head rest => ?_) b []
  rw [Arena.chain?_map, Option.map_map, Option.map_map]
  congr 1
  funext chain
  exact List.map_append.symm

theorem pushFront_map (b : Buckets) (a : Arena α) (h : Handle) (key : UInt64) :
    b.pushFront (a.map f) h key = ((b.pushFront a h key).1, (b.pushFront a h key).2.map f) :=
  Prod.ext rfl (a.link_map h _)

end Buckets

namespace Table

def mapArena (f : α → β) (x : Table × Arena α × γ) : Table × Arena β × γ :=
  (x.1, x.2.1.map f, x.2.2)

@[simp] theorem mapArena_mk (t : Table) (a : Arena α) (answer : γ) :
    mapArena f (t, a, answer) = (t, a.map f, answer) := rfl

theorem handles_map (t : Table) (a : Arena α) : t.handles (a.map f) = t.handles a := by
  rw [handles, handles, entries, entries, Buckets.entries?_map]
  cases t.buckets.entries? a with
  | none => rfl
  | some es =>
    simp only [Option.map_some, Except.map, List.map_map]
    rfl

theorem entries_map (t : Table) (a : Arena α) :
    t.entries (a.map f) = (t.entries a).map (List.map (Entry.map f)) := by
  rw [entries, entries, Buckets.entries?_map]
  cases t.buckets.entries? a <;> rfl

/-! ## Insertion -/

theorem relink_map (b : Buckets) (a : Arena α) (entries : List (Entry α)) :
    relink b (a.map f) (entries.map (Entry.map f)) =
      ((relink b a entries).1, (relink b a entries).2.map f) := by
  induction entries generalizing b a with
  | nil => rfl
  | cons e entries ih =>
    simp only [relink, List.map_cons, List.foldl_cons, Entry.fst_map, Entry.snd_map,
      Record.map_key, Buckets.pushFront_map]
    exact ih _ _

theorem relinkChain_map (x : Buckets × Arena α) (head : Option Handle) :
    relinkChain (x.1, x.2.map f) head =
      (relinkChain x head).map fun y => (y.1, y.2.map f) := by
  obtain ⟨b, a⟩ := x
  simp only [relinkChain, Arena.chain?_map, Option.map_map]
  congr 1
  funext chain
  rw [Function.comp_apply, ← List.map_reverse, relink_map]
  rfl

theorem grow_map (t : Table) (m : Allocator) (a : Arena α) :
    t.grow m (a.map f) = mapArena f (t.grow m a) := by
  unfold grow
  cases t.policy.next? t.capacity with
  | none =>
    cases t.ceilingReported <;> rfl
  | some capacity =>
    dsimp only
    cases newBuckets m t.name capacity with
    | error e => rfl
    | ok fresh =>
      have hfold : t.buckets.foldlM relinkChain (fresh, a.map f) =
          (t.buckets.foldlM relinkChain (fresh, a)).map fun y => (y.1, y.2.map f) :=
        Buckets.foldlM_map relinkChain_map t.buckets (fresh, a)
      dsimp only
      rw [hfold]
      cases t.buckets.foldlM relinkChain (fresh, a) <;> rfl

theorem makeRoom_map (t : Table) (m : Allocator) (a : Arena α) :
    t.makeRoom m (a.map f) = mapArena f (t.makeRoom m a) := by
  unfold makeRoom
  split
  · exact t.grow_map m a
  · rfl

theorem push_map (t : Table) (a : Arena α) (h : Handle) (key : UInt64) :
    t.push (a.map f) h key = ((t.push a h key).1, (t.push a h key).2.map f) := by
  simp only [push, Buckets.pushFront_map]

theorem insert_map (t : Table) (m : Allocator) (a : Arena α) (h : Handle) :
    t.insert m (a.map f) h = mapArena f (t.insert m a h) := by
  unfold insert
  rw [Arena.get?_map]
  cases a.get? h with
  | none => rfl
  | some r =>
    simp only [Option.map_some, Record.map_linked, Record.map_key, makeRoom_map]
    split
    · rfl
    · split
      · rfl
      · obtain ⟨t', a', events, answer⟩ := t.makeRoom m a
        cases answer with
        | error e => rfl
        | ok _ =>
          simp only [mapArena_mk, push_map]

/-! ## Search and removal -/

section
variable {p : Handle → Record α → Bool} {p' : Handle → Record β → Bool}

theorem locate_map (hp : ∀ h r, p' h (r.map f) = p h r) (t : Table) (a : Arena α)
    (key : UInt64) :
    t.locate (a.map f) key p' =
      (t.locate a key p).map (Option.map fun found => (found.1, Entry.map f found.2)) := by
  unfold locate
  split
  · exact Arena.locate_map hp a _
  · rfl

theorem detach_map (t : Table) (a : Arena α) (before : Option Handle) (e : Entry α) :
    t.detach (a.map f) before (Entry.map f e) = mapArena f (t.detach a before e) := by
  unfold detach
  cases t.count with
  | zero => rfl
  | succ count =>
    simp only [Entry.fst_map, Entry.snd_map, Record.map_next, Record.map_key, Arena.unlink_map]
    cases before with
    | none => rfl
    | some q =>
      simp only [Arena.redirect_map]
      rfl

theorem removeFirst_map (hp : ∀ h r, p' h (r.map f) = p h r) (t : Table) (a : Arena α)
    (key : UInt64) :
    t.removeFirst (a.map f) key p' = mapArena f (t.removeFirst a key p) := by
  unfold removeFirst
  rw [locate_map hp]
  cases t.locate a key p with
  | error e => rfl
  | ok found =>
    cases found with
    | none => rfl
    | some found =>
      obtain ⟨before, e⟩ := found
      simp only [Except.map, Option.map_some, detach_map]
      rfl

theorem removeHandle_map (t : Table) (a : Arena α) (h : Handle) (key : UInt64) :
    t.removeHandle (a.map f) h key = mapArena f (t.removeHandle a h key) := by
  unfold removeHandle
  rw [locate_map (p := fun k _ => k == h) fun _ _ => rfl]
  cases t.locate a key fun k _ => k == h with
  | error e => rfl
  | ok found =>
    cases found with
    | none => rfl
    | some found =>
      obtain ⟨before, e⟩ := found
      simp only [Except.map, Option.map_some, detach_map]

end

theorem remove_map (t : Table) (a : Arena α) (key : UInt64) :
    t.remove (a.map f) key = mapArena f (t.remove a key) :=
  removeFirst_map (fun _ _ => rfl) t a key

theorem lookup_map (t : Table) (a : Arena α) (key : UInt64) :
    t.lookup (a.map f) key = t.lookup a key := by
  unfold lookup
  rw [locate_map (p := accepts key fun _ => true) fun _ _ => rfl]
  cases t.locate a key (accepts key fun _ => true) with
  | error e => rfl
  | ok found => cases found <;> rfl

theorem census_map {same : Record α → Record α → Bool} {same' : Record β → Record β → Bool}
    (hs : ∀ r s, same' (r.map f) (s.map f) = same r s) (t : Table) (a : Arena α) :
    t.census (a.map f) same' = t.census a same := by
  have htake : Census.take? same' t.buckets (a.map f) = Census.take? same t.buckets a := by
    unfold Census.take?
    congr 1
    funext c head
    rw [Arena.chain?_map, Option.map_map]
    congr 1
    funext chain
    rw [Function.comp_apply, ← Census.addChain_map (fun r => r.map_key f) hs, List.map_map,
      List.map_map]
    rfl
  rw [census, census, htake]

end Table
end RecordIndex
