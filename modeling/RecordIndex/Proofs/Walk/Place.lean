import Mathlib
import RecordIndex.Proofs.Table.Removal
import RecordIndex.Walk.Cursor

/-! # Where a cursor stands in the listing

The place of a cursor splits the listing of its table into what the walk has left behind and what is
still to come. A step moves one record over, and the removal of the record the cursor stands on
takes it out of the first part.
-/
namespace RecordIndex

/-- A link to follow and where to search for a chain without one, as a split of the listing: the
link leads into the chain in front of that bucket, or the search begins between two chains. -/
inductive Onward (cs : Chains) : Option Handle → Nat → List Handle → List Handle → Prop where
  | between (i : Nat) : Onward cs none i (cs.take i).flatten (cs.drop i).flatten
  | within (i : Nat) (xs : List Handle) (h : Handle) (ys : List Handle)
      (hi : cs[i]? = some (xs ++ h :: ys)) :
      Onward cs (some h) (i + 1) ((cs.take i).flatten ++ xs)
        (h :: ys ++ (cs.drop (i + 1)).flatten)

namespace Place

/-- The listing is `passed` and then `rest`, and the cursor stands between them; the record it
stands on is the last one passed. -/
def Splits (cs : Chains) : Place → List Handle → List Handle → Prop
  | .start, passed, rest => passed = [] ∧ rest = cs.flatten
  | .on h resume, passed, rest => ∃ (i : Nat) (xs ys : List Handle),
      cs[i]? = some (xs ++ h :: ys) ∧ resume = i + 1 ∧
        passed = (cs.take i).flatten ++ xs ++ [h] ∧ rest = ys ++ (cs.drop (i + 1)).flatten
  | .gap successor resume, passed, rest => Onward cs successor resume passed rest
  | .finished, passed, rest => passed = cs.flatten ∧ rest = []

end Place

variable {α : Type} {t : Table} {a : Arena α} {cs : Chains} {passed rest : List Handle}

/-- After the records `xs` of a chain the walk goes on with the others, if any. -/
theorem onward_of_getElem? {i : Nat} {xs ys : List Handle} (hi : cs[i]? = some (xs ++ ys)) :
    Onward cs ys.head? (i + 1) ((cs.take i).flatten ++ xs) (ys ++ (cs.drop (i + 1)).flatten) := by
  cases ys with
  | cons h ys => exact .within i xs h ys hi
  | nil =>
    have htake : (cs.take i).flatten ++ xs = (cs.take (i + 1)).flatten := by
      rw [List.take_add_one, hi]
      simp
    rw [htake]
    exact .between (i + 1)

theorem Onward.append {successor : Option Handle} {resume : Nat}
    (ho : Onward cs successor resume passed rest) : passed ++ rest = cs.flatten := by
  cases ho with
  | between => rw [← List.flatten_append, List.take_append_drop]
  | within i xs h ys hi => rw [Chains.flatten_eq hi]; simp

theorem Place.Splits.append {place : Place} (hs : place.Splits cs passed rest) :
    passed ++ rest = cs.flatten := by
  cases place with
  | start =>
    obtain ⟨rfl, rfl⟩ := hs
    rfl
  | on h resume =>
    obtain ⟨i, xs, ys, hi, rfl, rfl, rfl⟩ := hs
    rw [Chains.flatten_eq hi]
    simp
  | gap successor resume => exact Onward.append hs
  | finished =>
    obtain ⟨rfl, rfl⟩ := hs
    exact List.append_nil _

def Place.refers : Place → List Handle
  | .on h _ => [h]
  | .gap successor _ => successor.toList
  | _ => []

theorem Place.Splits.refers {place : Place} (hs : place.Splits cs passed rest) {h : Handle}
    (hh : h ∈ place.refers) : h ∈ cs.flatten := by
  rw [← hs.append]
  cases place with
  | on k resume =>
    obtain ⟨i, xs, ys, -, -, rfl, -⟩ := hs
    simp_all [Place.refers]
  | gap successor resume =>
    cases hs with
    | between => simp [Place.refers] at hh
    | within i xs k ys => simp_all [Place.refers]
  | _ => simp [Place.refers] at hh

/-- From the record a place is on its link leads onward. -/
theorem Place.Splits.onward {b : Buckets} (hb : b.Threads a cs) {h : Handle} {resume : Nat}
    (hs : (Place.on h resume).Splits cs passed rest) :
    ∃ r, a.get? h = some r ∧ Onward cs r.next resume passed rest := by
  obtain ⟨i, xs, ys, hi, rfl, rfl, rfl⟩ := hs
  obtain ⟨link, -, rfl, r, hr, hy⟩ := Arena.path_append.mp (hb.path i _ hi)
  have hhead : r.next = ys.head? := by simpa using hy.head_eq
  refine ⟨r, hr, ?_⟩
  rw [hhead, List.append_assoc]
  rw [List.append_cons] at hi
  exact onward_of_getElem? hi

theorem Onward.step? {b : Buckets} (hb : b.Threads a cs) {successor : Option Handle} {resume : Nat}
    (ho : Onward cs successor resume passed rest) :
    (b.step? successor resume = none ∧ rest = []) ∨
      ∃ h resume' rest', b.step? successor resume = some (h, resume') ∧ rest = h :: rest' ∧
        (Place.on h resume').Splits cs (passed ++ [h]) rest' := by
  cases ho with
  | within i xs h ys hi =>
    exact Or.inr ⟨h, i + 1, _, rfl, rfl, i, xs, ys, hi, rfl, rfl, rfl⟩
  | between =>
    rcases hb.firstFrom? resume with ⟨hf, hnil⟩ | ⟨j, h, ys, hf, hj, htake, hdrop⟩
    · exact Or.inl ⟨by simp [Buckets.step?, hf], hnil⟩
    · refine Or.inr ⟨h, j + 1, _, by simp [Buckets.step?, hf], hdrop, j, [], ys, hj, rfl, ?_, rfl⟩
      rw [htake, List.append_nil]

namespace Cursor
variable {c : Cursor}

theorem onward_cases (ht : t.Indexes a cs) (hs : c.place.Splits cs passed rest) :
    (c.onward a = .ok none ∧ c.place = .finished ∧ rest = []) ∨
      ∃ successor resume, c.onward a = .ok (some (successor, resume)) ∧
        Onward cs successor resume passed rest := by
  unfold onward
  cases hp : c.place with
  | start =>
    rw [hp] at hs
    obtain ⟨rfl, rfl⟩ := hs
    exact Or.inr ⟨none, 0, rfl, .between 0⟩
  | on h resume =>
    rw [hp] at hs
    obtain ⟨r, hr, ho⟩ := hs.onward ht.threads
    exact Or.inr ⟨r.next, resume, by simp only [hr], ho⟩
  | gap successor resume =>
    rw [hp] at hs
    exact Or.inr ⟨successor, resume, rfl, hs⟩
  | finished =>
    rw [hp] at hs
    exact Or.inl ⟨rfl, rfl, hs.2⟩

theorem eq_of_advance {c' : Cursor} {found : Option Handle}
    (he : c.advance t a = .ok (c', found)) : c' = { c with place := c'.place } := by
  unfold advance at he
  cases ho : c.onward a with
  | error e => simp [ho, bind, Except.bind] at he
  | ok next =>
    simp only [ho, bind, Except.bind, pure, Except.pure] at he
    split at he
    · cases he
      rfl
    · split at he
      · cases he
        rfl
      · cases he
        rfl

/-- A cursor moves over the first record still to come, and past the end when there is none. -/
theorem advance_splits (ht : t.Indexes a cs) (hs : c.place.Splits cs passed rest) :
    ∃ place, c.advance t a = .ok ({ c with place }, rest.head?) ∧
      place.Splits cs (passed ++ rest.head?.toList) rest.tail ∧
      ({ c with place } : Cursor).current? = rest.head? := by
  unfold advance
  rcases onward_cases ht hs with ⟨ho, hp, rfl⟩ | ⟨successor, resume, ho, hsplit⟩
  · rw [hp] at hs
    refine ⟨.finished, ?_, by simpa using hs, rfl⟩
    rw [ho, ← hp]
    rfl
  · rcases hsplit.step? ht.threads with ⟨hstep, rfl⟩ | ⟨h, resume', rest', hstep, rfl, hon⟩
    · refine ⟨.finished, ?_, ?_, rfl⟩
      · simp only [ho, hstep, bind, Except.bind, pure, Except.pure, List.head?_nil]
      · exact ⟨by simpa using hs.append, rfl⟩
    · refine ⟨.on h resume', ?_, hon, rfl⟩
      simp only [ho, hstep, bind, Except.bind, pure, Except.pure, List.head?_cons]

theorem removeCurrent_off (hc : c.current? = none) (t : Table) (a : Arena α) :
    c.removeCurrent t a = (t, a, .error .noCurrentRecord) := by
  unfold current? at hc
  unfold removeCurrent
  cases hp : c.place with
  | on h resume => simp [hp] at hc
  | _ => rfl

/-- A removal takes the record the cursor stands on out of the table and brings the cursor to the
epoch of the table. Otherwise nothing changes. -/
theorem removeCurrent_cases (ht : t.Indexes a cs) :
    (c.current? = none ∧ c.removeCurrent t a = (t, a, .error .noCurrentRecord)) ∨
      (∃ h, c.current? = some h ∧ h ∉ cs.flatten ∧
        c.removeCurrent t a = (t, a, .error .corrupted)) ∨
      ∃ h r resume t' a', c.place = .on h resume ∧ a.get? h = some r ∧
        c.removeCurrent t a =
          (t', a', .ok ({ c with epoch := t'.epoch, place := .gap r.next resume }, h)) ∧
        Table.Unlinked t a cs h t' a' := by
  cases hp : c.place with
  | on h resume =>
    have hc : c.current? = some h := by rw [current?, hp]
    cases hr : a.get? h with
    | none =>
      refine Or.inr (Or.inl ⟨h, hc, fun hm => ?_, by simp only [removeCurrent, hp, hr]⟩)
      obtain ⟨s, hs⟩ := ht.threads.live h hm
      rw [hr] at hs
      cases hs
    | some r =>
      rcases ht.removeHandle hr with ⟨he, hn⟩ | ⟨t', a', he, hu⟩
      · exact Or.inr (Or.inl ⟨h, hc, hn, by simp only [removeCurrent, hp, hr, he]; rfl⟩)
      · exact Or.inr (Or.inr ⟨h, r, resume, t', a', rfl, hr,
          by simp only [removeCurrent, hp, hr, he]; rfl, hu⟩)
  | _ =>
    have hc : c.current? = none := by rw [current?, hp]
    exact Or.inl ⟨hc, removeCurrent_off hc t a⟩

/-- Behind the record removed the walk goes on as it would have. -/
theorem splits_without (ht : t.Indexes a cs) {h : Handle} {r : Record α} {resume : Nat}
    (hp : c.place = .on h resume) (hr : a.get? h = some r)
    (hs : c.place.Splits cs passed rest) :
    (Place.gap r.next resume).Splits (cs.without h) passed.dropLast rest ∧
      passed.getLast? = some h := by
  rw [hp] at hs
  obtain ⟨i, xs, ys, hi, rfl, rfl, rfl⟩ := hs
  obtain ⟨link, -, rfl, s, hs, hy⟩ := Arena.path_append.mp (ht.threads.path i _ hi)
  rw [hr] at hs
  cases hs
  have hhead : r.next = ys.head? := by simpa using hy.head_eq
  have hset := Chains.without_eq_set ht.threads.nodup hi
  have hi' : (cs.without h)[i]? = some (xs ++ ys) :=
    Chains.getElem?_without_self ht.threads.nodup hi
  have hto := onward_of_getElem? hi'
  rw [hset, List.take_set_of_le (Nat.le_refl i), List.drop_set_of_lt (Nat.lt_succ_self i),
    ← hset] at hto
  rw [hhead, List.dropLast_concat]
  exact ⟨hto, by simp⟩

end Cursor
end RecordIndex
