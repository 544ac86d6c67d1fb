import Mathlib
import RecordIndex.Proofs.Table.Indexing
import RecordIndex.Walk.Teardown

/-! # What a teardown has still to take out

The records not yet taken out form the rest of the chain that was begun and the chains after it.
Each step takes the first of them out and unlinks it.
-/
namespace RecordIndex.Teardown
variable {α : Type} {d : Teardown} {a : Arena α} {hs : List Handle}

structure Remains (d : Teardown) (a : Arena α) (hs : List Handle) : Prop where
  chains : ∃ (xs : List Handle) (ks : Chains), hs = xs ++ ks.flatten ∧
    a.Path d.successor xs none ∧
    List.Forall₂ (fun head ys => a.Path head ys none) (d.buckets.toList.drop d.resume) ks
  nodup : hs.Nodup
  linked : ∀ h ∈ hs, ∃ r, a.get? h = some r ∧ r.linked = true

theorem remains_of {t : Table} {cs : Chains} (ht : t.Indexes a cs) :
    (Teardown.of t).Remains a cs.flatten :=
  ⟨⟨[], cs, rfl, rfl, ht.threads.forall₂⟩, ht.threads.nodup, fun _ hh => ht.linked hh⟩

theorem Remains.unique {ks : List Handle} (hd : d.Remains a hs) (hk : d.Remains a ks) :
    hs = ks := by
  obtain ⟨xs, cs, rfl, hx, hcs⟩ := hd.chains
  obtain ⟨ys, ds, rfl, hy, hds⟩ := hk.chains
  obtain rfl := hx.unique hy
  have hright : Relator.RightUnique fun head zs => a.Path head zs none := fun _ _ _ hp hq =>
    hp.unique hq
  obtain rfl := hright.forall₂ hcs hds
  rfl

/-- Chains read the same in another arena that has their records with the same links. -/
theorem forall₂_path_congr {a' : Arena α} {heads : List (Option Handle)} {ks : Chains}
    (hf : List.Forall₂ (fun head ys => a.Path head ys none) heads ks)
    (he : ∀ h ∈ ks.flatten, ∀ r, a.get? h = some r → ∃ r', a'.get? h = some r' ∧ r'.next = r.next) :
    List.Forall₂ (fun head ys => a'.Path head ys none) heads ks := by
  induction hf with
  | nil => exact .nil
  | cons hp _ ih =>
    rw [List.flatten_cons] at he
    refine .cons (hp.congr fun h hh => he h (List.mem_append_left _ hh)) (ih fun h hh => ?_)
    exact he h (List.mem_append_right _ hh)

theorem Remains.congr {a' : Arena α} (hd : d.Remains a hs)
    (he : ∀ h ∈ hs, a'.thread? h = a.thread? h) : d.Remains a' hs := by
  obtain ⟨xs, ks, rfl, hx, hk⟩ := hd.chains
  have hrec : ∀ h ∈ xs ++ ks.flatten, ∀ r, a.get? h = some r →
      ∃ r', a'.get? h = some r' ∧ r'.linked = true ∧ r'.next = r.next := by
    intro h hh r hr
    obtain ⟨s, hs, hl⟩ := hd.linked h hh
    rw [hr] at hs
    cases hs
    obtain ⟨r', hr', hl', -, hn⟩ := Arena.exists_get?_of_thread? (he h hh) hr hl
    exact ⟨r', hr', hl', hn⟩
  refine ⟨⟨xs, ks, rfl, hx.congr ?_, forall₂_path_congr hk ?_⟩, hd.nodup, ?_⟩
  · intro h hh r hr
    obtain ⟨r', hr', -, hn⟩ := hrec h (List.mem_append_left _ hh) r hr
    exact ⟨r', hr', hn⟩
  · intro h hh r hr
    obtain ⟨r', hr', -, hn⟩ := hrec h (List.mem_append_right _ hh) r hr
    exact ⟨r', hr', hn⟩
  · intro h hh
    obtain ⟨r, hr, -⟩ := hd.linked h hh
    obtain ⟨r', hr', hl', -⟩ := hrec h hh r hr
    exact ⟨r', hr', hl'⟩

theorem Remains.step? (hd : d.Remains a hs) :
    (d.buckets.step? d.successor d.resume = none ∧ hs = []) ∨
      ∃ (h : Handle) (resume : Nat) (xs : List Handle) (ks : Chains),
        d.buckets.step? d.successor d.resume = some (h, resume) ∧ hs = h :: (xs ++ ks.flatten) ∧
        a.Path (some h) (h :: xs) none ∧
        List.Forall₂ (fun head ys => a.Path head ys none) (d.buckets.toList.drop resume) ks := by
  obtain ⟨xs, ks, rfl, hx, hk⟩ := hd.chains
  cases hsucc : d.successor with
  | some h =>
    rw [hsucc] at hx
    cases xs with
    | nil => cases hx
    | cons k xs =>
      obtain ⟨he, -⟩ := id hx
      cases he
      exact Or.inr ⟨h, d.resume, xs, ks, rfl, rfl, hx, hk⟩
  | none =>
    rw [hsucc] at hx
    cases xs with
    | cons k xs => cases hx.1
    | nil =>
      rcases Buckets.firstFrom?_cases (Buckets.heads_eq_map hk) with
        ⟨hf, hnil⟩ | ⟨j, h, ys, hf, hj, hnil⟩
      · exact Or.inl ⟨by simp [Buckets.step?, hf], hnil⟩
      · have hdrop := List.forall₂_drop (j + 1) hk
        rw [List.drop_drop, ← Nat.add_assoc] at hdrop
        refine Or.inr ⟨h, d.resume + j + 1, ys, ks.drop (j + 1), by simp [Buckets.step?, hf], ?_,
          ?_, hdrop⟩
        · rw [List.nil_append, Chains.flatten_eq hj, hnil]
          rfl
        · obtain ⟨hj', he⟩ := List.getElem?_eq_some_iff.mp hj
          have hlen : j < (d.buckets.toList.drop d.resume).length := hk.length_eq ▸ hj'
          have hp := List.Forall₂.get hk hlen hj'
          simp only [List.get_eq_getElem, he] at hp
          obtain ⟨hh, -⟩ := id hp
          rw [hh] at hp
          exact hp

theorem Remains.next? (hd : d.Remains a hs) :
    (d.next? a = (a, .ok none) ∧ hs = []) ∨
      ∃ h hs' d', hs = h :: hs' ∧ d.next? a = (a.unlink h, .ok (some (h, d'))) ∧
        d'.arena = d.arena ∧ d'.Remains (a.unlink h) hs' := by
  rcases hd.step? with ⟨hstep, rfl⟩ | ⟨h, resume, xs, ks, hstep, rfl, hp, hk⟩
  · exact Or.inl ⟨by simp only [Teardown.next?, hstep], rfl⟩
  · obtain ⟨-, r, hr, hx⟩ := hp
    have hother : ∀ k ∈ xs ++ ks.flatten, (a.unlink h).get? k = a.get? k := by
      intro k hm
      have hne : k ≠ h := by
        rintro rfl
        exact (List.nodup_cons.mp hd.nodup).1 hm
      rw [Arena.get?_unlink, if_neg hne]
    refine Or.inr ⟨h, xs ++ ks.flatten, { d with successor := r.next, resume }, rfl,
      by simp only [Teardown.next?, hstep, hr], rfl,
      ⟨⟨xs, ks, rfl, hx.congr ?_, forall₂_path_congr hk ?_⟩, (List.nodup_cons.mp hd.nodup).2, ?_⟩⟩
    · intro k hm s hs
      exact ⟨s, by rw [hother k (List.mem_append_left _ hm), hs], rfl⟩
    · intro k hm s hs
      exact ⟨s, by rw [hother k (List.mem_append_right _ hm), hs], rfl⟩
    · intro k hm
      obtain ⟨s, hs, hl⟩ := hd.linked k (List.mem_cons_of_mem _ hm)
      exact ⟨s, by rw [hother k hm, hs], hl⟩

end RecordIndex.Teardown
