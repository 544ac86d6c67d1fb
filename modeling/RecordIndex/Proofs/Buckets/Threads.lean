import Mathlib
import RecordIndex.Buckets
import RecordIndex.Proofs.Arena.Path
import RecordIndex.Proofs.Chains

/-! # Chains of a bucket array

`Threads` ties a bucket array over an arena to the list of its chains. Listing the array, finding
the next chain, linking at a head and unlinking anywhere are read off the chains.
-/
namespace RecordIndex.Buckets
variable {α : Type} {b : Buckets} {a : Arena α} {cs : Chains}

/-- The path from each bucket is the chain of the same number, and the chains share no handle. -/
structure Threads (b : Buckets) (a : Arena α) (cs : Chains) : Prop where
  length : cs.length = b.size
  path : ∀ (i : Nat) hs, cs[i]? = some hs → a.Path b[i]?.join hs none
  nodup : cs.flatten.Nodup

theorem threads_replicate (a : Arena α) (n : Nat) :
    Threads (Array.replicate n none) a (List.replicate n []) := by
  refine ⟨by simp, ?_, by simp⟩
  intro i hs hi
  obtain ⟨hlt, rfl⟩ := List.getElem?_eq_some_iff.mp hi
  have hn : i < n := by simpa using hlt
  simp [hn]

theorem Threads.exists_chain (hb : b.Threads a cs) {i : Nat} (hi : i < b.size) :
    ∃ hs, cs[i]? = some hs :=
  ⟨_, List.getElem?_eq_getElem (hb.length ▸ hi)⟩

theorem Threads.lt_size (hb : b.Threads a cs) {i : Nat} {hs : List Handle}
    (hi : cs[i]? = some hs) : i < b.size :=
  hb.length ▸ (List.getElem?_eq_some_iff.mp hi).1

theorem Threads.unique {ks : Chains} (hb : b.Threads a cs) (hk : b.Threads a ks) : cs = ks := by
  apply List.ext_getElem (hb.length.trans hk.length.symm)
  intro i hi hi'
  exact (hb.path i _ (List.getElem?_eq_getElem hi)).unique
    (hk.path i _ (List.getElem?_eq_getElem hi'))

theorem Threads.live (hb : b.Threads a cs) : ∀ h ∈ cs.flatten, ∃ r, a.get? h = some r := by
  intro h hh
  obtain ⟨i, hs, hi, hm⟩ := Chains.exists_of_mem_flatten hh
  exact (hb.path i hs hi).live h hm

theorem Threads.congr {a' : Arena α} (hb : b.Threads a cs)
    (he : ∀ h ∈ cs.flatten, ∀ r, a.get? h = some r → ∃ r', a'.get? h = some r' ∧ r'.next = r.next) :
    b.Threads a' cs := by
  refine ⟨hb.length, ?_, hb.nodup⟩
  intro i hs hi
  exact (hb.path i hs hi).congr fun h hh => he h (Chains.mem_flatten_of_getElem? hi hh)

/-! ## Listing -/

theorem Threads.forall₂ (hb : b.Threads a cs) :
    List.Forall₂ (fun head hs => a.Path head hs none) b.toList cs := by
  refine List.forall₂_iff_get.mpr ⟨by simp [hb.length], ?_⟩
  intro i hi hi'
  have hp := hb.path i _ (List.getElem?_eq_getElem hi')
  have hlt : i < b.size := by simpa using hi
  simpa [hlt] using hp

theorem Threads.foldrM (hb : b.Threads a cs) (g : List (Entry α) → List (Entry α)) :
    b.foldrM (fun head rest => (a.chain? head).map (g · ++ rest)) [] =
      some (cs.map fun hs => g (a.read hs)).flatten := by
  have hf := hb.forall₂
  rw [← Array.foldrM_toList]
  generalize b.toList = heads at hf
  clear hb
  induction hf with
  | nil => rfl
  | cons hp _ ih => simp [List.foldrM_cons, ih, hp.chain?]

theorem Threads.foldlM {β : Type} (hb : b.Threads a cs) (g : β → List (Entry α) → β) (x : β) :
    b.foldlM (fun y head => (a.chain? head).map (g y)) x =
      some (cs.foldl (fun y hs => g y (a.read hs)) x) := by
  have hf := hb.forall₂
  rw [← Array.foldlM_toList]
  generalize b.toList = heads at hf
  clear hb
  induction hf generalizing x with
  | nil => rfl
  | cons hp _ ih => simp [List.foldlM_cons, hp.chain?, ih]

theorem Threads.entries? (hb : b.Threads a cs) : b.entries? a = some (a.read cs.flatten) := by
  have hr : a.read cs.flatten = (cs.map fun hs => a.read hs).flatten := by
    simp [Arena.read, List.filterMap_flatten]
  rw [hr]
  exact hb.foldrM id

/-! ## Walking -/

/-- The search for a chain passes over empty ones. It looks at the heads only, so it does not matter
here whether the chains before are still threaded. -/
theorem firstFrom?_cases {i : Nat} {ks : Chains} (hk : b.toList.drop i = ks.map List.head?) :
    (b.firstFrom? i = none ∧ ks.flatten = []) ∨
      ∃ (j : Nat) (h : Handle) (hs : List Handle), b.firstFrom? i = some (i + j, h) ∧
        ks[j]? = some (h :: hs) ∧ (ks.take j).flatten = [] := by
  fun_induction Buckets.firstFrom? b i generalizing ks with
  | case1 i hi h hh =>
    rw [List.drop_eq_getElem_cons (by simpa using hi), Array.getElem_toList, hh] at hk
    obtain ⟨hs, ks, rfl, he, -⟩ := List.map_eq_cons_iff.mp hk.symm
    obtain ⟨tail, rfl⟩ := List.head?_eq_some_iff.mp he
    exact Or.inr ⟨0, h, tail, rfl, rfl, rfl⟩
  | case2 i hi hh ih =>
    rw [List.drop_eq_getElem_cons (by simpa using hi), Array.getElem_toList, hh] at hk
    obtain ⟨hs, ks, rfl, he, hks⟩ := List.map_eq_cons_iff.mp hk.symm
    obtain rfl := List.head?_eq_none_iff.mp he
    rcases ih hks.symm with ⟨hf, hnil⟩ | ⟨j, h, hs, hf, hj, hnil⟩
    · exact Or.inl ⟨hf, by simpa using hnil⟩
    · refine Or.inr ⟨j + 1, h, hs, ?_, by simpa using hj, by simpa using hnil⟩
      rw [hf, Nat.add_assoc, Nat.add_comm 1]
  | case3 i hi =>
    rw [List.drop_of_length_le (by simpa using hi)] at hk
    obtain rfl := List.map_eq_nil_iff.mp hk.symm
    exact Or.inl ⟨rfl, rfl⟩

theorem heads_eq_map {heads : List (Option Handle)}
    (hf : List.Forall₂ (fun head hs => a.Path head hs none) heads cs) :
    heads = cs.map List.head? := by
  induction hf with
  | nil => rfl
  | cons hp _ ih => rw [List.map_cons, ← ih, hp.head_eq, Option.or_none]

/-- The next chain is the first one from `i` on that is not empty; those passed over add nothing to
the listing. -/
theorem Threads.firstFrom? (hb : b.Threads a cs) (i : Nat) :
    (b.firstFrom? i = none ∧ (cs.drop i).flatten = []) ∨
      ∃ (j : Nat) (h : Handle) (hs : List Handle), b.firstFrom? i = some (j, h) ∧
        cs[j]? = some (h :: hs) ∧ (cs.take j).flatten = (cs.take i).flatten ∧
        (cs.drop i).flatten = h :: hs ++ (cs.drop (j + 1)).flatten := by
  have hk : b.toList.drop i = (cs.drop i).map List.head? := by
    rw [heads_eq_map hb.forall₂, List.map_drop]
  rcases firstFrom?_cases hk with hnone | ⟨j, h, hs, hf, hj, hnil⟩
  · exact Or.inl hnone
  · refine Or.inr ⟨i + j, h, hs, hf, by rw [← List.getElem?_drop, hj], ?_, ?_⟩
    · rw [List.take_add, List.flatten_append, hnil, List.append_nil]
    · rw [Chains.flatten_eq hj, hnil, List.nil_append, List.drop_drop, Nat.add_assoc]

/-! ## Linking and unlinking -/

theorem Threads.push (hb : b.Threads a cs) {i : Nat} (hi : i < b.size) {h : Handle}
    {r : Record α} (hr : a.get? h = some r) (hh : h ∉ cs.flatten) :
    Threads (b.setIfInBounds i (some h)) (a.link h b[i]?.join) (cs.push i h) := by
  have hlen : i < cs.length := by rw [hb.length]; exact hi
  refine ⟨by simp [hb.length], ?_, ?_⟩
  · intro j ks hj
    rw [Chains.getElem?_push] at hj
    obtain ⟨hs, hjs, rfl⟩ := Option.map_eq_some_iff.mp hj
    -- the links of the old chains are those of other records
    have hold : (a.link h b[i]?.join).Path b[j]?.join hs none := by
      apply (hb.path j hs hjs).congr
      intro k hk s hs'
      have hne : k ≠ h := by
        rintro rfl
        exact hh (Chains.mem_flatten_of_getElem? hjs hk)
      exact ⟨s, by rw [Arena.get?_link, if_neg hne, hs'], rfl⟩
    by_cases hij : i = j
    · subst hij
      rw [if_pos rfl, Array.getElem?_setIfInBounds_self_of_lt hi]
      refine ⟨rfl, _, by rw [Arena.get?_link, if_pos rfl, hr]; rfl, ?_⟩
      exact hold
    · rw [if_neg hij, Array.getElem?_setIfInBounds_ne hij]
      exact hold
  · exact (Chains.flatten_push_perm hlen h).nodup_iff.mpr (List.nodup_cons.mpr ⟨hh, hb.nodup⟩)

/-- When a record is cut out, its bucket needs a new head only if the record was the head. -/
theorem Threads.without (hb : b.Threads a cs) {i : Nat} {xs ys : List Handle} {h : Handle}
    {r : Record α} (hi : cs[i]? = some (xs ++ h :: ys)) (hr : a.get? h = some r) :
    Threads (if xs.getLast? = none then b.setIfInBounds i r.next else b)
      (a.cut xs.getLast? h r.next) (cs.without h) := by
  have hlt := hb.lt_size hi
  have hm : h ∈ xs ++ h :: ys := by simp
  refine ⟨by split <;> simp [hb.length], ?_, ?_⟩
  · intro j ks hj
    by_cases hij : i = j
    · subst hij
      rw [Chains.getElem?_without_self hb.nodup hi] at hj
      cases hj
      have hcut := (hb.path i _ hi).cut hr
      split at hcut
      · rename_i he
        rw [if_pos he, Array.getElem?_setIfInBounds_self_of_lt hlt]
        exact hcut
      · rename_i he
        rw [if_neg he]
        exact hcut
    · rw [Chains.getElem?_without_of_ne hb.nodup hi hm (Ne.symm hij)] at hj
      have hhead : (if xs.getLast? = none then b.setIfInBounds i r.next else b)[j]? = b[j]? := by
        split
        · exact Array.getElem?_setIfInBounds_ne hij
        · rfl
      rw [hhead]
      refine (hb.path j ks hj).congr fun k hk u hu => ⟨u, ?_, rfl⟩
      have hother : k ∉ xs ++ h :: ys := fun hx =>
        hij (Chains.index_unique hb.nodup hi hj hx hk)
      have hkh : k ≠ h := by rintro rfl; exact hother hm
      have hkp : xs.getLast? ≠ some k := fun he =>
        hother (List.mem_append_left _ (List.mem_of_getLast? he))
      rw [Arena.get?_cut a _ _ hkh hkp, hu]
  · rw [Chains.flatten_without hb.nodup]
    exact hb.nodup.erase h

end RecordIndex.Buckets
