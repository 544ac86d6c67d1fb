import Mathlib
import RecordIndex.Census

/-! # What a histogram counts

A histogram depends on the sizes of the groups only, and not on their order. At each place stands
the number of groups of this size, at the last one that of all larger groups too, and the total is
the number of all groups.
-/
namespace RecordIndex.Histogram

theorem add_comm (h : Histogram) (m n : Nat) : (h.add m).add n = (h.add n).add m := by
  apply Vector.ext
  intro i hi
  simp only [add, Vector.getElem_set]
  grind

theorem addAll_append (h : Histogram) (xs ys : List Nat) :
    h.addAll (xs ++ ys) = (h.addAll xs).addAll ys := List.foldl_append

theorem addAll_perm {xs ys : List Nat} (hp : xs.Perm ys) (h : Histogram) :
    h.addAll xs = h.addAll ys :=
  have : RightCommutative add := ⟨add_comm⟩
  hp.foldl_eq h

/-! ## Single places -/

theorem getElem_add (h : Histogram) (size : Nat) {i : Nat} (hi : i < topSize + 1) :
    (h.add size)[i] = h[i] + if min size topSize = i then 1 else 0 := by
  simp only [add, Vector.getElem_set]
  split
  · subst i
    rfl
  · rfl

theorem getElem_addAll (h : Histogram) (sizes : List Nat) {i : Nat} (hi : i < topSize + 1) :
    (h.addAll sizes)[i] = h[i] + sizes.countP fun size => min size topSize = i := by
  induction sizes generalizing h with
  | nil => rfl
  | cons size sizes ih =>
    have hcons : h.addAll (size :: sizes) = (h.add size).addAll sizes := rfl
    rw [hcons, ih, getElem_add, List.countP_cons]
    simp only [decide_eq_true_eq]
    omega

theorem getElem_empty {i : Nat} (hi : i < topSize + 1) : empty[i] = 0 := Vector.getElem_replicate hi

/-! ## The total -/

theorem total_eq_sum (h : Histogram) : h.total = h.toList.sum := List.sum_eq_foldl.symm

theorem total_add (h : Histogram) (size : Nat) : (h.add size).total = h.total + 1 := by
  have hi : min size topSize < h.toList.length := by
    rw [Vector.length_toList]
    omega
  have hsplit := List.sum_take_add_sum_drop h.toList (min size topSize)
  rw [List.drop_eq_getElem_cons hi, List.sum_cons] at hsplit
  rw [total_eq_sum, total_eq_sum, add, Vector.toList_set, List.sum_set, if_pos hi, ← hsplit]
  simp only [Vector.getElem_toList]
  omega

theorem total_addAll (h : Histogram) (sizes : List Nat) :
    (h.addAll sizes).total = h.total + sizes.length := by
  induction sizes generalizing h with
  | nil => rfl
  | cons size sizes ih =>
    have hcons : h.addAll (size :: sizes) = (h.add size).addAll sizes := rfl
    rw [hcons, ih, total_add, List.length_cons]
    omega

theorem total_addAll_empty (sizes : List Nat) : (empty.addAll sizes).total = sizes.length := by
  have hempty : empty.total = 0 := rfl
  rw [total_addAll, hempty, Nat.zero_add]

/-! ## Families of groups -/

section BySize
variable {γ δ : Type}

def bySize (s : Finset γ) (size : γ → Nat) : Histogram :=
  Vector.ofFn fun i => (s.filter fun x => min (size x) topSize = i).card

theorem getElem_bySize (s : Finset γ) (size : γ → Nat) {i : Nat} (hi : i < topSize + 1) :
    (bySize s size)[i] = (s.filter fun x => min (size x) topSize = i).card :=
  Vector.getElem_ofFn hi

theorem get_bySize (s : Finset γ) (size : γ → Nat) (i : Fin (topSize + 1)) :
    (bySize s size).get i = (s.filter fun x => min (size x) topSize = i).card :=
  getElem_bySize s size i.isLt

theorem card_filter_toFinset [DecidableEq γ] {xs : List γ} (hn : xs.Nodup) (p : γ → Prop)
    [DecidablePred p] : (xs.toFinset.filter p).card = xs.countP p := by
  rw [List.countP_eq_length_filter, ← List.toFinset_card_of_nodup (hn.filter _),
    List.toFinset_filter]
  simp only [decide_eq_true_eq]

/-- Groups that are listed without repetition are counted as their family. -/
theorem addAll_map [DecidableEq γ] {xs : List γ} (hn : xs.Nodup) (size : γ → Nat) :
    empty.addAll (xs.map size) = bySize xs.toFinset size := by
  apply Vector.ext
  intro i hi
  rw [getElem_addAll, getElem_empty, getElem_bySize, Nat.zero_add, List.countP_map,
    card_filter_toFinset hn]
  rfl

/-- Families that correspond one to one, with the same sizes, have the same histogram. -/
theorem bySize_equiv [Fintype γ] [Fintype δ] (e : γ ≃ δ) {size : γ → Nat} {size' : δ → Nat}
    (hs : ∀ x, size' (e x) = size x) : bySize Finset.univ size' = bySize Finset.univ size := by
  apply Vector.ext
  intro i hi
  rw [getElem_bySize, getElem_bySize]
  refine (Finset.card_equiv e fun x => ?_).symm
  simp only [Finset.mem_filter, Finset.mem_univ, true_and, hs]

end BySize

end RecordIndex.Histogram
