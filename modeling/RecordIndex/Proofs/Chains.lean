import Mathlib
import RecordIndex.Arena.Chain

/-! # Lists of chains

The pure picture of an index: a list of chains, one for each bucket, no handle in two places. A
record comes in at the head of one chain and goes out of wherever it is, and the listing of the
index is the concatenation of the chains.
-/
namespace RecordIndex

abbrev Chains := List (List Handle)

namespace Chains

def push (cs : Chains) (i : Nat) (h : Handle) : Chains := cs.modify i (h :: ·)

def without (cs : Chains) (h : Handle) : Chains := cs.map (·.erase h)

@[simp] theorem length_push (cs : Chains) (i : Nat) (h : Handle) :
    (cs.push i h).length = cs.length := List.length_modify ..

@[simp] theorem length_without (cs : Chains) (h : Handle) :
    (cs.without h).length = cs.length := List.length_map _

theorem getElem?_push (cs : Chains) (i j : Nat) (h : Handle) :
    (cs.push i h)[j]? = (cs[j]?).map fun hs => if i = j then h :: hs else hs :=
  List.getElem?_modify ..

theorem getElem?_without (cs : Chains) (h : Handle) (i : Nat) :
    (cs.without h)[i]? = (cs[i]?).map (·.erase h) := List.getElem?_map

theorem eq_append {cs : Chains} {i : Nat} {hs : List Handle} (hi : cs[i]? = some hs) :
    cs = cs.take i ++ hs :: cs.drop (i + 1) := by
  obtain ⟨hlt, rfl⟩ := List.getElem?_eq_some_iff.mp hi
  rw [List.getElem_cons_drop, List.take_append_drop]

theorem flatten_eq {cs : Chains} {i : Nat} {hs : List Handle} (hi : cs[i]? = some hs) :
    cs.flatten = (cs.take i).flatten ++ (hs ++ (cs.drop (i + 1)).flatten) := by
  conv_lhs => rw [eq_append hi]
  rw [List.flatten_append, List.flatten_cons]

theorem push_eq {cs : Chains} {i : Nat} {hs : List Handle} (hi : cs[i]? = some hs) (h : Handle) :
    cs.push i h = cs.take i ++ (h :: hs) :: cs.drop (i + 1) := by
  obtain ⟨hlt, rfl⟩ := List.getElem?_eq_some_iff.mp hi
  exact List.modify_eq_take_cons_drop hlt

theorem flatten_push {cs : Chains} {i : Nat} {hs : List Handle} (hi : cs[i]? = some hs)
    (h : Handle) :
    (cs.push i h).flatten = (cs.take i).flatten ++ h :: (hs ++ (cs.drop (i + 1)).flatten) := by
  rw [push_eq hi, List.flatten_append, List.flatten_cons, List.cons_append]

theorem flatten_push_perm {cs : Chains} {i : Nat} (hi : i < cs.length) (h : Handle) :
    (cs.push i h).flatten.Perm (h :: cs.flatten) := by
  have hs : cs[i]? = some cs[i] := List.getElem?_eq_getElem hi
  rw [flatten_push hs, flatten_eq hs]
  exact List.perm_middle

theorem index_unique {cs : Chains} (hn : cs.flatten.Nodup) {i j : Nat} {hs ks : List Handle}
    (hi : cs[i]? = some hs) (hj : cs[j]? = some ks) {h : Handle} (hh : h ∈ hs) (hk : h ∈ ks) :
    i = j := by
  obtain ⟨hi', rfl⟩ := List.getElem?_eq_some_iff.mp hi
  obtain ⟨hj', rfl⟩ := List.getElem?_eq_some_iff.mp hj
  have hp := List.pairwise_iff_getElem.mp (List.nodup_flatten.mp hn).2
  rcases Nat.lt_trichotomy i j with hlt | he | hlt
  · exact absurd hk (List.disjoint_left.mp (hp i j hi' hj' hlt) hh)
  · exact he
  · exact absurd hh (List.disjoint_left.mp (hp j i hj' hi' hlt) hk)

theorem mem_flatten_of_getElem? {cs : Chains} {i : Nat} {hs : List Handle} (hi : cs[i]? = some hs)
    {h : Handle} (hh : h ∈ hs) : h ∈ cs.flatten :=
  List.mem_flatten.mpr ⟨hs, List.mem_of_getElem? hi, hh⟩

theorem exists_of_mem_flatten {cs : Chains} {h : Handle} (hh : h ∈ cs.flatten) :
    ∃ (i : Nat) (hs : List Handle), cs[i]? = some hs ∧ h ∈ hs := by
  obtain ⟨hs, hm, hh⟩ := List.mem_flatten.mp hh
  obtain ⟨i, hi⟩ := List.getElem?_of_mem hm
  exact ⟨i, hs, hi, hh⟩

theorem exists_of_mem_take {cs : Chains} {i : Nat} {hs : List Handle} (hm : hs ∈ cs.take i) :
    ∃ j, cs[j]? = some hs ∧ j ≠ i := by
  obtain ⟨j, hj⟩ := List.getElem?_of_mem hm
  rw [List.getElem?_take] at hj
  split at hj
  · exact ⟨j, hj, by omega⟩
  · cases hj

theorem exists_of_mem_drop {cs : Chains} {i : Nat} {hs : List Handle}
    (hm : hs ∈ cs.drop (i + 1)) : ∃ j, cs[j]? = some hs ∧ j ≠ i := by
  obtain ⟨j, hj⟩ := List.getElem?_of_mem hm
  rw [List.getElem?_drop] at hj
  exact ⟨_, hj, by omega⟩

theorem nodup_of_getElem? {cs : Chains} (hn : cs.flatten.Nodup) {i : Nat} {hs : List Handle}
    (hi : cs[i]? = some hs) : hs.Nodup :=
  (List.nodup_flatten.mp hn).1 hs (List.mem_of_getElem? hi)

theorem flatten_without {cs : Chains} (hn : cs.flatten.Nodup) (h : Handle) :
    (cs.without h).flatten = cs.flatten.erase h := by
  rw [hn.erase_eq_filter, List.filter_flatten]
  congr 1
  exact List.map_congr_left fun hs hm => ((List.nodup_flatten.mp hn).1 hs hm).erase_eq_filter h

/-! ## Dealing handles out to chains -/

/-- Puts the handles one after the other at the heads of their chains. -/
def deal (cs : Chains) (slot : Handle → Nat) (hs : List Handle) : Chains :=
  hs.foldl (fun cs h => cs.push (slot h) h) cs

theorem getElem?_deal (cs : Chains) (slot : Handle → Nat) (hs : List Handle) (j : Nat) :
    (cs.deal slot hs)[j]? = (cs[j]?).map ((hs.filter (slot · == j)).reverse ++ ·) := by
  induction hs generalizing cs with
  | nil => simp [deal]
  | cons h hs ih =>
    have hd : cs.deal slot (h :: hs) = (cs.push (slot h) h).deal slot hs := rfl
    rw [hd, ih, getElem?_push, Option.map_map]
    congr 1
    funext ks
    by_cases hj : slot h = j <;> simp [hj]

theorem flatten_deal_perm (cs : Chains) (slot : Handle → Nat) (hs : List Handle)
    (hslot : ∀ h ∈ hs, slot h < cs.length) :
    (cs.deal slot hs).flatten.Perm (hs ++ cs.flatten) := by
  induction hs generalizing cs with
  | nil => exact List.Perm.refl _
  | cons h hs ih =>
    have hd : cs.deal slot (h :: hs) = (cs.push (slot h) h).deal slot hs := rfl
    rw [hd]
    refine (ih (cs.push (slot h) h) fun k hk => ?_).trans ?_
    · rw [length_push]
      exact hslot k (List.mem_cons_of_mem _ hk)
    · apply ((flatten_push_perm (hslot h List.mem_cons_self) h).append_left hs).trans
      exact List.perm_middle

/-- The chains dealt out anew to `n` empty ones, each old chain from its tail. -/
def regroup (cs : Chains) (n : Nat) (slot : Handle → Nat) : Chains :=
  Chains.deal (List.replicate n []) slot (cs.map List.reverse).flatten

/-- A new chain takes its part of the old chains from the last chain to the first, each part in its
old order. -/
theorem getElem?_regroup (cs : Chains) {n : Nat} (slot : Handle → Nat) {j : Nat} (hj : j < n) :
    (cs.regroup n slot)[j]? = some (cs.reverse.flatten.filter (slot · == j)) := by
  have hr : (cs.map List.reverse).flatten.reverse = cs.reverse.flatten := by
    rw [List.reverse_flatten, List.map_map]
    simp
  rw [regroup, getElem?_deal, List.getElem?_replicate_of_lt hj, Option.map_some,
    List.append_nil, ← List.filter_reverse, hr]

theorem flatten_map_reverse_perm (cs : Chains) : (cs.map List.reverse).flatten.Perm cs.flatten := by
  induction cs with
  | nil => exact List.Perm.refl _
  | cons hs cs ih =>
    rw [List.map_cons, List.flatten_cons, List.flatten_cons]
    exact (List.reverse_perm hs).append ih

theorem flatten_regroup_perm (cs : Chains) {n : Nat} {slot : Handle → Nat}
    (hslot : ∀ h, slot h < n) : (cs.regroup n slot).flatten.Perm cs.flatten := by
  refine (flatten_deal_perm _ slot _ fun h _ => by simpa using hslot h).trans ?_
  simpa using flatten_map_reverse_perm cs

/-! ## Taking a handle out -/

theorem getElem?_without_of_ne {cs : Chains} (hn : cs.flatten.Nodup) {i j : Nat}
    {hs : List Handle} (hi : cs[i]? = some hs) {h : Handle} (hh : h ∈ hs) (hj : j ≠ i) :
    (cs.without h)[j]? = cs[j]? := by
  rw [getElem?_without]
  cases hk : cs[j]? with
  | none => rfl
  | some ks =>
    have hm : h ∉ ks := fun hm => hj (index_unique hn hk hi hm hh)
    simp [List.erase_of_not_mem hm]

theorem getElem?_without_self {cs : Chains} (hn : cs.flatten.Nodup) {i : Nat}
    {xs ys : List Handle} {h : Handle} (hi : cs[i]? = some (xs ++ h :: ys)) :
    (cs.without h)[i]? = some (xs ++ ys) := by
  have hx : h ∉ xs := by
    have := nodup_of_getElem? hn hi
    rw [List.nodup_middle, List.nodup_cons] at this
    exact fun hm => this.1 (List.mem_append_left _ hm)
  rw [getElem?_without, hi]
  simp [List.erase_append_right _ hx]

theorem without_eq_set {cs : Chains} (hn : cs.flatten.Nodup) {i : Nat} {xs ys : List Handle}
    {h : Handle} (hi : cs[i]? = some (xs ++ h :: ys)) : cs.without h = cs.set i (xs ++ ys) := by
  apply List.ext_getElem?
  intro j
  by_cases hj : j = i
  · subst hj
    rw [getElem?_without_self hn hi,
      List.getElem?_set_self (List.getElem?_eq_some_iff.mp hi).1]
  · rw [getElem?_without_of_ne hn hi (by simp) hj, List.getElem?_set_ne (Ne.symm hj)]

end Chains
end RecordIndex
