import Mathlib
import RecordIndex.Proofs.Census.Histogram

/-! # Groups of equal key

A census sorts each chain by key and splits it where the key changes. Since the sort is stable, the
group of a key holds the records with this key in the order of the chain.
-/
namespace RecordIndex
variable {α : Type}

namespace Census

def elementSizes (same : Record α → Record α → Bool) :
    List (Record α) → List (Record α) → List Nat
  | _, [] => []
  | before, r :: rest =>
    if before.any (same · r) then elementSizes same (r :: before) rest
    else (r :: rest).countP (same · r) :: elementSizes same (r :: before) rest

theorem addElements_eq (same : Record α → Record α → Bool) (before rest : List (Record α))
    (h : Histogram) :
    addElements same before rest h = h.addAll (elementSizes same before rest) := by
  induction rest generalizing before h with
  | nil => rfl
  | cons r rest ih =>
    simp only [addElements, elementSizes]
    split
    · exact ih _ _
    · exact ih _ _

/-- What is like what decides the sizes. -/
theorem elementSizes_map {β : Type} {g : Record α → Record β}
    {same : Record α → Record α → Bool} {same' : Record β → Record β → Bool}
    (hg : ∀ r s, same' (g r) (g s) = same r s) (before rest : List (Record α)) :
    elementSizes same' (before.map g) (rest.map g) = elementSizes same before rest := by
  induction rest generalizing before with
  | nil => rfl
  | cons r rest ih =>
    have hbefore : (before.map g).any (same' · (g r)) = before.any (same · r) := by
      simp only [List.any_map, Function.comp_def, hg]
    have hcount : ((r :: rest).map g).countP (same' · (g r)) = (r :: rest).countP (same · r) := by
      simp only [List.countP_map, Function.comp_def, hg]
    rw [List.map_cons] at hcount ⊢
    rw [elementSizes, elementSizes, hbefore, hcount, ← List.map_cons, ih]

/-! ## The groups of a chain -/

/-- Sorted lists of records, each of one key, in front of each other. -/
theorem eq_map_filter {gs : List (List (Record α))} (hne : [] ∉ gs)
    (hkey : ∀ g ∈ gs, ∀ r ∈ g, ∀ s ∈ g, r.key = s.key)
    (hlt : gs.Pairwise fun g g' => ∀ r ∈ g, ∀ s ∈ g', r.key < s.key) :
    ∃ ks : List UInt64, ks.Nodup ∧ (∀ key, key ∈ ks ↔ ∃ r ∈ gs.flatten, r.key = key) ∧
      gs = ks.map fun key => gs.flatten.filter (·.key == key) := by
  induction gs with
  | nil => exact ⟨[], by simp⟩
  | cons g gs ih =>
    obtain ⟨hg, hgs⟩ := List.pairwise_cons.mp hlt
    obtain ⟨ks, hn, hmem, hks⟩ := ih (fun hm => hne (List.mem_cons_of_mem _ hm))
      (fun g' hg' => hkey g' (List.mem_cons_of_mem _ hg')) hgs
    obtain ⟨r, hr⟩ := List.exists_mem_of_ne_nil g fun he => hne (he ▸ List.mem_cons_self)
    have hfirst : ∀ s ∈ g, s.key = r.key := fun s hs =>
      hkey g List.mem_cons_self s hs r hr
    have hlater : ∀ s ∈ gs.flatten, r.key < s.key := by
      intro s hs
      obtain ⟨g', hg', hs'⟩ := List.mem_flatten.mp hs
      exact hg g' hg' r hr s hs'
    have hnew : r.key ∉ ks := by
      intro hm
      obtain ⟨s, hs, he⟩ := (hmem r.key).mp hm
      exact UInt64.lt_irrefl _ (he ▸ hlater s hs)
    refine ⟨r.key :: ks, List.nodup_cons.mpr ⟨hnew, hn⟩, ?_, ?_⟩
    · intro key
      rw [List.mem_cons, hmem, List.flatten_cons]
      constructor
      · rintro (rfl | ⟨s, hs, he⟩)
        · exact ⟨r, List.mem_append_left _ hr, rfl⟩
        · exact ⟨s, List.mem_append_right _ hs, he⟩
      · rintro ⟨s, hs, he⟩
        rcases List.mem_append.mp hs with hs | hs
        · exact Or.inl (he.symm.trans (hfirst s hs))
        · exact Or.inr ⟨s, hs, he⟩
    · have hself : (g ++ gs.flatten).filter (·.key == r.key) = g := by
        rw [List.filter_append, List.filter_eq_self.mpr (by simpa using hfirst),
          List.filter_eq_nil_iff.mpr, List.append_nil]
        intro s hs
        simpa using (UInt64.ne_of_lt (hlater s hs)).symm
      have hrest : ∀ key ∈ ks, (g ++ gs.flatten).filter (·.key == key) =
          gs.flatten.filter (·.key == key) := by
        intro key hm
        rw [List.filter_append, List.filter_eq_nil_iff.mpr, List.nil_append]
        intro s hs
        have hne : s.key ≠ key := by
          rw [hfirst s hs]
          rintro rfl
          exact hnew hm
        simpa using hne
      rw [List.map_cons, List.flatten_cons, hself, List.map_congr_left hrest, ← hks]

theorem key_eq_of_isChain {g : List (Record α)} (hg : g.IsChain fun r s => r.key == s.key) :
    ∀ r ∈ g, ∀ s ∈ g, r.key = s.key := by
  have htrans : IsTrans (Record α) fun r s => (r.key == s.key) = true :=
    ⟨fun r s u hrs hsu => by simp_all⟩
  have hsymm : Std.Symm fun r s : Record α => r.key = s.key := ⟨fun _ _ => Eq.symm⟩
  have hpairwise : g.Pairwise fun r s => r.key = s.key :=
    hg.pairwise.imp fun he => by simpa using he
  intro r hr s hs
  have hself : ∀ r ∈ g, r.key = r.key := fun _ _ => rfl
  exact hpairwise.forall_of_forall hself hr hs

/-- Where the key changes in a sorted list it grows. -/
theorem pairwise_lt_of_isChain {gs : List (List (Record α))}
    (hkey : ∀ g ∈ gs, ∀ r ∈ g, ∀ s ∈ g, r.key = s.key)
    (hle : gs.flatten.Pairwise fun r s => r.key ≤ s.key)
    (hc : gs.IsChain fun g g' =>
      ∃ hg hg', ((g.getLast hg).key == (g'.head hg').key) = false) :
    gs.Pairwise fun g g' => ∀ r ∈ g, ∀ s ∈ g', r.key < s.key := by
  induction gs with
  | nil => exact .nil
  | cons g gs ih =>
    rw [List.flatten_cons, List.pairwise_append] at hle
    obtain ⟨-, hrest, hacross⟩ := hle
    refine .cons ?_ (ih (fun g' hg' => hkey g' (List.mem_cons_of_mem _ hg')) hrest hc.tail)
    intro g' hg' r hr s hs
    cases gs with
    | nil => cases hg'
    | cons g₁ gs =>
      obtain ⟨hne, hne₁, hchange⟩ := hc.rel
      have hlast := hkey g List.mem_cons_self r hr _ (List.getLast_mem hne)
      have hhead : g₁.head hne₁ ∈ (g₁ :: gs).flatten :=
        List.mem_flatten.mpr ⟨g₁, List.mem_cons_self, List.head_mem hne₁⟩
      have hle₁ := hacross r hr _ hhead
      have hlt₁ : r.key < (g₁.head hne₁).key := by
        rw [← hlast] at hchange
        exact UInt64.lt_of_le_of_ne hle₁ (by simpa using hchange)
      have hle₂ : (g₁.head hne₁).key ≤ s.key := by
        rcases List.mem_cons.mp hg' with rfl | hg'
        · exact UInt64.le_of_eq (hkey g' (by simp) _ (List.head_mem hne₁) s hs)
        · rw [List.flatten_cons, List.pairwise_append] at hrest
          exact hrest.2.2 _ (List.head_mem hne₁) s (List.mem_flatten.mpr ⟨g', hg', hs⟩)
      exact UInt64.lt_of_lt_of_le hlt₁ hle₂

theorem le_trans_key (r s u : Record α) (hrs : decide (r.key ≤ s.key) = true)
    (hsu : decide (s.key ≤ u.key) = true) : decide (r.key ≤ u.key) = true := by
  rw [decide_eq_true_eq] at hrs hsu ⊢
  exact UInt64.le_trans hrs hsu

theorem le_total_key (r s : Record α) :
    (decide (r.key ≤ s.key) || decide (s.key ≤ r.key)) = true := by
  simpa using UInt64.le_total r.key s.key

/-- The sort is stable: the records of one key keep their order. -/
theorem filter_mergeSort (chain : List (Record α)) (key : UInt64) :
    (chain.mergeSort fun r s => r.key ≤ s.key).filter (·.key == key) =
      chain.filter (·.key == key) := by
  have hsub : (chain.filter (·.key == key)).Sublist
      (chain.mergeSort fun r s => r.key ≤ s.key) := by
    apply List.sublist_mergeSort le_trans_key le_total_key
    · refine List.pairwise_of_forall_mem_list fun r hr s hs => ?_
      have hrk : r.key = key := by simpa using (List.mem_filter.mp hr).2
      have hsk : s.key = key := by simpa using (List.mem_filter.mp hs).2
      rw [hrk, hsk]
      simp
    · exact List.filter_sublist
  have hfilter := hsub.filter (·.key == key)
  rw [List.filter_filter] at hfilter
  simp only [Bool.and_self] at hfilter
  refine (hfilter.eq_of_length ?_).symm
  exact ((List.mergeSort_perm chain _).filter _).length_eq.symm

/-- A group holds the records of one key in the order of the chain. -/
theorem groups_eq (chain : List (Record α)) : ∃ ks : List UInt64, ks.Nodup ∧
    (∀ key, key ∈ ks ↔ ∃ r ∈ chain, r.key = key) ∧
      groups chain = ks.map fun key => chain.filter (·.key == key) := by
  obtain ⟨hflat, hne, hkey, hchange⟩ := List.splitBy_eq_iff.mp (Eq.refl (groups chain))
  have hkeys := fun g hg => key_eq_of_isChain (hkey g hg)
  have hle : (groups chain).flatten.Pairwise fun r s => r.key ≤ s.key := by
    rw [← hflat]
    exact (List.pairwise_mergeSort le_trans_key le_total_key chain).imp of_decide_eq_true
  obtain ⟨ks, hn, hmem, hks⟩ :=
    eq_map_filter hne hkeys (pairwise_lt_of_isChain hkeys hle hchange)
  refine ⟨ks, hn, fun key => ?_, ?_⟩
  · rw [hmem, ← hflat]
    simp
  · rw [hks]
    apply List.map_congr_left
    intro key _
    rw [← hflat, filter_mergeSort]

/-- The groups of chains that share no key are the groups of all their records. -/
theorem flatMap_groups {chains : List (List (Record α))}
    (hd : chains.Pairwise fun c c' => ∀ r ∈ c, ∀ s ∈ c', r.key ≠ s.key) :
    ∃ ks : List UInt64, ks.Nodup ∧ (∀ key, key ∈ ks ↔ ∃ r ∈ chains.flatten, r.key = key) ∧
      chains.flatMap groups = ks.map fun key => chains.flatten.filter (·.key == key) := by
  induction chains with
  | nil => exact ⟨[], by simp⟩
  | cons chain chains ih =>
    obtain ⟨hchain, hchains⟩ := List.pairwise_cons.mp hd
    obtain ⟨ks, hn, hmem, hks⟩ := ih hchains
    obtain ⟨js, hjn, hjmem, hjs⟩ := groups_eq chain
    have hapart : ∀ r ∈ chain, ∀ s ∈ chains.flatten, r.key ≠ s.key := by
      intro r hr s hs
      obtain ⟨c, hc, hs⟩ := List.mem_flatten.mp hs
      exact hchain c hc r hr s hs
    refine ⟨js ++ ks, List.nodup_append.mpr ⟨hjn, hn, ?_⟩, ?_, ?_⟩
    · intro j hj k hk
      obtain ⟨r, hr, rfl⟩ := (hjmem j).mp hj
      obtain ⟨s, hs, rfl⟩ := (hmem k).mp hk
      exact hapart r hr s hs
    · intro key
      rw [List.mem_append, hjmem, hmem, List.flatten_cons]
      simp only [List.mem_append, or_and_right, exists_or]
    · have hfirst : ∀ key ∈ js, (chain ++ chains.flatten).filter (·.key == key) =
          chain.filter (·.key == key) := by
        intro key hj
        obtain ⟨r, hr, rfl⟩ := (hjmem key).mp hj
        have hnil : chains.flatten.filter (·.key == r.key) = [] := by
          refine List.filter_eq_nil_iff.mpr fun s hs => ?_
          simpa using (hapart r hr s hs).symm
        rw [List.filter_append, hnil, List.append_nil]
      have hlater : ∀ key ∈ ks, (chain ++ chains.flatten).filter (·.key == key) =
          chains.flatten.filter (·.key == key) := by
        intro key hk
        obtain ⟨s, hs, rfl⟩ := (hmem key).mp hk
        have hnil : chain.filter (·.key == s.key) = [] := by
          refine List.filter_eq_nil_iff.mpr fun r hr => ?_
          simpa using hapart r hr s hs
        rw [List.filter_append, hnil, List.nil_append]
      rw [List.flatMap_cons, List.flatten_cons, List.map_append, List.map_congr_left hfirst,
        List.map_congr_left hlater, hjs, hks]

/-! ## The census of several chains -/

theorem addChain_eq (same : Record α → Record α → Bool) (c : Census) (chain : List (Record α)) :
    c.addChain same chain = ⟨c.chains.add chain.length,
      c.keys.addAll ((groups chain).map List.length),
      c.elements.addAll ((groups chain).flatMap (elementSizes same []))⟩ := by
  have hfold : ∀ (gs : List (List (Record α))) (h : Histogram),
      gs.foldl (fun h g => addElements same [] g h) h =
        h.addAll (gs.flatMap (elementSizes same [])) := by
    intro gs
    induction gs with
    | nil => exact fun h => rfl
    | cons g gs ih =>
      intro h
      rw [List.foldl_cons, ih, addElements_eq, List.flatMap_cons, Histogram.addAll_append]
  rw [addChain, hfold]

/-- Records that have the same keys and are alike in the same way are counted in the same way. -/
theorem addChain_map {β : Type} {g : Record α → Record β} {same : Record α → Record α → Bool}
    {same' : Record β → Record β → Bool} (hkey : ∀ r, (g r).key = r.key)
    (hg : ∀ r s, same' (g r) (g s) = same r s) (c : Census) (chain : List (Record α)) :
    c.addChain same' (chain.map g) = c.addChain same chain := by
  obtain ⟨ks, hn, hmem, hks⟩ := groups_eq chain
  obtain ⟨ks', hn', hmem', hks'⟩ := groups_eq (chain.map g)
  have hperm : ks'.Perm ks := by
    rw [List.perm_ext_iff_of_nodup hn' hn]
    intro key
    simp only [hmem', hmem, List.mem_map, exists_exists_and_eq_and, hkey]
  have hfilter : ∀ key, (chain.map g).filter (·.key == key) =
      (chain.filter (·.key == key)).map g := by
    intro key
    rw [List.filter_map]
    simp only [Function.comp_def, hkey]
  have hsizes : ∀ rs, elementSizes same' [] (rs.map g) = elementSizes same [] rs :=
    elementSizes_map hg []
  rw [addChain_eq, addChain_eq, hks, hks', List.length_map]
  simp only [List.map_map, List.flatMap_map, Function.comp_def, hfilter, List.length_map, hsizes]
  congr 1
  · exact Histogram.addAll_perm (hperm.map _) _
  · exact Histogram.addAll_perm (hperm.flatMap_right _) _

theorem foldl_addChain (same : Record α → Record α → Bool) (chains : List (List (Record α)))
    (c : Census) :
    chains.foldl (addChain same) c = ⟨c.chains.addAll (chains.map List.length),
      c.keys.addAll ((chains.flatMap groups).map List.length),
      c.elements.addAll ((chains.flatMap groups).flatMap (elementSizes same []))⟩ := by
  induction chains generalizing c with
  | nil => rfl
  | cons chain chains ih =>
    rw [List.foldl_cons, ih, addChain_eq, List.flatMap_cons, List.map_append, List.flatMap_append,
      Histogram.addAll_append, Histogram.addAll_append]
    rfl

end Census
end RecordIndex
