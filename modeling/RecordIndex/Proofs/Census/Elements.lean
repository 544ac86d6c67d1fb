import Mathlib
import RecordIndex.Proofs.Census.Groups

/-! # Elements of a census

A record like none before it leads its element. The leaders decide the sizes that are counted, and
it makes no difference whether the records are gone through key by key or all in one scan. If being
alike is an equivalence, every class has a single leader and is counted with all its members.
-/
namespace RecordIndex.Census
variable {α β : Type}

/-! ## Leaders -/

/-- Those of the list that are like none before them, be it in the list or in `before`. -/
def leaders (like : β → β → Bool) : List β → List β → List β
  | _, [] => []
  | before, x :: rest =>
    if before.any (like · x) then leaders like (x :: before) rest
    else x :: leaders like (x :: before) rest

section Leaders
variable {like : β → β → Bool} {before rest : List β}

theorem leaders_sublist (like : β → β → Bool) (before rest : List β) :
    (leaders like before rest).Sublist rest := by
  induction rest generalizing before with
  | nil => exact .refl _
  | cons x rest ih =>
    rw [leaders]
    split
    · exact (ih _).cons x
    · exact (ih _).cons_cons x

theorem not_like_of_mem_leaders {l : β} (hl : l ∈ leaders like before rest) :
    ∀ b ∈ before, like b l = false := by
  induction rest generalizing before with
  | nil => cases hl
  | cons x rest ih =>
    intro b hb
    rw [leaders] at hl
    split at hl
    · exact ih hl b (List.mem_cons_of_mem _ hb)
    · rename_i hx
      rcases List.mem_cons.mp hl with rfl | hl
      · simpa using fun hlike => hx (List.any_eq_true.mpr ⟨b, hb, hlike⟩)
      · exact ih hl b (List.mem_cons_of_mem _ hb)

theorem pairwise_leaders (like : β → β → Bool) (before rest : List β) :
    (leaders like before rest).Pairwise fun x y => like x y = false := by
  induction rest generalizing before with
  | nil => exact .nil
  | cons x rest ih =>
    rw [leaders]
    split
    · exact ih _
    · exact .cons (fun l hl => not_like_of_mem_leaders hl x List.mem_cons_self) (ih _)

/-- What is like something before it is related to a leader, if those alike are related. -/
theorem exists_leader {related : β → β → Prop} (hrel : Equivalence related)
    (hlike : ∀ x y, like x y = true → related x y) (before : List β) {x : β} (hx : x ∈ rest) :
    (∃ b ∈ before, related b x) ∨ ∃ l ∈ leaders like before rest, related l x := by
  induction rest generalizing before with
  | nil => cases hx
  | cons y rest ih =>
    -- the head is related to one before it or leads itself
    have hhead : (∃ b ∈ before, related b y) ∨ y ∈ leaders like before (y :: rest) := by
      rw [leaders]
      split
      · rename_i hy
        obtain ⟨b, hb, hby⟩ := List.any_eq_true.mp hy
        exact Or.inl ⟨b, hb, hlike b y hby⟩
      · exact Or.inr List.mem_cons_self
    have hrest : ∀ l ∈ leaders like (y :: before) rest, l ∈ leaders like before (y :: rest) := by
      intro l hl
      rw [leaders]
      split
      · exact hl
      · exact List.mem_cons_of_mem _ hl
    have hthrough : related y x →
        (∃ b ∈ before, related b x) ∨ ∃ l ∈ leaders like before (y :: rest), related l x := by
      intro hyx
      rcases hhead with ⟨b, hb, hby⟩ | hy
      · exact Or.inl ⟨b, hb, hrel.trans hby hyx⟩
      · exact Or.inr ⟨y, hy, hyx⟩
    rcases List.mem_cons.mp hx with rfl | hx
    · exact hthrough (hrel.refl _)
    · rcases ih (y :: before) hx with ⟨b, hb, hbx⟩ | ⟨l, hl, hlx⟩
      · rcases List.mem_cons.mp hb with rfl | hb
        · exact hthrough hbx
        · exact Or.inl ⟨b, hb, hbx⟩
      · exact Or.inr ⟨l, hrest l hl, hlx⟩

theorem leaders_eq_self (hnot : ∀ x ∈ before ++ rest, ∀ y ∈ rest, like x y = false) :
    leaders like before rest = rest := by
  induction rest generalizing before with
  | nil => rfl
  | cons y rest ih =>
    have hy : before.any (like · y) = false := by
      apply List.any_eq_false.mpr
      intro b hb
      rw [hnot b (List.mem_append_left _ hb) y List.mem_cons_self]
      exact Bool.false_ne_true
    rw [leaders, hy, if_neg Bool.false_ne_true, ih]
    intro x hx z hz
    exact hnot x (List.perm_middle.mem_iff.mpr hx) z (List.mem_cons_of_mem _ hz)

/-- A leader is counted with all that are like it: none of these is in front of it. -/
theorem elementSizes_map_eq (same : Record α → Record α → Bool) (g : β → Record α)
    (before rest : List β) :
    elementSizes same (before.map g) (rest.map g) =
      (leaders (fun x y => same (g x) (g y)) before rest).map fun l =>
        rest.countP fun x => same (g x) (g l) := by
  induction rest generalizing before with
  | nil => rfl
  | cons x rest ih =>
    have hany : (before.map g).any (same · (g x)) = before.any fun b => same (g b) (g x) := by
      rw [List.any_map]
      rfl
    have hcount : ((x :: rest).map g).countP (same · (g x)) =
        (x :: rest).countP fun y => same (g y) (g x) := by
      rw [List.countP_map]
      rfl
    have hlater : (leaders (fun x y => same (g x) (g y)) (x :: before) rest).map
          (fun l => rest.countP fun y => same (g y) (g l)) =
        (leaders (fun x y => same (g x) (g y)) (x :: before) rest).map
          fun l => (x :: rest).countP fun y => same (g y) (g l) := by
      apply List.map_congr_left
      intro l hl
      have hxl : same (g x) (g l) = false := not_like_of_mem_leaders hl x List.mem_cons_self
      rw [List.countP_cons_of_neg (by rw [hxl]; exact Bool.false_ne_true)]
    have hnext := ih (x :: before)
    rw [List.map_cons] at hcount hnext ⊢
    rw [elementSizes, leaders, hany, hcount, hnext, hlater]
    split <;> rfl

theorem elementSizes_eq (same : Record α → Record α → Bool) (rs : List (Record α)) :
    elementSizes same [] rs = (leaders same [] rs).map fun l => rs.countP (same · l) := by
  simpa only [List.map_id, List.map_nil, id] using elementSizes_map_eq same id [] rs

/-- The places of a list take the part of its records. -/
theorem elementSizes_places (same : Record α → Record α → Bool) (rs : List (Record α)) :
    elementSizes same [] rs =
      (leaders (fun i j : Fin rs.length => same (rs.get i) (rs.get j)) []
        (List.finRange rs.length)).map
          fun l => (List.finRange rs.length).countP fun i => same (rs.get i) (rs.get l) := by
  have hplaces : (List.finRange rs.length).map rs.get = rs := List.map_get_finRange rs
  have hsizes := elementSizes_map_eq same rs.get [] (List.finRange rs.length)
  rwa [List.map_nil, hplaces] at hsizes

end Leaders

/-! ## Key by key or all at once -/

def sameElement (same : Record α → Record α → Bool) (r s : Record α) : Bool :=
  r.key == s.key && same r s

/-- Only records of its key decide whether a record leads. -/
theorem leaders_filter (same : Record α → Record α → Bool) (key : UInt64)
    (before rest : List (Record α)) :
    leaders same (before.filter (·.key == key)) (rest.filter (·.key == key)) =
      (leaders (sameElement same) before rest).filter (·.key == key) := by
  induction rest generalizing before with
  | nil => rfl
  | cons r rest ih =>
    have hnext := ih (r :: before)
    by_cases hr : r.key = key
    · have hkept : ∀ rs : List (Record α),
          (r :: rs).filter (·.key == key) = r :: rs.filter (·.key == key) :=
        fun rs => List.filter_cons_of_pos (by simpa using hr)
      have hany : (before.filter (·.key == key)).any (same · r) =
          before.any (sameElement same · r) := by
        rw [List.any_filter, ← hr]
        rfl
      rw [hkept] at hnext ⊢
      rw [leaders, leaders, hany, hnext]
      split
      · rfl
      · rw [hkept]
    · have hdropped : ∀ rs : List (Record α),
          (r :: rs).filter (·.key == key) = rs.filter (·.key == key) :=
        fun rs => List.filter_cons_of_neg (by simpa using hr)
      rw [hdropped] at hnext ⊢
      rw [hnext, leaders]
      split
      · rfl
      · rw [hdropped]

/-- Records taken key by key are all records. -/
theorem flatMap_filter_perm {ks : List UInt64} (hn : ks.Nodup) {rs : List (Record α)}
    (hks : ∀ r ∈ rs, r.key ∈ ks) : (ks.flatMap fun key => rs.filter (·.key == key)).Perm rs := by
  induction ks generalizing rs with
  | nil =>
    have hrs : rs = [] := List.eq_nil_iff_forall_not_mem.mpr fun r hr => by simpa using hks r hr
    rw [hrs]
    exact .refl _
  | cons key ks ih =>
    obtain ⟨hkey, hn⟩ := List.nodup_cons.mp hn
    have hothers : ∀ key' ∈ ks, rs.filter (·.key == key') =
        (rs.filter fun r => !(r.key == key)).filter (·.key == key') := by
      intro key' hkey'
      have hne : key' ≠ key := fun he => hkey (he ▸ hkey')
      rw [List.filter_filter]
      apply List.filter_congr
      intro r _
      by_cases hr : r.key = key' <;> simp [hr, hne]
    have hrest : ∀ r ∈ rs.filter fun r => !(r.key == key), r.key ∈ ks := by
      intro r hr
      obtain ⟨hr, hne⟩ := List.mem_filter.mp hr
      exact (List.mem_cons.mp (hks r hr)).resolve_left (by simpa using hne)
    rw [List.flatMap_cons, List.flatMap_congr hothers]
    exact ((ih hn hrest).append_left _).trans (List.filter_append_perm _ rs)

/-- The sizes found among the records of each key are those that a scan of all records finds. -/
theorem flatMap_elementSizes_perm (same : Record α → Record α → Bool) {ks : List UInt64}
    (hn : ks.Nodup) {rs : List (Record α)} (hks : ∀ r ∈ rs, r.key ∈ ks) :
    (ks.flatMap fun key => elementSizes same [] (rs.filter (·.key == key))).Perm
      (elementSizes (sameElement same) [] rs) := by
  have hkey : ∀ key, elementSizes same [] (rs.filter (·.key == key)) =
      ((leaders (sameElement same) [] rs).filter (·.key == key)).map fun l =>
        rs.countP (sameElement same · l) := by
    intro key
    rw [elementSizes_eq, ← leaders_filter, List.filter_nil]
    apply List.map_congr_left
    intro l hl
    have hl' := (leaders_sublist _ _ _).subset hl
    have hlkey : l.key = key := by simpa using (List.mem_filter.mp hl').2
    rw [List.countP_filter, ← hlkey]
    apply List.countP_congr
    intro r _
    rw [sameElement, Bool.and_comm]
  rw [elementSizes_eq, List.flatMap_congr fun key _ => hkey key, ← List.map_flatMap]
  apply List.Perm.map
  exact flatMap_filter_perm hn fun l hl => hks l ((leaders_sublist _ _ _).subset hl)

/-- A chain that is counted group by group is counted as one scan of it does, in which a record is
compared with all records of the chain. -/
theorem elements_addChain (same : Record α → Record α → Bool) (c : Census)
    (chain : List (Record α)) :
    (c.addChain same chain).elements =
      c.elements.addAll (elementSizes (sameElement same) [] chain) := by
  obtain ⟨ks, hn, hmem, hks⟩ := groups_eq chain
  rw [addChain_eq, hks, List.flatMap_map]
  exact Histogram.addAll_perm
    (flatMap_elementSizes_perm same hn fun r hr => (hmem _).mpr ⟨r, hr, rfl⟩) _

/-! ## Bounds for any comparator -/

section Bounds
variable (same : Record α → Record α → Bool) (rs : List (Record α))

def keysOf (rs : List (Record α)) : Multiset UInt64 := rs.map Record.key

theorem countP_keysOf (rs : List (Record α)) (p : UInt64 → Prop) [DecidablePred p] :
    (keysOf rs).countP p = rs.countP fun r => p r.key := by
  rw [keysOf, Multiset.coe_countP, List.countP_map]
  rfl

/-- The first record of a key leads, so there are at least as many leaders as keys. -/
theorem card_keysOf_le :
    (keysOf rs).toFinset.card ≤ (leaders (sameElement same) [] rs).length := by
  have hkey : Equivalence fun r s : Record α => r.key = s.key :=
    ⟨fun _ => rfl, Eq.symm, Eq.trans⟩
  have hlike : ∀ r s, sameElement same r s = true → r.key = s.key := by
    intro r s hrs
    rw [sameElement, Bool.and_eq_true, beq_iff_eq] at hrs
    exact hrs.1
  have hsub : (keysOf rs).toFinset ⊆
      ((leaders (sameElement same) [] rs).map Record.key).toFinset := by
    intro key hkey'
    obtain ⟨r, hr, rfl⟩ := List.mem_map.mp (Multiset.mem_toFinset.mp hkey')
    rcases exists_leader hkey hlike [] hr with ⟨b, hb, -⟩ | ⟨l, hl, hlr⟩
    · cases hb
    · exact List.mem_toFinset.mpr (List.mem_map.mpr ⟨l, hl, hlr⟩)
  calc (keysOf rs).toFinset.card
      ≤ ((leaders (sameElement same) [] rs).map Record.key).toFinset.card := Finset.card_le_card hsub
    _ ≤ ((leaders (sameElement same) [] rs).map Record.key).length := List.toFinset_card_le _
    _ = (leaders (sameElement same) [] rs).length := List.length_map _

/-- An element of no records is led by a record that the comparator tells from itself. -/
theorem countP_elementSizes_le :
    (elementSizes (sameElement same) [] rs).countP (· = 0) ≤ rs.countP fun r => !same r r := by
  have hself : ∀ l ∈ leaders (sameElement same) [] rs,
      rs.countP (sameElement same · l) = 0 → same l l = false := by
    intro l hl hzero
    have hnot := List.countP_eq_zero.mp hzero l ((leaders_sublist _ _ _).subset hl)
    simpa [sameElement] using hnot
  rw [elementSizes_eq, List.countP_map]
  calc (leaders (sameElement same) [] rs).countP _
      ≤ (leaders (sameElement same) [] rs).countP fun r => !same r r := by
        apply List.countP_mono_left
        intro l hl hzero
        rw [hself l hl (by simpa using hzero), Bool.not_false]
    _ ≤ rs.countP fun r => !same r r := (leaders_sublist _ _ _).countP_le

variable {same rs}

/-- If no record is like another, every record leads an element of no records. -/
theorem elementSizes_of_never (hnever : ∀ r ∈ rs, ∀ s ∈ rs, same r s = false) :
    elementSizes (sameElement same) [] rs = List.replicate rs.length 0 := by
  have hnot : ∀ r ∈ rs, ∀ s ∈ rs, sameElement same r s = false := by
    intro r hr s hs
    rw [sameElement, hnever r hr s hs, Bool.and_false]
  rw [elementSizes_eq, leaders_eq_self hnot, List.eq_replicate_iff, List.length_map]
  refine ⟨rfl, fun n hn => ?_⟩
  obtain ⟨s, hs, rfl⟩ := List.mem_map.mp hn
  rw [List.countP_eq_zero]
  intro r hr
  rw [hnot r hr s hs]
  exact Bool.false_ne_true

end Bounds

/-! ## Classes -/

section Classes
variable {γ : Type} [DecidableEq γ] {f : β → γ} {like : β → β → Bool}

/-- If those alike are those of one class, every class has one leader, and this is counted with all
members of the class. -/
theorem addAll_leaders (hlike : ∀ x y, like x y = true ↔ f x = f y) (xs : List β) :
    let classes : Multiset γ := xs.map f
    Histogram.empty.addAll ((leaders like [] xs).map fun l => xs.countP (like · l)) =
        .bySize classes.toFinset classes.count ∧
      (leaders like [] xs).length = classes.toFinset.card := by
  intro classes
  have hnodup : ((leaders like [] xs).map f).Nodup := by
    apply (pairwise_leaders like [] xs).map
    intro x y hxy he
    rw [(hlike x y).mpr he] at hxy
    cases hxy
  have hclasses : ((leaders like [] xs).map f).toFinset = classes.toFinset := by
    have hf : Equivalence fun x y => f x = f y := ⟨fun _ => rfl, Eq.symm, Eq.trans⟩
    ext q
    rw [List.mem_toFinset, Multiset.mem_toFinset, Multiset.mem_coe, List.mem_map, List.mem_map]
    constructor
    · rintro ⟨l, hl, rfl⟩
      exact ⟨l, (leaders_sublist _ _ _).subset hl, rfl⟩
    · rintro ⟨x, hx, rfl⟩
      rcases exists_leader hf (fun x y => (hlike x y).mp) [] hx with
        ⟨b, hb, -⟩ | ⟨l, hl, hlx⟩
      · cases hb
      · exact ⟨l, hl, hlx⟩
  have hsize : ∀ l, xs.countP (like · l) = classes.count (f l) := by
    intro l
    rw [Multiset.coe_count, List.count, List.countP_map]
    apply List.countP_congr
    intro x _
    rw [hlike, Function.comp_apply, beq_iff_eq]
  constructor
  · rw [← hclasses, ← Histogram.addAll_map hnodup, List.map_map]
    simp only [hsize, Function.comp_def]
  · rw [← hclasses, List.toFinset_card_of_nodup hnodup, List.length_map]

end Classes

/-- Under the comparator that accepts all, the elements are the keys. -/
theorem addAll_elementSizes_true (rs : List (Record α)) :
    Histogram.empty.addAll (elementSizes (sameElement fun _ _ => true) [] rs) =
      .bySize (keysOf rs).toFinset (keysOf rs).count := by
  have hlike : ∀ r s : Record α, sameElement (fun _ _ => true) r s = true ↔ r.key = s.key := by
    intro r s
    rw [sameElement, Bool.and_true, beq_iff_eq]
  rw [elementSizes_eq, (addAll_leaders hlike rs).1, keysOf]

section Elements
variable {rs : List (Record α)} {same : Record α → Record α → Bool}

/-- The places of a list whose records are the same element, by a comparator that is an equivalence
on these records. -/
def elementSetoid (hsame : Equivalence fun i j : Fin rs.length => same (rs.get i) (rs.get j) = true) :
    Setoid (Fin rs.length) where
  r i j := (rs.get i).key = (rs.get j).key ∧ same (rs.get i) (rs.get j) = true
  iseqv :=
    { refl := fun i => ⟨rfl, hsame.refl i⟩
      symm := fun h => ⟨h.1.symm, hsame.symm h.2⟩
      trans := fun h h' => ⟨h.1.trans h'.1, hsame.trans h.2 h'.2⟩ }

variable (hsame : Equivalence fun i j : Fin rs.length => same (rs.get i) (rs.get j) = true)

instance : DecidableRel (elementSetoid hsame).r := fun i j =>
  inferInstanceAs <| Decidable <|
    (rs.get i).key = (rs.get j).key ∧ same (rs.get i) (rs.get j) = true

def elementSize (q : Quotient (elementSetoid hsame)) : Nat :=
  (Finset.univ.filter fun i => Quotient.mk _ i = q).card

/-- The elements that are counted are the classes, each with the number of its records. -/
theorem addAll_elementSizes :
    Histogram.empty.addAll (elementSizes (sameElement same) [] rs) =
        .bySize Finset.univ (elementSize hsame) ∧
      (elementSizes (sameElement same) [] rs).length =
        Fintype.card (Quotient (elementSetoid hsame)) := by
  let classOf : Fin rs.length → Quotient (elementSetoid hsame) := Quotient.mk _
  let classes : Multiset (Quotient (elementSetoid hsame)) := (List.finRange rs.length).map classOf
  have hlike : ∀ i j : Fin rs.length,
      sameElement same (rs.get i) (rs.get j) = true ↔ classOf i = classOf j := by
    intro i j
    rw [sameElement, Bool.and_eq_true, beq_iff_eq]
    exact (Quotient.eq (r := elementSetoid hsame)).symm
  have hall : classes.toFinset = Finset.univ := by
    apply Finset.eq_univ_of_forall
    intro q
    obtain ⟨i, rfl⟩ := q.exists_rep
    exact Multiset.mem_toFinset.mpr (List.mem_map.mpr ⟨i, List.mem_finRange i, rfl⟩)
  have hcount : classes.count = elementSize hsame := by
    funext q
    rw [elementSize, ← List.toFinset_finRange,
      Histogram.card_filter_toFinset (List.nodup_finRange _), Multiset.coe_count, List.count,
      List.countP_map]
    rfl
  obtain ⟨hhistogram, hlength⟩ := addAll_leaders hlike (List.finRange rs.length)
  rw [elementSizes_places, List.length_map, hhistogram, hlength]
  constructor
  · rw [← hall, ← hcount]
  · rw [Fintype.card, ← hall]

/-- Elements that correspond one to one, record by record, are counted in the same way. -/
theorem bySize_elementSize_congr {rs' : List (Record β)} {same' : Record β → Record β → Bool}
    {hsame' : Equivalence fun i j : Fin rs'.length => same' (rs'.get i) (rs'.get j) = true}
    (e : Fin rs.length ≃ Fin rs'.length)
    (he : ∀ i j, elementSetoid hsame i j ↔ elementSetoid hsame' (e i) (e j)) :
    Histogram.bySize Finset.univ (elementSize hsame') =
      .bySize Finset.univ (elementSize hsame) := by
  apply Histogram.bySize_equiv (Quotient.congr e he)
  intro q
  obtain ⟨i, rfl⟩ := q.exists_rep
  rw [elementSize, elementSize]
  refine (Finset.card_equiv e fun j => ?_).symm
  simp only [Finset.mem_filter, Finset.mem_univ, true_and, Quotient.congr_mk, Quotient.eq]
  exact he j i

end Elements

end RecordIndex.Census
