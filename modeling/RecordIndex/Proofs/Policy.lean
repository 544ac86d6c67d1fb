import Mathlib
import RecordIndex.Policy

/-! # Policies that are accepted

A table takes a policy for granted whose capacities ascend from above zero, with a load of at least
one. These are the policies that pass, and of the capacities of such a policy the next one is the
least that is larger.
-/
namespace RecordIndex.Policy
variable {p : Policy} {c : UInt64} {n : Nat}

structure Ascends (p : Policy) : Prop where
  nonempty : p.capacities ≠ []
  positive : ∀ c ∈ p.capacities, 0 < c.toNat
  ascending : p.capacities.Pairwise fun c d => c.toNat < d.toNat
  load : 0 < p.maxLoad.toNat

theorem toNat_pos : 0 < c.toNat ↔ c ≠ 0 := by
  rw [← UInt64.pos_iff_ne_zero, UInt64.lt_iff_toNat_lt]
  rfl

/-- Where neighbours ascend, all entries do. -/
theorem isChain_iff_ascending {cs : List UInt64} :
    (cs.IsChain fun c d => c.toNat < d.toNat) ↔ cs.Pairwise fun c d => c.toNat < d.toNat := by
  have htrans : IsTrans UInt64 fun c d => c.toNat < d.toNat := ⟨fun _ _ _ => Nat.lt_trans⟩
  exact List.isChain_iff_pairwise

/-- The entries behind a positive one are larger. -/
theorem positive_of_ascending {cs : List UInt64} (hc : 0 < c.toNat)
    (hasc : (c :: cs).Pairwise fun c d => c.toNat < d.toNat) : ∀ d ∈ c :: cs, 0 < d.toNat := by
  intro d hd
  rcases List.mem_cons.mp hd with rfl | hd
  · exact hc
  · exact hc.trans ((List.pairwise_cons.mp hasc).1 d hd)

theorem firstDescent?_eq_none (cs : List UInt64) :
    firstDescent? cs = none ↔ cs.Pairwise fun c d => c.toNat < d.toNat := by
  have hchain : firstDescent? cs = none ↔ cs.IsChain fun c d => c.toNat < d.toNat := by
    fun_induction firstDescent? cs with
    | case1 a b rest hba =>
      have hnot : ¬ a.toNat < b.toNat := Nat.not_lt.mpr (UInt64.le_iff_toNat_le.mp hba)
      simp [hnot]
    | case2 a b rest hba ih =>
      have hlt : a.toNat < b.toNat := Nat.not_le.mp fun h => hba (UInt64.le_iff_toNat_le.mpr h)
      simp [ih, hlt]
    | case3 cs hshort =>
      match cs with
      | [] | [a] => simp
      | a :: b :: rest => exact absurd rfl (hshort a b rest)
  rw [hchain, isChain_iff_ascending]

theorem Ascends.defect? (hp : p.Ascends) : p.defect? = none := by
  obtain ⟨capacities, maxLoad⟩ := p
  cases capacities with
  | nil => exact absurd rfl hp.nonempty
  | cons c rest =>
    have hc : c ≠ 0 := toNat_pos.mp (hp.positive c List.mem_cons_self)
    have hdescent := (firstDescent?_eq_none _).mpr hp.ascending
    simp only at hdescent
    simp only [Policy.defect?, if_neg hc, hdescent, if_neg (toNat_pos.mp hp.load)]

theorem ascends_of_defect? (hd : p.defect? = none) : p.Ascends := by
  obtain ⟨capacities, maxLoad⟩ := p
  cases capacities with
  | nil => cases hd
  | cons c rest =>
    simp only [defect?] at hd
    split at hd
    · cases hd
    · rename_i hc
      split at hd
      · cases hd
      · rename_i hdescent
        split at hd
        · cases hd
        · rename_i hload
          have hasc := (firstDescent?_eq_none _).mp hdescent
          exact ⟨by simp, positive_of_ascending (toNat_pos.mpr hc) hasc, hasc, toNat_pos.mpr hload⟩

theorem validate_iff : p.validate = .ok () ↔ p.Ascends := by
  rw [validate]
  cases hd : p.defect? with
  | none => exact ⟨fun _ => ascends_of_defect? hd, fun _ => rfl⟩
  | some d =>
    refine ⟨nofun, fun hp => ?_⟩
    rw [hp.defect?] at hd
    cases hd

theorem ascends_standard : standard.Ascends := ascends_of_defect? (by decide)

theorem next?_eq_none : p.next? n = none ↔ ∀ c ∈ p.capacities, c.toNat ≤ n := by
  simp [next?]

/-- The next capacity is larger, and no capacity lies between. -/
theorem Ascends.next? (hp : p.Ascends) (hn : p.next? n = some c) :
    c ∈ p.capacities ∧ n < c.toNat ∧ ∀ d ∈ p.capacities, d.toNat < c.toNat → d.toNat ≤ n := by
  obtain ⟨hlt, before, rest, he, hbefore⟩ := List.find?_eq_some_iff_append.mp hn
  have hasc := hp.ascending
  rw [he] at hasc ⊢
  refine ⟨by simp, by simpa using hlt, fun d hd hdc => ?_⟩
  rcases List.mem_append.mp hd with hd | hd
  · simpa using hbefore d hd
  · have hle : c.toNat ≤ d.toNat := by
      rcases List.mem_cons.mp hd with rfl | hd
      · exact le_rfl
      · exact ((List.pairwise_cons.mp (List.pairwise_append.mp hasc).2.1).1 d hd).le
    omega

/-- The next capacity is the least one that is larger. -/
theorem Ascends.next?_eq_some_iff (hp : p.Ascends) :
    p.next? n = some c ↔ IsLeast {m | ∃ d ∈ p.capacities, d.toNat = m ∧ n < m} c.toNat := by
  have hleast : ∀ {d : UInt64}, p.next? n = some d →
      IsLeast {m | ∃ d ∈ p.capacities, d.toNat = m ∧ n < m} d.toNat := by
    intro d hd
    obtain ⟨hmem, hlt, hgap⟩ := hp.next? hd
    refine ⟨⟨d, hmem, rfl, hlt⟩, ?_⟩
    rintro m ⟨e, he, rfl, hne⟩
    by_contra hlt'
    have hle := hgap e he (Nat.not_le.mp hlt')
    omega
  constructor
  · exact hleast
  · intro hc
    obtain ⟨d, hd, hdc, hlt⟩ := hc.1
    cases hnext : p.next? n with
    | none =>
      have hle := next?_eq_none.mp hnext d hd
      omega
    | some e =>
      have he : e.toNat = c.toNat := (hleast hnext).unique hc
      rw [UInt64.toNat_inj.mp he]

theorem Ascends.initial? (hp : p.Ascends) :
    ∃ c, p.initial? = some c ∧ c ∈ p.capacities ∧ ∀ d ∈ p.capacities, c.toNat ≤ d.toNat := by
  obtain ⟨c, rest, he⟩ := List.exists_cons_of_ne_nil hp.nonempty
  have hasc := hp.ascending
  rw [he] at hasc
  refine ⟨c, by rw [Policy.initial?, he, List.head?_cons], by simp [he], fun d hd => ?_⟩
  rw [he] at hd
  rcases List.mem_cons.mp hd with rfl | hd
  · exact le_rfl
  · exact ((List.pairwise_cons.mp hasc).1 d hd).le

theorem Ascends.ceiling? (hp : p.Ascends) :
    ∃ c, p.ceiling? = some c ∧ c ∈ p.capacities ∧ ∀ d ∈ p.capacities, d.toNat ≤ c.toNat := by
  rcases List.eq_nil_or_concat p.capacities with he | ⟨rest, c, he⟩
  · exact absurd he hp.nonempty
  · have hasc := hp.ascending
    rw [he] at hasc
    refine ⟨c, by rw [Policy.ceiling?, he]; simp, by simp [he], fun d hd => ?_⟩
    rw [he, List.concat_eq_append] at hd
    rcases List.mem_append.mp hd with hd | hd
    · rw [List.concat_eq_append] at hasc
      exact ((List.pairwise_append.mp hasc).2.2 d hd c (by simp)).le
    · rw [List.mem_singleton.mp hd]

end RecordIndex.Policy
