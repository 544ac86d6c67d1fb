import Mathlib
import RecordIndex.Proofs.Policy

/-! # The climb through the capacities

A table that keeps growing starts at the first capacity of its policy and moves on to the next one
as long as there is one. It comes through all of them in their order exactly if they ascend, and
that is what validation finds out, though it only compares neighbours.
-/
namespace RecordIndex.Policy
variable {p : Policy} {a b c : UInt64} {cs : List UInt64} {k : Nat}

/-! ## The pair that is reported -/

theorem firstDescent?_cons_cons (a b : UInt64) (rest : List UInt64) :
    firstDescent? (a :: b :: rest) =
      if b.toNat ≤ a.toNat then some (a, b) else firstDescent? (b :: rest) := by
  simp only [firstDescent?, UInt64.le_iff_toNat_le]

/-- The pair does not ascend, and there is none before it that does not. -/
theorem firstDescent?_eq_some_iff : firstDescent? cs = some (a, b) ↔
    ∃ before after, cs = before ++ a :: b :: after ∧
      (before ++ [a]).IsChain (fun c d => c.toNat < d.toNat) ∧ b.toNat ≤ a.toNat := by
  constructor
  · intro hd
    fun_induction firstDescent? cs with
    | case1 x y rest hyx =>
      obtain ⟨rfl, rfl⟩ := Prod.mk.inj (Option.some.inj hd)
      exact ⟨[], rest, rfl, List.isChain_singleton _, UInt64.le_iff_toNat_le.mp hyx⟩
    | case2 x y rest hyx ih =>
      obtain ⟨before, after, he, hasc, hle⟩ := ih hd
      have hxy : x.toNat < y.toNat := Nat.not_le.mp fun h => hyx (UInt64.le_iff_toNat_le.mpr h)
      refine ⟨x :: before, after, by rw [he, List.cons_append], ?_, hle⟩
      -- behind `x` stands the next of those before the pair, or the pair itself
      cases before with
      | nil =>
        obtain rfl : y = a := (List.cons.inj he).1
        simpa using hxy
      | cons z before =>
        obtain rfl : y = z := (List.cons.inj he).1
        exact List.IsChain.cons_cons hxy hasc
    | case3 => cases hd
  · rintro ⟨before, after, rfl, hasc, hle⟩
    induction before with
    | nil => rw [List.nil_append, firstDescent?_cons_cons, if_pos hle]
    | cons x before ih =>
      cases before with
      | nil =>
        have hxa : x.toNat < a.toNat := by simpa using hasc
        rw [List.cons_append, List.nil_append, firstDescent?_cons_cons, if_neg hxa.not_ge]
        exact ih (List.isChain_singleton _)
      | cons y before =>
        obtain ⟨hxy, hasc⟩ := List.isChain_cons_cons.mp hasc
        rw [List.cons_append, List.cons_append, firstDescent?_cons_cons, if_neg hxy.not_ge]
        exact ih hasc

theorem defect?_of_firstDescent? (hc : p.initial? = some c) (hpos : 0 < c.toNat)
    (hd : firstDescent? p.capacities = some (a, b)) : p.defect? = some (.descends a b) := by
  obtain ⟨capacities, maxLoad⟩ := p
  cases capacities with
  | nil => cases hc
  | cons d rest =>
    obtain rfl : d = c := Option.some.inj hc
    simp only at hd
    simp only [defect?, if_neg (toNat_pos.mp hpos), hd]

/-! ## Growing again and again -/

def climb? (p : Policy) : Nat → Option UInt64
  | 0 => p.initial?
  | k + 1 => (p.climb? k).bind fun c => p.next? c.toNat

/-- In an ascending sequence the first entry above one of the entries is the one behind it. -/
theorem find?_above (hasc : cs.Pairwise fun c d => c.toNat < d.toNat) (hc : cs[k]? = some c) :
    cs.find? (c.toNat < ·.toNat) = cs[k + 1]? := by
  induction cs generalizing k with
  | nil => cases hc
  | cons d ds ih =>
    obtain ⟨hd, hds⟩ := List.pairwise_cons.mp hasc
    cases k with
    | zero =>
      obtain rfl : d = c := Option.some.inj hc
      rw [List.find?_cons_of_neg (by simp), List.getElem?_cons_succ]
      cases ds with
      | nil => rfl
      | cons e es => exact List.find?_cons_of_pos (decide_eq_true (hd e List.mem_cons_self))
    | succ k =>
      rw [List.getElem?_cons_succ] at hc ⊢
      have hlt : d.toNat < c.toNat := hd c (List.mem_of_getElem? hc)
      rw [List.find?_cons_of_neg (by simpa using hlt.le)]
      exact ih hds hc

theorem climb?_eq (hasc : p.capacities.Pairwise fun c d => c.toNat < d.toNat) (k : Nat) :
    p.climb? k = p.capacities[k]? := by
  induction k with
  | zero => exact List.head?_eq_getElem?
  | succ k ih =>
    rw [climb?, ih]
    cases hc : p.capacities[k]? with
    | none =>
      have hlen : p.capacities.length ≤ k := List.getElem?_eq_none_iff.mp hc
      rw [List.getElem?_eq_none (hlen.trans k.le_succ), Option.bind_none]
    | some c => exact find?_above hasc hc

/-- A climb through all the capacities shows that they ascend, for a step leads upwards. -/
theorem ascending_of_climb? (hall : ∀ k, p.climb? k = p.capacities[k]?) :
    p.capacities.Pairwise fun c d => c.toNat < d.toNat := by
  rw [← isChain_iff_ascending, List.isChain_iff_getElem]
  intro k hk
  have hstep := hall (k + 1)
  rw [climb?, hall k, List.getElem?_eq_getElem hk, List.getElem?_eq_getElem (by omega),
    Option.bind_some] at hstep
  simpa using List.find?_some hstep

theorem validate_iff_climbs : p.validate = .ok () ↔
    (∃ first, p.initial? = some first ∧ 0 < first.toNat) ∧
      (∀ k, p.climb? k = p.capacities[k]?) ∧ 0 < p.maxLoad.toNat := by
  rw [validate_iff]
  constructor
  · intro hp
    obtain ⟨first, hfirst, hmem, -⟩ := hp.initial?
    exact ⟨⟨first, hfirst, hp.positive first hmem⟩, climb?_eq hp.ascending, hp.load⟩
  · rintro ⟨⟨first, hfirst, hpos⟩, hall, hload⟩
    have hasc := ascending_of_climb? hall
    obtain ⟨rest, he⟩ := List.head?_eq_some_iff.mp hfirst
    refine ⟨by simp [he], ?_, hasc, hload⟩
    rw [he] at hasc ⊢
    exact positive_of_ascending hpos hasc

theorem Ascends.existsUnique_climb? (hp : p.Ascends) (hc : c ∈ p.capacities) :
    ∃! k, p.climb? k = some c := by
  have hnodup : p.capacities.Nodup := hp.ascending.imp fun hlt he => hlt.ne (congrArg _ he)
  obtain ⟨k, hk⟩ := List.mem_iff_getElem?.mp hc
  refine ⟨k, (climb?_eq hp.ascending k).trans hk, fun j hj => ?_⟩
  have hj : p.capacities[j]? = some c := (climb?_eq hp.ascending j).symm.trans hj
  exact (List.getElem?_inj (List.getElem?_eq_some_iff.mp hj).1 hnodup).mp (hj.trans hk.symm)

/-- Validation accepts a policy exactly if it has capacities that are positive and ascend and a
load that is positive, and so exactly if growth can climb through all its capacities from a positive
first one. A sequence that starts above zero and does not ascend is rejected with the first pair of
neighbours that shows it. The first capacity of an accepted policy is the least and the ceiling is
the greatest. The next capacity is the least that is larger, and only at the ceiling and past it
there is none. So growth meets every capacity once and stops at the ceiling. -/
theorem validation_exact (p : Policy) :
    (p.validate = .ok () ↔ p.Ascends) ∧
    (p.validate = .ok () ↔ (∃ first, p.initial? = some first ∧ 0 < first.toNat) ∧
      (∀ k, p.climb? k = p.capacities[k]?) ∧ 0 < p.maxLoad.toNat) ∧
    (∀ first, p.initial? = some first → 0 < first.toNat →
      ¬ p.capacities.Pairwise (fun c d => c.toNat < d.toNat) →
      ∃ before a b after, p.capacities = before ++ a :: b :: after ∧
        (before ++ [a]).IsChain (fun c d => c.toNat < d.toNat) ∧ b.toNat ≤ a.toNat ∧
        p.validate = .error (.invalidPolicy ("capacity sequence is not strictly ascending at " ++
          toString a ++ " -> " ++ toString b))) ∧
    (p.validate = .ok () → ∃ first top, p.initial? = some first ∧ p.ceiling? = some top ∧
      first ∈ p.capacities ∧ top ∈ p.capacities ∧
      (∀ c ∈ p.capacities, first.toNat ≤ c.toNat ∧ c.toNat ≤ top.toNat) ∧
      (∀ n c, p.next? n = some c ↔
        IsLeast {m | ∃ d ∈ p.capacities, d.toNat = m ∧ n < m} c.toNat) ∧
      (∀ n, p.next? n = none ↔ top.toNat ≤ n) ∧
      (∀ c ∈ p.capacities, ∃! k, p.climb? k = some c) ∧
      p.climb? (p.capacities.length - 1) = some top ∧
      p.climb? p.capacities.length = none) := by
  refine ⟨validate_iff, validate_iff_climbs, ?_, ?_⟩
  · intro first hfirst hpos hnot
    obtain ⟨⟨a, b⟩, hd⟩ := Option.ne_none_iff_exists'.mp (mt (firstDescent?_eq_none _).mp hnot)
    obtain ⟨before, after, he, hbefore, hle⟩ := firstDescent?_eq_some_iff.mp hd
    refine ⟨before, a, b, after, he, hbefore, hle, ?_⟩
    rw [validate, defect?_of_firstDescent? hfirst hpos hd]
    rfl
  · intro hv
    have hp := validate_iff.mp hv
    obtain ⟨first, hfirst, hfirstMem, hleast⟩ := hp.initial?
    obtain ⟨top, htop, htopMem, hgreatest⟩ := hp.ceiling?
    have hnone : ∀ n, p.next? n = none ↔ top.toNat ≤ n := fun n =>
      next?_eq_none.trans ⟨fun h => h top htopMem, fun h c hc => (hgreatest c hc).trans h⟩
    refine ⟨first, top, hfirst, htop, hfirstMem, htopMem, fun c hc => ⟨hleast c hc, hgreatest c hc⟩,
      fun n c => hp.next?_eq_some_iff, hnone, fun c hc => hp.existsUnique_climb? hc, ?_, ?_⟩
    · rw [climb?_eq hp.ascending, ← List.getLast?_eq_getElem?]
      exact htop
    · rw [climb?_eq hp.ascending, List.getElem?_length]

/-- The load is wrong as well and the last pair does not ascend either, but the first such pair is
what is reported. -/
theorem sample_validation :
    let p : Policy := ⟨[3, 7, 13], 2⟩
    let q : Policy := ⟨[3, 9, 5, 5], 0⟩
    p.validate = .ok () ∧ p.next? 8 = some 13 ∧ p.next? 13 = none ∧ p.climb? 2 = some 13 ∧
      p.climb? 3 = none ∧ q.validate = .error (.invalidPolicy
        "capacity sequence is not strictly ascending at 9 -> 5") := by
  intro p q
  obtain ⟨-, -, -, haccepted⟩ := validation_exact p
  obtain ⟨first, top, -, htop, -, -, -, hnext, hnone, -, hlast, hend⟩ := haccepted (by decide)
  obtain rfl : 13 = top := Option.some.inj htop
  obtain ⟨-, -, hrejected, -⟩ := validation_exact q
  obtain ⟨before, a, b, after, he, hbefore, hle, hv⟩ := hrejected 3 rfl (by decide) (by decide)
  have hpair : some (a, b) = some (9, 5) :=
    (firstDescent?_eq_some_iff.mpr ⟨before, after, he, hbefore, hle⟩).symm.trans (by decide)
  obtain ⟨rfl, rfl⟩ := Prod.mk.inj (Option.some.inj hpair)
  have hleast : IsLeast {m | ∃ d ∈ p.capacities, d.toNat = m ∧ 8 < m} (13 : UInt64).toNat := by
    have hall : ∀ d ∈ p.capacities, 8 < d.toNat → 13 ≤ d.toNat := by simp [p]
    refine ⟨⟨13, by decide, rfl, by decide⟩, ?_⟩
    rintro m ⟨d, hd, rfl, hlt⟩
    exact hall d hd hlt
  exact ⟨by decide, (hnext 8 13).mpr hleast, (hnone 13).mpr le_rfl, hlast, hend, hv⟩

end RecordIndex.Policy
