import Mathlib
import RecordIndex.Proofs.Table.Indexing
import RecordIndex.Table.Insertion

/-! # Growth of a table

Growth deals the records out to a larger array, chain after chain. A chain is collected when those
before it have been relinked already, which leaves it as it was. The new chains are the old ones
regrouped by the new buckets, and the stack of every key stays what it was.
-/
namespace RecordIndex.Table
variable {α : Type} {t : Table} {m : Allocator} {a : Arena α} {cs : Chains}

/-! ## Relinking -/

theorem relink_append (b : Buckets) (a : Arena α) (es fs : List (Entry α)) :
    relink b a (es ++ fs) = relink (relink b a es).1 (relink b a es).2 fs := List.foldl_append

theorem size_relink (b : Buckets) (a : Arena α) (es : List (Entry α)) :
    (relink b a es).1.size = b.size := by
  induction es generalizing b a with
  | nil => rfl
  | cons e es ih =>
    have hpush : (b.pushFront a e.1 e.2.key).1.size = b.size := Array.size_setIfInBounds
    exact (ih _ _).trans hpush

theorem label?_relink (b : Buckets) (a : Arena α) (es : List (Entry α)) (k : Handle) :
    (relink b a es).2.label? k = a.label? k := by
  induction es generalizing b a with
  | nil => rfl
  | cons e es ih => exact (ih _ _).trans (a.label?_link e.1 _ k)

theorem get?_relink (b : Buckets) (a : Arena α) {es : List (Entry α)} {k : Handle}
    (hk : k ∉ es.map (·.1)) : (relink b a es).2.get? k = a.get? k := by
  induction es generalizing b a with
  | nil => rfl
  | cons e es ih =>
    rw [List.map_cons, List.mem_cons, not_or] at hk
    have hlink : (b.pushFront a e.1 e.2.key).2.get? k = a.get? k :=
      (Arena.get?_link a e.1 k _).trans (if_neg hk.1)
    exact (ih _ _ hk.2).trans hlink

theorem relink_threads (es : List (Entry α)) {b : Buckets} {a : Arena α} {cs : Chains}
    (hb : b.Threads a cs) (hpos : 0 < b.size) (hn : (es.map (·.1)).Nodup)
    (hd : ∀ h ∈ es.map (·.1), h ∉ cs.flatten)
    (hl : ∀ e ∈ es, a.label? e.1 = some (e.2.key, e.2.payload)) :
    (relink b a es).1.size = b.size ∧
      (relink b a es).1.Threads (relink b a es).2
        (cs.deal (a.slotIn b.size) (es.map (·.1))) ∧
      a.Links (relink b a es).2 (es.map (·.1)) := by
  induction es generalizing b a cs with
  | nil => exact ⟨rfl, hb, Arena.links_nil a⟩
  | cons e es ih =>
    have hlab := hl e List.mem_cons_self
    obtain ⟨r, hr, hk⟩ : ∃ r, a.get? e.1 = some r ∧ r.key = e.2.key := by
      obtain ⟨r, hr, he⟩ := Option.map_eq_some_iff.mp hlab
      exact ⟨r, hr, (Prod.mk.inj he).1⟩
    have hslot : b.slotOf e.2.key = a.slotIn b.size e.1 := by
      rw [Arena.slotIn_of_get? hr, hk, Buckets.slotOf]
    have hlt : b.slotOf e.2.key < b.size := Nat.mod_lt _ hpos
    have hlen : b.slotOf e.2.key < cs.length := hb.length ▸ hlt
    have hh : e.1 ∉ cs.flatten := hd e.1 (by simp)
    rw [List.map_cons, List.nodup_cons] at hn
    have hpush := hb.push hlt hr hh
    have hlinks := Arena.links_link hr b[b.slotOf e.2.key]?.join
    obtain ⟨hsize, hthreads, hrest⟩ := ih hpush (by simpa using hpos) hn.2
      (by
        intro k hk hm
        rcases List.mem_cons.mp ((Chains.flatten_push_perm hlen e.1).mem_iff.mp hm) with rfl | hm
        · exact hn.1 hk
        · exact hd k (by simp only [List.map_cons, List.mem_cons]; exact Or.inr hk) hm)
      (by
        intro f hf
        rw [hlinks.label]
        exact hl f (List.mem_cons_of_mem _ hf))
    rw [Arena.slotIn_congr hlinks.label, Array.size_setIfInBounds] at hthreads
    rw [Array.size_setIfInBounds] at hsize
    have hdeal : cs.deal (a.slotIn b.size) ((e :: es).map (·.1)) =
        (cs.push (b.slotOf e.2.key) e.1).deal (a.slotIn b.size) (es.map (·.1)) := by
      rw [hslot]
      rfl
    rw [hdeal]
    exact ⟨hsize, hthreads, hlinks.trans hrest⟩

/-- Bucket after bucket: the records relinked so far are none of those to come, so each chain is
found as it was in the arena `a` before all relinking. -/
theorem foldlM_relinkChain {heads : List (Option Handle)}
    (hf : List.Forall₂ (fun head hs => a.Path head hs none) heads cs) (hn : cs.flatten.Nodup)
    (b : Buckets) {a' : Arena α} (he : ∀ k ∈ cs.flatten, a'.get? k = a.get? k) :
    heads.foldlM relinkChain (b, a') =
      some (relink b a' (a.read (cs.map List.reverse).flatten)) := by
  induction hf generalizing b a' with
  | nil => rfl
  | @cons head hs heads cs hp _ ih =>
    rw [List.flatten_cons] at hn he
    obtain ⟨-, hcs, hdis⟩ := List.nodup_append.mp hn
    have hhs : ∀ k ∈ hs, a'.get? k = a.get? k := fun k hk => he k (List.mem_append_left _ hk)
    have hp' : a'.Path head hs none := hp.congr fun k hk r hr => ⟨r, (hhs k hk).trans hr, rfl⟩
    have hstep : relinkChain (b, a') head = some (relink b a' (a.read hs).reverse) := by
      rw [relinkChain, hp'.chain?, read_congr hhs, Option.map_some]
    have hmoved : (a.read hs).reverse.map (·.1) = hs.reverse := by
      rw [List.map_reverse, Arena.map_fst_read hp.live]
    have hnext : ∀ k ∈ cs.flatten, (relink b a' (a.read hs).reverse).2.get? k = a.get? k := by
      intro k hk
      have hother : k ∉ (a.read hs).reverse.map (·.1) := by
        rw [hmoved, List.mem_reverse]
        exact fun hm => hdis k hm k hk rfl
      exact (get?_relink b a' hother).trans (he k (List.mem_append_right _ hk))
    have hread : a.read ((hs :: cs).map List.reverse).flatten =
        (a.read hs).reverse ++ a.read (cs.map List.reverse).flatten := by
      rw [List.map_cons, List.flatten_cons, Arena.read_append, Arena.read_reverse]
    rw [List.foldlM_cons, hstep, hread, relink_append]
    exact ih hcs _ hnext

theorem Indexes.foldlM_relinkChain (ht : t.Indexes a cs) (b : Buckets) :
    t.buckets.foldlM relinkChain (b, a) =
      some (Table.relink b a (a.read (cs.map List.reverse).flatten)) := by
  rw [← Array.foldlM_toList]
  exact Table.foldlM_relinkChain ht.threads.forall₂ ht.threads.nodup b fun _ _ => rfl

/-- Regrouped by their keys, the chains are those of any larger array they are put into. -/
theorem stack_regroup (ht : t.Indexes a cs) {t' : Table} {a' : Arena α} {n : Nat}
    (ht' : t'.Indexes a' (cs.regroup n (a.slotIn n))) (hn : t'.capacity = n)
    (hlabel : ∀ k, a'.label? k = a.label? k) (key : UInt64) :
    stack a' (cs.regroup n (a.slotIn n)) key = stack a cs key := by
  have hlt := slotOf_lt ht'.nonempty key
  have hkeys : a'.hasKey key = a.hasKey key := funext fun h => Arena.hasKey_congr (hlabel h) key
  rw [← hn] at ht' ⊢
  rw [ht'.stack_eq (Chains.getElem?_regroup cs _ hlt), hkeys]
  -- a record with the key is in the new bucket of the key
  have hfilter : (cs.reverse.flatten.filter
      (a.slotIn t'.capacity · == t'.buckets.slotOf key)).filter (a.hasKey key) =
        cs.reverse.flatten.filter (a.hasKey key) := by
    rw [List.filter_filter]
    apply List.filter_congr
    intro h _
    cases hk : a.hasKey key h with
    | false => rfl
    | true =>
      cases hr : a.label? h with
      | none => simp [Arena.hasKey, hr] at hk
      | some r =>
        have hkey : r.1 = key := by simpa [Arena.hasKey, hr] using hk
        simp [Arena.slotIn, hr, hkey, Buckets.slotOf, capacity]
  rw [hfilter]
  -- the old chains other than the one of the key have no part in the stack
  have hold := slotOf_lt ht.nonempty key
  obtain ⟨hs, hi⟩ := ht.threads.exists_chain hold
  have hrev : cs.reverse.flatten = (cs.drop (t.buckets.slotOf key + 1)).reverse.flatten ++
      (hs ++ (cs.take (t.buckets.slotOf key)).reverse.flatten) := by
    conv_lhs => rw [Chains.eq_append hi]
    simp
  have hnil : ∀ ks : Chains, ks.flatten.filter (a.hasKey key) = [] →
      ks.reverse.flatten.filter (a.hasKey key) = [] := by
    intro ks hks
    rw [List.filter_eq_nil_iff] at hks ⊢
    intro h hh
    exact hks h (by simpa using hh)
  rw [ht.stack_eq hi, hrev, List.filter_append, List.filter_append, hnil _ (ht.filter_take key),
    hnil _ (ht.filter_drop key), List.nil_append, List.append_nil]

/-! ## Making room -/

def resizes (events : List Event) : Nat :=
  events.countP fun
    | .resized .. => true
    | _ => false

structure SameTable (t t' : Table) : Prop where
  id : t'.id = t.id
  arena : t'.arena = t.arena
  name : t'.name = t.name
  policy : t'.policy = t.policy

/-- The table holds the same records in the same stacks, with room for one more or none to be
had. -/
structure Regrown (t : Table) (a : Arena α) (cs : Chains) (t' : Table) (a' : Arena α)
    (cs' : Chains) (events : List Event) : Prop where
  same : SameTable t t'
  indexes : t'.Indexes a' cs'
  perm : cs'.flatten.Perm cs.flatten
  stack : ∀ key, stack a' cs' key = stack a cs key
  links : a.Links a' cs.flatten
  epoch : t'.epoch = t.epoch + UInt64.ofNat (resizes events)

theorem Indexes.regrown (ht : t.Indexes a cs) (reported : Bool) (events : List Event)
    (hr : resizes events = 0) :
    Regrown t a cs { t with ceilingReported := reported } a cs events where
  same := ⟨rfl, rfl, rfl, rfl⟩
  indexes := ⟨ht.threads, ht.nonempty, ht.placed, ht.count⟩
  perm := List.Perm.refl _
  stack _ := rfl
  links := ⟨fun _ => rfl, fun _ _ => rfl, fun _ hk => ht.linked hk, fun h => h⟩
  epoch := by simp [hr]

theorem Indexes.relink (ht : t.Indexes a cs) {n : Nat} (hn : 0 < n) (event : Event)
    (he : resizes [event] = 1) :
    let moved := Table.relink (Array.replicate n none) a (a.read (cs.map List.reverse).flatten)
    Regrown t a cs { t with buckets := moved.1 }.touch moved.2 (cs.regroup n (a.slotIn n))
      [event] := by
  intro moved
  have hperm := Chains.flatten_map_reverse_perm cs
  have hlive : ∀ h ∈ (cs.map List.reverse).flatten, ∃ r, a.get? h = some r := fun h hh =>
    ht.threads.live h (hperm.mem_iff.mp hh)
  have hfst : (a.read (cs.map List.reverse).flatten).map (·.1) = (cs.map List.reverse).flatten :=
    Arena.map_fst_read hlive
  have hslot : ∀ h, a.slotIn n h < n := fun h => Nat.mod_lt _ hn
  obtain ⟨hsize, hthreads, hlinks⟩ := relink_threads (a.read (cs.map List.reverse).flatten)
    (Buckets.threads_replicate a n) (by simpa using hn)
    (by rw [hfst]; exact hperm.nodup_iff.mpr ht.threads.nodup) (by simp)
    (by
      intro e hmem
      have hr := (Arena.mem_read.mp hmem).2
      simp [Arena.label?, hr])
  rw [hfst, Array.size_replicate] at hthreads
  rw [Array.size_replicate] at hsize
  rw [hfst] at hlinks
  have hflat := Chains.flatten_regroup_perm cs hslot
  have hindexes : Table.Indexes { t with buckets := moved.1 }.touch moved.2
      (cs.regroup n (a.slotIn n)) := by
    refine ⟨hthreads, by rw [← hsize] at hn; exact hn, ?_, ht.count.trans hflat.length_eq.symm⟩
    intro i hs hi h hh
    have hlen : (cs.regroup n (a.slotIn n)).length = n := hthreads.length.trans hsize
    have hlt : i < n := hlen ▸ (List.getElem?_eq_some_iff.mp hi).1
    rw [Chains.getElem?_regroup cs _ hlt] at hi
    cases hi
    obtain ⟨hm, hsi⟩ := List.mem_filter.mp hh
    have hm' : h ∈ (cs.map List.reverse).flatten := hperm.mem_iff.mpr (by simpa using hm)
    obtain ⟨r, hr, hl⟩ := hlinks.linked h hm'
    refine ⟨r, hr, hl, ?_⟩
    rw [← Arena.slotIn_congr hlinks.label, Arena.slotIn_of_get? hr, beq_iff_eq] at hsi
    exact (congrArg (r.key.toNat % ·) hsize).trans hsi
  exact
    { same := ⟨rfl, rfl, rfl, rfl⟩
      indexes := hindexes
      perm := hflat
      stack := stack_regroup ht hindexes hsize hlinks.label
      links := hlinks.perm hperm
      epoch := by rw [he]; rfl }

/-- The record for which room was to be made needs another capacity, and there is no memory for
it. -/
structure Cramped (t : Table) (m : Allocator) (capacity : UInt64) : Prop where
  due : t.policy.loadLimit t.capacity < t.count + 1
  next : t.policy.next? t.capacity = some capacity
  refused : m.grants (8 * capacity.toNat) = false

theorem Cramped.makeRoom {capacity : UInt64} (hc : Cramped t m capacity) (a : Arena α) :
    t.makeRoom m a = (t, a, [], .error (.allocationFailed t.name capacity.toNat)) := by
  simp only [Table.makeRoom, if_pos hc.due, Table.grow, hc.next,
    newBuckets_of_refused hc.refused]

inductive MakesRoom (t t' : Table) (events : List Event) : Prop where
  | spare (hroom : t.count + 1 ≤ t.policy.loadLimit t.capacity) (hc : t'.capacity = t.capacity)
      (hr : t'.ceilingReported = t.ceilingReported) (he : events = [])
  | full (hdue : t.policy.loadLimit t.capacity < t.count + 1)
      (hnext : t.policy.next? t.capacity = none) (hc : t'.capacity = t.capacity)
      (hr : t'.ceilingReported = true)
      (he : events =
        if t.ceilingReported then [] else [.ceilingReached t.name t.capacity t.count])
  | grown (capacity : UInt64) (hdue : t.policy.loadLimit t.capacity < t.count + 1)
      (hnext : t.policy.next? t.capacity = some capacity) (hc : t'.capacity = capacity.toNat)
      (hr : t'.ceilingReported = t.ceilingReported)
      (he : events = [.resized t.name t.capacity capacity.toNat t.count])

/-- Growth is refused for want of memory only, and then nothing has changed. -/
theorem Indexes.grow (ht : t.Indexes a cs) (m : Allocator)
    (hdue : t.policy.loadLimit t.capacity < t.count + 1) :
    (∃ capacity, Cramped t m capacity ∧
      t.grow m a = (t, a, [], .error (.allocationFailed t.name capacity.toNat))) ∨
      ∃ t' a' cs' events, t.grow m a = (t', a', events, .ok ()) ∧
        Regrown t a cs t' a' cs' events ∧ MakesRoom t t' events := by
  unfold Table.grow
  cases hnext : t.policy.next? t.capacity with
  | none =>
    apply Or.inr
    cases hr : t.ceilingReported with
    | true =>
      exact ⟨t, a, cs, [], rfl, ht.regrown t.ceilingReported [] rfl,
        .full hdue hnext rfl hr (by rw [if_pos hr])⟩
    | false =>
      exact ⟨_, a, cs, _, rfl, ht.regrown true [_] rfl,
        .full hdue hnext rfl rfl (by rw [if_neg (by simp [hr])])⟩
  | some capacity =>
    have hlt : t.capacity < capacity.toNat := by simpa using List.find?_some hnext
    rcases newBuckets_cases m t.name capacity with ⟨hg, hb⟩ | hb
    · exact Or.inl ⟨capacity, ⟨hdue, hnext, hg⟩, by simp only [hb]⟩
    · have hpos : 0 < capacity.toNat := by omega
      have hgrown := ht.relink hpos (.resized t.name t.capacity capacity.toNat t.count) rfl
      refine Or.inr ⟨_, _, _, _, by simp only [hb, ht.foldlM_relinkChain], hgrown,
        .grown capacity hdue hnext ?_ rfl rfl⟩
      exact (size_relink _ a _).trans Array.size_replicate

theorem Indexes.makeRoom (ht : t.Indexes a cs) (m : Allocator) :
    (∃ capacity, Cramped t m capacity ∧
      t.makeRoom m a = (t, a, [], .error (.allocationFailed t.name capacity.toNat))) ∨
      ∃ t' a' cs' events, t.makeRoom m a = (t', a', events, .ok ()) ∧
        Regrown t a cs t' a' cs' events ∧ MakesRoom t t' events := by
  unfold Table.makeRoom
  split
  · rename_i hdue
    exact ht.grow m hdue
  · rename_i hdue
    exact Or.inr ⟨t, a, cs, [], rfl, ht.regrown t.ceilingReported [] rfl,
      .spare (Nat.not_lt.mp hdue) rfl rfl rfl⟩

end RecordIndex.Table
