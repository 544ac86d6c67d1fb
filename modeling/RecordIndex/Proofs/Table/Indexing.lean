import Mathlib
import RecordIndex.Proofs.Buckets.Threads
import RecordIndex.Proofs.Policy
import RecordIndex.Census
import RecordIndex.Table.Search

/-! # What a table indexes

`Indexes` says which chains a table has over its arena. From it follow the listing of the table and,
for each key, the stack of the records with that key, which is all that a search looks at.
-/
namespace RecordIndex.Table
variable {α : Type} {t : Table} {a : Arena α} {cs : Chains}

/-- The table has these chains: each ends, its records are live, linked and placed by their keys, no
handle is in two places, and the count is the number of them all. -/
structure Indexes (t : Table) (a : Arena α) (cs : Chains) : Prop where
  threads : t.buckets.Threads a cs
  nonempty : 0 < t.capacity
  placed : ∀ (i : Nat) hs, cs[i]? = some hs → ∀ h ∈ hs,
    ∃ r, a.get? h = some r ∧ r.linked = true ∧ t.buckets.slotOf r.key = i
  count : t.count = cs.flatten.length

theorem slotOf_lt (hn : 0 < t.capacity) (key : UInt64) : t.buckets.slotOf key < t.buckets.size :=
  Nat.mod_lt _ hn

theorem Indexes.slotOf_lt_length (ht : t.Indexes a cs) (key : UInt64) :
    t.buckets.slotOf key < cs.length := by
  rw [ht.threads.length]
  exact slotOf_lt ht.nonempty key

theorem Indexes.unique {ks : Chains} (ht : t.Indexes a cs) (hk : t.Indexes a ks) : cs = ks :=
  ht.threads.unique hk.threads

theorem Indexes.linked (ht : t.Indexes a cs) {h : Handle} (hh : h ∈ cs.flatten) :
    ∃ r, a.get? h = some r ∧ r.linked = true := by
  obtain ⟨i, hs, hi, hm⟩ := Chains.exists_of_mem_flatten hh
  obtain ⟨r, hr, hl, -⟩ := ht.placed i hs hi h hm
  exact ⟨r, hr, hl⟩

theorem Indexes.not_mem (ht : t.Indexes a cs) {h : Handle} {r : Record α}
    (hr : a.get? h = some r) (hl : r.linked = false) : h ∉ cs.flatten := by
  intro hh
  obtain ⟨s, hs, hsl⟩ := ht.linked hh
  rw [hr] at hs
  cases hs
  simp [hl] at hsl

theorem Indexes.congr {a' : Arena α} (ht : t.Indexes a cs)
    (he : ∀ h ∈ cs.flatten, a'.thread? h = a.thread? h) : t.Indexes a' cs := by
  have hrec : ∀ h ∈ cs.flatten, ∀ r, a.get? h = some r →
      ∃ r', a'.get? h = some r' ∧ r'.linked = true ∧ r'.key = r.key ∧ r'.next = r.next := by
    intro h hh r hr
    obtain ⟨s, hs, hl⟩ := ht.linked hh
    rw [hr] at hs
    cases hs
    exact Arena.exists_get?_of_thread? (he h hh) hr hl
  refine ⟨ht.threads.congr ?_, ht.nonempty, ?_, ht.count⟩
  · intro h hh r hr
    obtain ⟨r', hr', -, -, hn⟩ := hrec h hh r hr
    exact ⟨r', hr', hn⟩
  · intro i hs hi h hh
    obtain ⟨r, hr, -, hslot⟩ := ht.placed i hs hi h hh
    obtain ⟨r', hr', hl', hk, -⟩ := hrec h (Chains.mem_flatten_of_getElem? hi hh) r hr
    exact ⟨r', hr', hl', by rw [hk, hslot]⟩

theorem Indexes.entries (ht : t.Indexes a cs) : t.entries a = .ok (a.read cs.flatten) := by
  rw [Table.entries, ht.threads.entries?]

theorem Indexes.handles (ht : t.Indexes a cs) : t.handles a = .ok cs.flatten := by
  rw [Table.handles, ht.entries]
  exact congrArg Except.ok (Arena.map_fst_read ht.threads.live)

/-- A census goes through the chains one after the other. -/
theorem Indexes.census (ht : t.Indexes a cs) (same : Record α → Record α → Bool) :
    t.census a same = .ok (cs.foldl
      (fun (c : Census) hs => c.addChain same ((a.read hs).map (·.2))) Census.empty) := by
  have htake := ht.threads.foldlM
    (fun (c : Census) (chain : List (Entry α)) => c.addChain same (chain.map (·.2))) Census.empty
  unfold Table.census Census.take?
  rw [htake]

/-! ## New tables -/

section
variable {m : Allocator}

theorem newBuckets_of_granted {capacity : UInt64} (hg : m.grants (8 * capacity.toNat) = true)
    (table : String) :
    newBuckets m table capacity = .ok (Array.replicate capacity.toNat none) := if_pos hg

theorem newBuckets_of_refused {capacity : UInt64} (hg : m.grants (8 * capacity.toNat) = false)
    (table : String) :
    newBuckets m table capacity = .error (.allocationFailed table capacity.toNat) :=
  if_neg (by simp [hg])

theorem newBuckets_cases (m : Allocator) (table : String) (capacity : UInt64) :
    (m.grants (8 * capacity.toNat) = false ∧
      newBuckets m table capacity = .error (.allocationFailed table capacity.toNat)) ∨
      newBuckets m table capacity = .ok (Array.replicate capacity.toNat none) := by
  cases hg : m.grants (8 * capacity.toNat) with
  | true => exact Or.inr (newBuckets_of_granted hg table)
  | false => exact Or.inl ⟨rfl, newBuckets_of_refused hg table⟩

inductive Denied (m : Allocator) (name : String) (policy : Policy) : Failure → Prop where
  | unnamed (hn : name.isEmpty = true) : Denied m name policy .missingName
  | rejected {d : Policy.Defect} (hd : policy.defect? = some d) :
      Denied m name policy (.invalidPolicy d.message)
  | cramped (hg : m.grants (8 * (policy.initial?.getD 0).toNat) = false) :
      Denied m name policy (.allocationFailed name (policy.initial?.getD 0).toNat)

theorem create_cases (m : Allocator) (id : TableId) (p : ArenaId) (name : String)
    (policy : Policy) :
    (∃ e, Table.create m id p name policy = .error e ∧ Denied m name policy e) ∨
      policy.validate = .ok () ∧ Table.create m id p name policy =
        .ok ⟨id, p, name, policy, Array.replicate (policy.initial?.getD 0).toNat none, 0, 0,
          false⟩ := by
  unfold Table.create
  cases hname : name.isEmpty with
  | true => exact Or.inl ⟨.missingName, rfl, .unnamed hname⟩
  | false =>
    cases hd : policy.defect? with
    | some d =>
      have hv : policy.validate = .error (.invalidPolicy d.message) := by rw [Policy.validate, hd]
      exact Or.inl ⟨_, by rw [hv]; rfl, .rejected hd⟩
    | none =>
      have hv : policy.validate = .ok () := by rw [Policy.validate, hd]
      rcases newBuckets_cases m name (policy.initial?.getD 0) with ⟨hg, hb⟩ | hb
      · exact Or.inl ⟨_, by rw [hv, hb]; rfl, .cramped hg⟩
      · exact Or.inr ⟨hv, by rw [hv, hb]; rfl⟩

theorem create_eq {id : TableId} {p : ArenaId} {name : String} {policy : Policy}
    (hc : Table.create m id p name policy = .ok t) : policy.validate = .ok () ∧
      t = ⟨id, p, name, policy, Array.replicate (policy.initial?.getD 0).toNat none, 0, 0,
        false⟩ := by
  rcases create_cases m id p name policy with ⟨e, he, -⟩ | ⟨hv, he⟩
  · rw [he] at hc
    cases hc
  · rw [he] at hc
    exact ⟨hv, (Except.ok.inj hc).symm⟩

theorem indexes_create {id : TableId} {p : ArenaId} {name : String} {policy : Policy}
    (hc : Table.create m id p name policy = .ok t) (a : Arena α) :
    t.id = id ∧ t.arena = p ∧ t.name = name ∧ t.epoch = 0 ∧
      ∃ n, t.Indexes a (List.replicate n []) := by
  obtain ⟨hv, rfl⟩ := create_eq hc
  have hp := Policy.validate_iff.mp hv
  obtain ⟨c, hinitial, hmem, -⟩ := hp.initial?
  refine ⟨rfl, rfl, rfl, rfl, (policy.initial?.getD 0).toNat, Buckets.threads_replicate a _, ?_, ?_,
    by simp⟩
  · simpa [capacity, hinitial] using hp.positive c hmem
  · intro i hs hi h hh
    obtain ⟨hlt, rfl⟩ := List.getElem?_eq_some_iff.mp hi
    simp at hh

end

/-! ## Stacks -/

def stack (a : Arena α) (cs : Chains) (key : UInt64) : List Handle :=
  cs.flatten.filter (a.hasKey key)

theorem Indexes.not_hasKey (ht : t.Indexes a cs) {i : Nat} {hs : List Handle}
    (hi : cs[i]? = some hs) {key : UInt64} (hk : i ≠ t.buckets.slotOf key) {h : Handle}
    (hh : h ∈ hs) : a.hasKey key h = false := by
  obtain ⟨r, hr, -, hslot⟩ := ht.placed i hs hi h hh
  rw [Arena.hasKey_of_get? hr, beq_eq_false_iff_ne]
  rintro rfl
  exact hk hslot.symm

/-- The other chains have no part in the stack of a key. -/
theorem Indexes.filter_others (ht : t.Indexes a cs) {key : UInt64} {ks : Chains}
    (hks : ∀ hs ∈ ks, ∃ i, cs[i]? = some hs ∧ i ≠ t.buckets.slotOf key) :
    ks.flatten.filter (a.hasKey key) = [] := by
  apply List.filter_eq_nil_iff.mpr
  intro h hh
  obtain ⟨hs, hm, hh⟩ := List.mem_flatten.mp hh
  obtain ⟨i, hi, hne⟩ := hks hs hm
  simp [ht.not_hasKey hi hne hh]

theorem Indexes.filter_take (ht : t.Indexes a cs) (key : UInt64) :
    (cs.take (t.buckets.slotOf key)).flatten.filter (a.hasKey key) = [] :=
  ht.filter_others fun _ => Chains.exists_of_mem_take

theorem Indexes.filter_drop (ht : t.Indexes a cs) (key : UInt64) :
    (cs.drop (t.buckets.slotOf key + 1)).flatten.filter (a.hasKey key) = [] :=
  ht.filter_others fun _ => Chains.exists_of_mem_drop

theorem Indexes.stack_eq (ht : t.Indexes a cs) {key : UInt64} {hs : List Handle}
    (hi : cs[t.buckets.slotOf key]? = some hs) : stack a cs key = hs.filter (a.hasKey key) := by
  rw [stack, Chains.flatten_eq hi, List.filter_append, List.filter_append, ht.filter_take,
    ht.filter_drop, List.nil_append, List.append_nil]

def KeyedBy (a : Arena α) (key : UInt64) (p : Handle → Record α → Bool) : Prop :=
  ∀ h r, a.get? h = some r → p h r = true → r.key = key

theorem keyedBy_accepts (a : Arena α) (key : UInt64) (accept : Record α → Bool) :
    KeyedBy a key (accepts key accept) := by
  intro h r _ hp
  simp only [accepts, Bool.and_eq_true, beq_iff_eq] at hp
  exact hp.1

theorem keyedBy_self {h : Handle} {r : Record α} (hr : a.get? h = some r) :
    KeyedBy a r.key fun k _ => k == h := by
  intro k s hs hk
  rw [beq_iff_eq] at hk
  rw [hk, hr] at hs
  cases hs
  rfl

theorem KeyedBy.hasKey {key : UInt64} {p : Handle → Record α → Bool} (hp : KeyedBy a key p)
    {h : Handle} (hm : a.meets p h = true) : a.hasKey key h = true := by
  cases hr : a.get? h with
  | none => simp [Arena.meets, hr] at hm
  | some r =>
    rw [Arena.meets_of_get? hr] at hm
    rw [Arena.hasKey_of_get? hr, beq_iff_eq]
    exact hp h r hr hm

theorem find?_filter_hasKey {key : UInt64} {p : Handle → Record α → Bool} (hp : KeyedBy a key p)
    (hs : List Handle) : (hs.filter (a.hasKey key)).find? (a.meets p) = hs.find? (a.meets p) := by
  rw [List.find?_filter]
  congr 1
  funext h
  cases hm : a.meets p h with
  | false => simp
  | true => simp [hp.hasKey hm]

/-- A search for records of one key finds nothing, or it finds the first match of the stack, in its
bucket and after the handle in front of it. -/
theorem Indexes.locate (ht : t.Indexes a cs) {key : UInt64} {p : Handle → Record α → Bool}
    (hp : KeyedBy a key p) :
    (t.locate a key p = .ok none ∧ (stack a cs key).find? (a.meets p) = none) ∨
      ∃ xs h ys r, cs[t.buckets.slotOf r.key]? = some (xs ++ h :: ys) ∧ a.get? h = some r ∧
        r.key = key ∧ (stack a cs key).find? (a.meets p) = some h ∧
        t.locate a key p = .ok (some (xs.getLast?, h, r)) := by
  have hlt := slotOf_lt ht.nonempty key
  obtain ⟨hs, hi⟩ := ht.threads.exists_chain hlt
  have hpath := ht.threads.path _ hs hi
  have hget : t.buckets[t.buckets.slotOf key]? = some t.buckets[t.buckets.slotOf key] :=
    getElem?_pos ..
  have hfind : (stack a cs key).find? (a.meets p) = hs.find? (a.meets p) := by
    rw [ht.stack_eq hi, find?_filter_hasKey hp]
  rw [hget, Option.join_some] at hpath
  simp only [Table.locate, hget, hfind]
  rcases hpath.locate p with ⟨hl, hf⟩ | ⟨xs, h, ys, r, rfl, hr, hf, hl⟩
  · exact Or.inl ⟨hl, hf⟩
  · have hm := List.find?_some hf
    rw [Arena.meets_of_get? hr] at hm
    obtain rfl := hp h r hr hm
    exact Or.inr ⟨xs, h, ys, r, hi, hr, rfl, hf, hl⟩

/-- Within the stack of a key nobody asks for the key again. -/
theorem find?_accepts (a : Arena α) (cs : Chains) (key : UInt64) (accept : Record α → Bool) :
    (stack a cs key).find? (a.meets (accepts key accept)) =
      (stack a cs key).find? (a.meets fun _ => accept) := by
  rw [stack, List.find?_filter, List.find?_filter]
  congr 1
  funext h
  cases hr : a.get? h with
  | none => simp [Arena.meets, hr]
  | some r =>
    cases hk : r.key == key <;> simp [Arena.hasKey_of_get? hr, Arena.meets_of_get? hr, accepts, hk]

/-- Every record of a stack will do, and the first one is the top. -/
theorem Indexes.find?_accepts_true (ht : t.Indexes a cs) (key : UInt64) :
    (stack a cs key).find? (a.meets (accepts key fun _ => true)) = (stack a cs key).head? := by
  rw [find?_accepts]
  cases hs : stack a cs key with
  | nil => rfl
  | cons h hs' =>
    have hm : h ∈ stack a cs key := by rw [hs]; exact List.mem_cons_self
    obtain ⟨r, hr⟩ := ht.threads.live h (List.mem_filter.mp hm).1
    rw [List.find?_cons_of_pos (by rw [Arena.meets_of_get? hr]), List.head?_cons]

theorem Indexes.lookup (ht : t.Indexes a cs) (key : UInt64) :
    t.lookup a key = .ok (stack a cs key).head? := by
  rw [← ht.find?_accepts_true]
  rcases ht.locate (keyedBy_accepts a key fun _ => true) with
    ⟨hl, hf⟩ | ⟨xs, h, ys, r, -, -, -, hf, hl⟩ <;>
  · rw [Table.lookup, hl, hf]
    rfl

theorem Indexes.lookupSame (ht : t.Indexes a cs) (template : Record α)
    (same : Record α → Record α → Bool) :
    t.lookupSame a template same =
      .ok ((stack a cs template.key).find? (a.meets fun _ => same template)) := by
  rw [← find?_accepts]
  rcases ht.locate (keyedBy_accepts a template.key (same template)) with
    ⟨hl, hf⟩ | ⟨xs, h, ys, r, -, -, -, hf, hl⟩ <;>
  · rw [Table.lookupSame, hl, hf]
    rfl

/-! ## Other records do not count -/

variable {a' : Arena α}

theorem read_congr {hs : List Handle} (he : ∀ h ∈ hs, a'.get? h = a.get? h) :
    a'.read hs = a.read hs := by
  apply List.filterMap_congr
  intro h hh
  rw [he h hh]

theorem stack_congr (he : ∀ h ∈ cs.flatten, a'.get? h = a.get? h) (key : UInt64) :
    stack a' cs key = stack a cs key := by
  apply List.filter_congr
  intro h hh
  exact Arena.hasKey_congr (by rw [Arena.label?, he h hh, Arena.label?]) key

/-- All that is asked of a table is answered from the records it indexes. -/
theorem Indexes.reads_congr (ht : t.Indexes a cs) (ht' : t.Indexes a' cs)
    (he : ∀ h ∈ cs.flatten, a'.get? h = a.get? h) :
    (∀ key, t.lookup a' key = t.lookup a key) ∧
    (∀ template same, t.lookupSame a' template same = t.lookupSame a template same) ∧
    t.entries a' = t.entries a ∧ t.handles a' = t.handles a ∧
    ∀ same, t.census a' same = t.census a same := by
  refine ⟨fun key => ?_, fun template same => ?_, ?_, ?_, fun same => ?_⟩
  · rw [ht'.lookup, ht.lookup, stack_congr he]
  · rw [ht'.lookupSame, ht.lookupSame, stack_congr he]
    congr 1
    refine List.find?_congr fun h hh => ?_
    rw [Arena.meets, he h (List.mem_filter.mp hh).1, Arena.meets]
  · rw [ht'.entries, ht.entries, read_congr he]
  · rw [ht'.handles, ht.handles]
  · rw [ht'.census, ht.census]
    congr 1
    apply List.foldl_ext
    intro c hs hm
    rw [read_congr fun h hh => he h (List.mem_flatten_of_mem hm hh)]

end RecordIndex.Table
