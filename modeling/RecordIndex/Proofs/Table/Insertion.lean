import Mathlib
import RecordIndex.Proofs.Table.Growth

/-! # Insertion into a table

An insertion that is refused leaves the table and its arena as they were. One that succeeds puts the
record on top of the stack of its key, whether or not the table grew on the way.
-/
namespace RecordIndex.Table
variable {α : Type} {t : Table} {m : Allocator} {a : Arena α} {cs : Chains}

theorem Indexes.push (ht : t.Indexes a cs) {h : Handle} {r : Record α} (hr : a.get? h = some r)
    (hh : h ∉ cs.flatten) :
    (t.push a h r.key).1.Indexes (t.push a h r.key).2 (cs.push (t.buckets.slotOf r.key) h) := by
  have hlt := slotOf_lt ht.nonempty r.key
  have hlen := ht.slotOf_lt_length r.key
  have hsize : ∀ key, (t.push a h r.key).1.buckets.slotOf key = t.buckets.slotOf key := by
    intro key
    simp [Table.push, Buckets.pushFront, touch, Buckets.slotOf]
  have hself : (t.push a h r.key).2.get? h =
      some { r with next := t.buckets[t.buckets.slotOf r.key]?.join, linked := true } := by
    apply (Arena.get?_link a h h _).trans
    rw [if_pos rfl, hr, Option.map_some]
  refine ⟨ht.threads.push hlt hr hh, ?_, ?_, ?_⟩
  · have hpos := ht.nonempty
    rw [capacity] at hpos ⊢
    simpa [Table.push, Buckets.pushFront, touch] using hpos
  · intro i hs hi k hk
    rw [Chains.getElem?_push] at hi
    obtain ⟨ks, hks, rfl⟩ := Option.map_eq_some_iff.mp hi
    -- a record of the old chain is not the one pushed
    have hold : k ∈ ks → ∃ s, (t.push a h r.key).2.get? k = some s ∧ s.linked = true ∧
        (t.push a h r.key).1.buckets.slotOf s.key = i := by
      intro hm
      obtain ⟨s, hs, hsl, hslot⟩ := ht.placed i ks hks k hm
      have hne : k ≠ h := by
        rintro rfl
        exact hh (Chains.mem_flatten_of_getElem? hks hm)
      exact ⟨s, by rw [← hs]; exact (Arena.get?_link a h k _).trans (if_neg hne), hsl,
        (hsize s.key).trans hslot⟩
    split at hk
    · rename_i he
      rcases List.mem_cons.mp hk with rfl | hm
      · exact ⟨_, hself, rfl, (hsize r.key).trans he⟩
      · exact hold hm
    · exact hold hk
  · rw [(Chains.flatten_push_perm hlen h).length_eq, List.length_cons, ← ht.count]
    rfl

theorem Indexes.stack_push (ht : t.Indexes a cs) {h : Handle} {r : Record α}
    (hr : a.get? h = some r) (key : UInt64) :
    stack (t.push a h r.key).2 (cs.push (t.buckets.slotOf r.key) h) key =
      if r.key = key then h :: stack a cs key else stack a cs key := by
  have hlabel : ∀ k, (t.push a h r.key).2.hasKey key k = a.hasKey key k := fun k =>
    Arena.hasKey_congr (Arena.label?_link a h _ k) key
  obtain ⟨hs, hi⟩ := ht.threads.exists_chain (slotOf_lt ht.nonempty r.key)
  have hh := Arena.hasKey_of_get? hr key
  rw [stack, stack, Chains.flatten_push hi, Chains.flatten_eq hi]
  simp only [funext hlabel, List.filter_append, List.filter_cons, hh]
  by_cases hk : r.key = key
  · subst hk
    simp [ht.filter_take]
  · simp [hk]

structure Inserted (t : Table) (a : Arena α) (cs : Chains) (h : Handle) (key : UInt64)
    (t' : Table) (a' : Arena α) (cs' : Chains) (events : List Event) : Prop where
  same : SameTable t t'
  indexes : t'.Indexes a' cs'
  perm : cs'.flatten.Perm (h :: cs.flatten)
  stack : ∀ k, stack a' cs' k = if key = k then h :: stack a cs k else stack a cs k
  links : a.Links a' (h :: cs.flatten)
  epoch : t'.epoch = t.epoch + UInt64.ofNat (resizes events + 1)
  room : MakesRoom t t' events

theorem Inserted.count {h : Handle} {key : UInt64} {t' : Table} {a' : Arena α} {cs' : Chains}
    {events : List Event} (hi : Inserted t a cs h key t' a' cs' events) (ht : t.Indexes a cs) :
    t'.count = t.count + 1 := by
  rw [hi.indexes.count, ht.count, hi.perm.length_eq, List.length_cons]

theorem MakesRoom.congr {t' t'' : Table} {events : List Event} (hm : MakesRoom t t' events)
    (hc : t''.capacity = t'.capacity) (hr : t''.ceilingReported = t'.ceilingReported) :
    MakesRoom t t'' events := by
  cases hm with
  | spare hroom hc' hr' he => exact .spare hroom (hc.trans hc') (hr.trans hr') he
  | full hdue hnext hc' hr' he => exact .full hdue hnext (hc.trans hc') (hr.trans hr') he
  | grown capacity hdue hnext hc' hr' he =>
    exact .grown capacity hdue hnext (hc.trans hc') (hr.trans hr') he

theorem Regrown.push {t' : Table} {a' : Arena α} {cs' : Chains} {events : List Event}
    (hg : Regrown t a cs t' a' cs' events) (hm : MakesRoom t t' events) {h : Handle}
    {r : Record α} (hr : a.get? h = some r) (hh : h ∉ cs.flatten) :
    Inserted t a cs h r.key (t'.push a' h r.key).1 (t'.push a' h r.key).2
      (cs'.push (t'.buckets.slotOf r.key) h) events := by
  have hr' : a'.get? h = some r := (hg.links.other h hh).trans hr
  have hh' : h ∉ cs'.flatten := fun hm => hh (hg.perm.mem_iff.mp hm)
  have hlen := hg.indexes.slotOf_lt_length r.key
  have hlinks := hg.links.trans (Arena.links_link hr' t'.buckets[t'.buckets.slotOf r.key]?.join)
  exact
    { same := ⟨hg.same.id, hg.same.arena, hg.same.name, hg.same.policy⟩
      indexes := hg.indexes.push hr' hh'
      perm := (Chains.flatten_push_perm hlen h).trans (hg.perm.cons h)
      stack := fun k => by rw [hg.indexes.stack_push hr', hg.stack]
      links := hlinks.perm List.perm_append_comm
      epoch := by
        have he : (t'.push a' h r.key).1.epoch = t'.epoch + 1 := rfl
        rw [he, hg.epoch, UInt64.add_assoc, UInt64.ofNat_add]
        rfl
      room := hm.congr Array.size_setIfInBounds rfl }

inductive Declines (t : Table) (m : Allocator) (a : Arena α) (h : Handle) : Failure → Prop where
  | stale (hr : a.get? h = none) : Declines t m a h .staleHandle
  | linked {r : Record α} (hr : a.get? h = some r) (hl : r.linked = true) :
      Declines t m a h .alreadyLinked
  | cramped {r : Record α} {capacity : UInt64} (hr : a.get? h = some r) (hl : r.linked = false)
      (hc : Cramped t m capacity) : Declines t m a h (.allocationFailed t.name capacity.toNat)

section
variable {h : Handle}

theorem declines_stale_iff : Declines t m a h .staleHandle ↔ a.get? h = none := by
  refine ⟨fun hd => ?_, .stale⟩
  cases hd with
  | stale hr => exact hr

theorem declines_linked_iff :
    Declines t m a h .alreadyLinked ↔ ∃ r, a.get? h = some r ∧ r.linked = true := by
  constructor
  · intro hd
    cases hd with
    | linked hr hl => exact ⟨_, hr, hl⟩
  · rintro ⟨r, hr, hl⟩
    exact .linked hr hl

theorem declines_cramped_iff {name : String} {n : Nat} :
    Declines t m a h (.allocationFailed name n) ↔
      (∃ r, a.get? h = some r ∧ r.linked = false) ∧ name = t.name ∧
        ∃ c, Cramped t m c ∧ c.toNat = n := by
  constructor
  · intro hd
    cases hd with
    | cramped hr hl hc => exact ⟨⟨_, hr, hl⟩, rfl, _, hc, rfl⟩
  · rintro ⟨⟨r, hr, hl⟩, rfl, c, hc, rfl⟩
    exact .cramped hr hl hc

/-- Nothing stands in the way of an unlinked record but the want of memory. -/
theorem not_declines_iff : (∀ e, ¬ Declines t m a h e) ↔
    (∃ r, a.get? h = some r ∧ r.linked = false) ∧ ∀ c, ¬ Cramped t m c := by
  constructor
  · intro hnone
    have hfree : ∃ r, a.get? h = some r ∧ r.linked = false := by
      cases hr : a.get? h with
      | none => exact absurd (.stale hr) (hnone _)
      | some r =>
        cases hl : r.linked with
        | true => exact absurd (.linked hr hl) (hnone _)
        | false => exact ⟨r, rfl, hl⟩
    obtain ⟨r, hr, hl⟩ := hfree
    exact ⟨⟨r, hr, hl⟩, fun c hc => hnone _ (.cramped hr hl hc)⟩
  · rintro ⟨⟨r, hr, hl⟩, hroom⟩ e hd
    cases hd with
    | stale hs =>
      rw [hr] at hs
      cases hs
    | linked hs hl' =>
      rw [hr] at hs
      cases hs
      rw [hl] at hl'
      cases hl'
    | cramped _ _ hc => exact hroom _ hc

end

/-- Each of the causes does hinder the insertion. -/
theorem Declines.insert_eq {h : Handle} {e : Failure} (hd : Declines t m a h e)
    (hn : 0 < t.capacity) : t.insert m a h = (t, a, [], .error e) := by
  have hsome : t.buckets.isEmpty = false := by simpa [capacity, Array.size_pos_iff] using hn
  cases hd with
  | stale hr => simp only [Table.insert, hr]
  | linked hr hl => simp only [Table.insert, hr, hl, ↓reduceIte]
  | cramped hr hl hc =>
    simp only [Table.insert, hr, hl, hsome, hc.makeRoom a, Bool.false_eq_true, ↓reduceIte]

/-- An insertion is refused for a stale handle, a record in a chain or want of memory, and then
nothing has changed. -/
theorem Indexes.insert (ht : t.Indexes a cs) (m : Allocator) (h : Handle) :
    (∃ e, t.insert m a h = (t, a, [], .error e) ∧ Declines t m a h e) ∨
      ∃ r t' a' cs' events, a.get? h = some r ∧ r.linked = false ∧
        t.insert m a h = (t', a', events, .ok ()) ∧ Inserted t a cs h r.key t' a' cs' events := by
  unfold Table.insert
  cases hr : a.get? h with
  | none => exact Or.inl ⟨.staleHandle, rfl, .stale hr⟩
  | some r =>
    cases hl : r.linked with
    | true => exact Or.inl ⟨.alreadyLinked, by simp [hl], .linked hr hl⟩
    | false =>
      have hsome : t.buckets.isEmpty = false := by
        have := ht.nonempty
        simpa [capacity, Array.size_pos_iff] using this
      simp only [hl, hsome, Bool.false_eq_true, ↓reduceIte]
      rcases ht.makeRoom m with ⟨capacity, hc, he⟩ | ⟨t', a', cs', events, he, hg, hm⟩
      · exact Or.inl ⟨_, by rw [he], .cramped hr hl hc⟩
      · have hpush := hg.push hm hr (ht.not_mem hr hl)
        exact Or.inr ⟨r, _, _, _, events, rfl, hl, by rw [he], hpush⟩

theorem Indexes.insert_error_iff (ht : t.Indexes a cs) {h : Handle} {e : Failure} :
    (t.insert m a h).2.2.2 = .error e ↔ Declines t m a h e := by
  constructor
  · intro he
    rcases ht.insert m h with ⟨e', he', hd⟩ | ⟨r, t', a', cs', events, -, -, hok, -⟩
    · rw [he'] at he
      cases he
      exact hd
    · rw [hok] at he
      cases he
  · intro hd
    rw [hd.insert_eq ht.nonempty]

/-- An insertion that succeeds makes room and then pushes the record. -/
theorem insert_eq_ok {h : Handle} {t' : Table} {a' : Arena α} {events : List Event}
    (hi : t.insert m a h = (t', a', events, .ok ())) :
    ∃ r grown b, a.get? h = some r ∧ r.linked = false ∧
      t.makeRoom m a = (grown, b, events, .ok ()) ∧ grown.push b h r.key = (t', a') := by
  unfold Table.insert at hi
  cases hget : a.get? h with
  | none => simp [hget] at hi
  | some r =>
    rw [hget] at hi
    cases hl : r.linked with
    | true => simp [hl] at hi
    | false =>
      simp only [hl, Bool.false_eq_true, if_false] at hi
      split at hi
      · simp at hi
      · split at hi
        · simp at hi
        · rename_i grown b events' hroom
          simp only [Prod.mk.injEq, and_true] at hi
          obtain ⟨ht', ha', rfl⟩ := hi
          exact ⟨r, grown, b, rfl, hl, hroom, Prod.ext ht' ha'⟩

/-- The record inserted is the first of its chain. -/
theorem insert_head {t' : Table} {a' : Arena α} {cs' : Chains} {h : Handle} {r : Record α}
    {events : List Event} (ht' : t'.Indexes a' cs')
    (hi : t.insert m a h = (t', a', events, .ok ())) (hr : a.get? h = some r) :
    ∃ rest, cs'[t'.buckets.slotOf r.key]? = some (h :: rest) := by
  obtain ⟨s, grown, b, hs, -, -, hpush⟩ := insert_eq_ok hi
  obtain rfl : s = r := Option.some.inj (hs.symm.trans hr)
  have hpushed : t' = (grown.push b h s.key).1 := (congrArg Prod.fst hpush).symm
  have hbuckets : t'.buckets =
      grown.buckets.setIfInBounds (grown.buckets.slotOf s.key) (some h) := by
    rw [hpushed]
    rfl
  have hlt := slotOf_lt ht'.nonempty s.key
  have hslot : t'.buckets.slotOf s.key = grown.buckets.slotOf s.key := by
    rw [hbuckets, Buckets.slotOf, Array.size_setIfInBounds, Buckets.slotOf]
  obtain ⟨hs, hi'⟩ := ht'.threads.exists_chain hlt
  have hpath := ht'.threads.path _ hs hi'
  have hhead : t'.buckets[t'.buckets.slotOf s.key]?.join = some h := by
    rw [hslot] at hlt ⊢
    rw [hbuckets, Array.size_setIfInBounds] at hlt
    rw [hbuckets, Array.getElem?_setIfInBounds_self_of_lt hlt, Option.join_some]
  rw [hhead] at hpath
  cases hs with
  | nil => cases hpath
  | cons k rest =>
    obtain rfl := Option.some.inj hpath.1
    exact ⟨rest, hi'⟩

end RecordIndex.Table
