import Mathlib
import RecordIndex.Arena.Chain

/-! # Contents of an arena

An arena is read through `get?`, and each operation is described by what it does to that view. A
chain needs even less: the key and the successor of a record while it is linked. Storing, releasing,
re-keying and overwriting a payload leave this part of the arena alone.
-/
namespace RecordIndex.Arena
variable {α : Type}

/-- Vacant slots are listed once and hold nothing; a record in no chain has no successor. -/
structure Sound (a : Arena α) : Prop where
  vacant_nodup : a.vacant.Nodup
  vacant_empty : ∀ i ∈ a.vacant, ∃ v, a.slots[i]? = some ⟨v, none⟩
  loose : ∀ h r, a.get? h = some r → r.linked = false → r.next = none

def thread? (a : Arena α) (h : Handle) : Option (UInt64 × Option Handle) :=
  (a.get? h).bind fun r => if r.linked then some (r.key, r.next) else none

theorem thread?_eq_some {a : Arena α} {h : Handle} {key : UInt64} {next : Option Handle} :
    a.thread? h = some (key, next) ↔
      ∃ r, a.get? h = some r ∧ r.linked = true ∧ r.key = key ∧ r.next = next := by
  cases hr : a.get? h with
  | none => simp [thread?, hr]
  | some r => cases hl : r.linked <;> simp [thread?, hr, hl]

theorem thread?_of_get? {a : Arena α} {h : Handle} {r : Record α} (hr : a.get? h = some r) :
    a.thread? h = if r.linked then some (r.key, r.next) else none := by
  simp [thread?, hr]

theorem thread?_congr {a a' : Arena α} {h : Handle} (he : a'.get? h = a.get? h) :
    a'.thread? h = a.thread? h := by
  simp [thread?, he]

theorem exists_get?_of_thread? {a a' : Arena α} {h : Handle} {r : Record α}
    (he : a'.thread? h = a.thread? h) (hr : a.get? h = some r) (hl : r.linked = true) :
    ∃ r', a'.get? h = some r' ∧ r'.linked = true ∧ r'.key = r.key ∧ r'.next = r.next := by
  rw [thread?_of_get? hr, if_pos hl] at he
  exact thread?_eq_some.mp he

def label? (a : Arena α) (h : Handle) : Option (UInt64 × α) :=
  (a.get? h).map fun r => (r.key, r.payload)

theorem exists_get?_of_label? {a a' : Arena α} {h : Handle} {r : Record α}
    (he : a'.label? h = a.label? h) (hr : a.get? h = some r) :
    ∃ r', a'.get? h = some r' ∧ r'.key = r.key := by
  rw [label?, label?, hr, Option.map_some, Option.map_eq_some_iff] at he
  obtain ⟨r', hr', he⟩ := he
  exact ⟨r', hr', (Prod.mk.inj he).1⟩

def hasKey (a : Arena α) (key : UInt64) (h : Handle) : Bool := (a.label? h).any (·.1 == key)

theorem hasKey_of_get? {a : Arena α} {h : Handle} {r : Record α} (hr : a.get? h = some r)
    (key : UInt64) : a.hasKey key h = (r.key == key) := by
  simp [hasKey, label?, hr]

theorem hasKey_congr {a a' : Arena α} {h : Handle} (he : a'.label? h = a.label? h)
    (key : UInt64) : a'.hasKey key h = a.hasKey key h := by
  rw [hasKey, he, hasKey]

def slotIn (a : Arena α) (n : Nat) (h : Handle) : Nat := ((a.label? h).elim 0 (·.1.toNat)) % n

theorem slotIn_of_get? {a : Arena α} {h : Handle} {r : Record α} (hr : a.get? h = some r)
    (n : Nat) : a.slotIn n h = r.key.toNat % n := by
  simp [slotIn, label?, hr]

theorem slotIn_congr {a a' : Arena α} (he : ∀ h, a'.label? h = a.label? h) (n : Nat) :
    a'.slotIn n = a.slotIn n := by
  funext h
  rw [slotIn, he, slotIn]

theorem get?_eq_some {a : Arena α} {h : Handle} {r : Record α} :
    a.get? h = some r ↔ a.slots[h.slot]? = some ⟨h.version, some r⟩ := by
  cases hs : a.slots[h.slot]? with
  | none => simp [get?, hs]
  | some s =>
    obtain ⟨v, content⟩ := s
    simp [get?, hs]

theorem eq_of_slot_eq {a : Arena α} {h k : Handle} {r s : Record α} (hr : a.get? h = some r)
    (hs : a.get? k = some s) (he : h.slot = k.slot) : h = k := by
  rw [get?_eq_some, he] at hr
  rw [get?_eq_some, hr] at hs
  obtain ⟨i, v⟩ := h
  obtain ⟨j, u⟩ := k
  simp_all

theorem slot_lt_size {a : Arena α} {h : Handle} {r : Record α} (hr : a.get? h = some r) :
    h.slot < a.slots.size :=
  (Array.getElem?_eq_some_iff.mp (get?_eq_some.mp hr)).1

theorem sound_empty : Sound (empty : Arena α) :=
  ⟨List.nodup_nil, by simp [empty], by simp [empty, get?]⟩

/-! ## Changing a record in place -/

theorem slots_modify (a : Arena α) (h : Handle) (f : Record α → Record α) (i : Nat) :
    (a.modify h f).slots[i]? = (a.slots[i]?).map fun s =>
      if h.slot = i ∧ s.version = h.version then { s with content := s.content.map f } else s := by
  by_cases hi : h.slot = i
  · simp [modify, Array.getElem?_modify, hi]
  · simp [modify, Array.getElem?_modify, hi]

theorem Sound.modify {a : Arena α} (ha : a.Sound) (h : Handle) {f : Record α → Record α}
    (hf : ∀ r, a.get? h = some r → (f r).linked = false → (f r).next = none) :
    (a.modify h f).Sound := by
  refine ⟨ha.vacant_nodup, ?_, ?_⟩
  · intro i hi
    obtain ⟨v, hv⟩ := ha.vacant_empty i hi
    refine ⟨v, ?_⟩
    rw [slots_modify, hv]
    simp
  · intro k r hk hl
    by_cases hkh : k = h
    · subst hkh
      rw [get?_modify_self] at hk
      obtain ⟨s, hs, rfl⟩ := Option.map_eq_some_iff.mp hk
      exact hf s hs hl
    · rw [get?_modify_of_ne a hkh] at hk
      exact ha.loose k r hk hl

theorem label?_modify (a : Arena α) (h : Handle) (f : Record α → Record α)
    (hf : ∀ r, (f r).key = r.key ∧ (f r).payload = r.payload) (k : Handle) :
    (a.modify h f).label? k = a.label? k := by
  by_cases hk : k = h
  · subst hk
    cases hr : a.get? k with
    | none => simp [label?, hr]
    | some r => simp [label?, hr, hf r]
  · simp [label?, get?_modify_of_ne a hk]

theorem thread?_modify {a : Arena α} {h : Handle} {f : Record α → Record α} {r : Record α}
    (hr : a.get? h = some r)
    (hf : (f r).linked = r.linked ∧ (r.linked = true → (f r).key = r.key ∧ (f r).next = r.next))
    (k : Handle) : (a.modify h f).thread? k = a.thread? k := by
  by_cases hk : k = h
  · subst hk
    have hfr : (a.modify k f).get? k = some (f r) := by simp [hr]
    rw [thread?_of_get? hfr, thread?_of_get? hr, hf.1]
    cases hl : r.linked with
    | false => rfl
    | true => simp [hf.2 hl]
  · exact thread?_congr (get?_modify_of_ne a hk f)

/-! ## Storing -/

theorem get?_alloc_self (a : Arena α) (r : Record α) (ha : a.Sound) :
    (a.alloc r).1.get? (a.alloc r).2 = some r.detach := by
  cases hv : a.vacant with
  | nil => simp [alloc, hv, get?]
  | cons i rest =>
    obtain ⟨v, hs⟩ := ha.vacant_empty i (by simp [hv])
    have hi := (Array.getElem?_eq_some_iff.mp hs).1
    simp [alloc, hv, get?, hi]

/-- The handle of a new record did not resolve before. -/
theorem get?_alloc_fresh (a : Arena α) (r : Record α) (ha : a.Sound) :
    a.get? (a.alloc r).2 = none := by
  cases hv : a.vacant with
  | nil => simp [alloc, hv, get?]
  | cons i rest =>
    obtain ⟨v, hs⟩ := ha.vacant_empty i (by simp [hv])
    simp [alloc, hv, get?, hs]

theorem get?_alloc_of_ne (a : Arena α) (r : Record α) (ha : a.Sound) {k : Handle}
    (hk : k ≠ (a.alloc r).2) : (a.alloc r).1.get? k = a.get? k := by
  obtain ⟨j, u⟩ := k
  cases hv : a.vacant with
  | nil =>
    simp only [alloc, hv, ne_eq, Handle.mk.injEq, not_and] at hk ⊢
    by_cases hj : j = a.slots.size
    · have hu := hk hj
      simp [get?, hj, Ne.symm hu]
    · simp [get?, Array.getElem?_push, hj]
  | cons i rest =>
    obtain ⟨v, hs⟩ := ha.vacant_empty i (by simp [hv])
    simp only [alloc, hv, hs, ne_eq, Handle.mk.injEq, not_and, Option.elim] at hk ⊢
    obtain ⟨hi, hsi⟩ := Array.getElem?_eq_some_iff.mp hs
    by_cases hj : j = i
    · have hu := hk hj
      simp [get?, hj, hi, hsi, Ne.symm hu]
    · simp [get?, Ne.symm hj]

theorem Sound.alloc {a : Arena α} (ha : a.Sound) (r : Record α) : (a.alloc r).1.Sound := by
  have hloose : ∀ h s, (a.alloc r).1.get? h = some s → s.linked = false → s.next = none := by
    intro h s hs hl
    by_cases hh : h = (a.alloc r).2
    · rw [hh, get?_alloc_self a r ha] at hs
      cases hs
      rfl
    · rw [get?_alloc_of_ne a r ha hh] at hs
      exact ha.loose h s hs hl
  refine ⟨?_, ?_, hloose⟩
  · cases hv : a.vacant with
    | nil => simp [Arena.alloc, hv]
    | cons i rest =>
      have hn := ha.vacant_nodup
      rw [hv] at hn
      simpa [Arena.alloc, hv] using (List.nodup_cons.mp hn).2
  · cases hv : a.vacant with
    | nil => simp [Arena.alloc, hv]
    | cons i rest =>
      have hn := ha.vacant_nodup
      rw [hv] at hn
      simp only [Arena.alloc, hv]
      intro j hj
      obtain ⟨v, hs⟩ := ha.vacant_empty j (by simp [hv, hj])
      have hij : i ≠ j := by
        rintro rfl
        exact (List.nodup_cons.mp hn).1 hj
      exact ⟨v, by rw [Array.getElem?_setIfInBounds, if_neg hij, hs]⟩

theorem thread?_alloc (a : Arena α) (r : Record α) (ha : a.Sound) (h : Handle) :
    (a.alloc r).1.thread? h = a.thread? h := by
  by_cases hh : h = (a.alloc r).2
  · subst hh
    rw [thread?_of_get? (get?_alloc_self a r ha)]
    simp [thread?, get?_alloc_fresh a r ha, Record.detach]
  · exact thread?_congr (get?_alloc_of_ne a r ha hh)

/-! ## Releasing and re-keying -/

/-- A record is released only out of no chain, and then its handle alone stops to resolve. -/
theorem release_cases (a : Arena α) (h : Handle) :
    (∃ e, a.release h = (a, .error e)) ∨
      ∃ r, a.get? h = some r ∧ r.linked = false ∧ (a.release h).2 = .ok r ∧
        ∀ k, (a.release h).1.get? k = if k = h then none else a.get? k := by
  cases hr : a.get? h with
  | none => exact Or.inl ⟨.staleHandle, by simp [release, hr]⟩
  | some r =>
    cases hl : r.linked with
    | true => exact Or.inl ⟨.stillLinked, by simp [release, hr, hl]⟩
    | false =>
      refine Or.inr ⟨r, rfl, hl, by simp [release, hr, hl], ?_⟩
      have hs := get?_eq_some.mp hr
      intro k
      simp only [release, hr, hl, Bool.false_eq_true, ↓reduceIte]
      obtain ⟨i, v⟩ := h
      obtain ⟨j, u⟩ := k
      by_cases hij : i = j
      · subst hij
        by_cases hu : u = v
        · simp [get?, Array.getElem?_modify, hs, hu]
        · simp [get?, Array.getElem?_modify, hs, hu, Ne.symm hu]
      · simp [get?, Array.getElem?_modify, hij, Ne.symm hij]

theorem Sound.release {a : Arena α} (ha : a.Sound) (h : Handle) : (a.release h).1.Sound := by
  rcases release_cases a h with ⟨e, he⟩ | ⟨r, hr, hl, -, hget⟩
  · rw [he]
    exact ha
  · have hs := get?_eq_some.mp hr
    refine ⟨?_, ?_, ?_⟩
    · have hfilled : h.slot ∉ a.vacant := by
        intro hm
        obtain ⟨v, hv⟩ := ha.vacant_empty _ hm
        simp [hs] at hv
      simpa [Arena.release, hr, hl] using ⟨hfilled, ha.vacant_nodup⟩
    · simp only [Arena.release, hr, hl, Bool.false_eq_true, ↓reduceIte]
      intro i hi
      by_cases hih : h.slot = i
      · exact ⟨h.version + 1, by simp [Array.getElem?_modify, ← hih, hs]⟩
      · obtain ⟨v, hv⟩ := ha.vacant_empty i ((List.mem_cons.mp hi).resolve_left (Ne.symm hih))
        exact ⟨v, by simp [Array.getElem?_modify, hih, hv]⟩
    · intro k s hk hsl
      rw [hget] at hk
      split at hk
      · cases hk
      · exact ha.loose k s hk hsl

theorem release_error {a : Arena α} {h : Handle} {e : Failure}
    (he : (a.release h).2 = .error e) : e = .staleHandle ∨ e = .stillLinked := by
  unfold Arena.release at he
  split at he
  · cases he
    exact Or.inl rfl
  · split at he <;> cases he
    exact Or.inr rfl

theorem thread?_release (a : Arena α) (h k : Handle) :
    (a.release h).1.thread? k = a.thread? k := by
  rcases release_cases a h with ⟨e, he⟩ | ⟨r, hr, hl, -, hget⟩
  · rw [he]
  · by_cases hk : k = h
    · subst hk
      simp [thread?, hget, hr, hl]
    · exact thread?_congr (by rw [hget, if_neg hk])

/-- A record takes another key only out of a chain. -/
theorem rekey_cases (a : Arena α) (h : Handle) (key : UInt64) :
    (∃ e, a.rekey h key = (a, .error e)) ∨
      ∃ r, a.get? h = some r ∧ r.linked = false ∧
        a.rekey h key = (a.modify h ({ · with key }), .ok ()) := by
  cases hr : a.get? h with
  | none => exact Or.inl ⟨.staleHandle, by simp [rekey, hr]⟩
  | some r =>
    cases hl : r.linked with
    | true => exact Or.inl ⟨.stillLinked, by simp [rekey, hr, hl]⟩
    | false => exact Or.inr ⟨r, rfl, hl, by simp [rekey, hr, hl]⟩

theorem rekey_error {a : Arena α} {h : Handle} {key : UInt64} {e : Failure}
    (he : (a.rekey h key).2 = .error e) : e = .staleHandle ∨ e = .stillLinked := by
  unfold Arena.rekey at he
  split at he
  · cases he
    exact Or.inl rfl
  · split at he <;> cases he
    exact Or.inr rfl

theorem Sound.rekey {a : Arena α} (ha : a.Sound) (h : Handle) (key : UInt64) :
    (a.rekey h key).1.Sound := by
  rcases rekey_cases a h key with ⟨e, he⟩ | ⟨r, hr, hl, he⟩ <;> rw [he]
  · exact ha
  · exact ha.modify h fun s hs hsl => ha.loose h s hs hsl

theorem thread?_rekey (a : Arena α) (h : Handle) (key : UInt64) (k : Handle) :
    (a.rekey h key).1.thread? k = a.thread? k := by
  rcases rekey_cases a h key with ⟨e, he⟩ | ⟨r, hr, hl, he⟩ <;> rw [he]
  exact thread?_modify hr ⟨rfl, fun ht => by simp [hl] at ht⟩ k

theorem Sound.setPayload {a : Arena α} (ha : a.Sound) (h : Handle) (payload : α) :
    (a.setPayload h payload).1.Sound := by
  unfold Arena.setPayload
  cases hr : a.get? h with
  | none => exact ha
  | some r => exact ha.modify h fun s hs hsl => ha.loose h s hs hsl

theorem thread?_setPayload (a : Arena α) (h : Handle) (payload : α) (k : Handle) :
    (a.setPayload h payload).1.thread? k = a.thread? k := by
  unfold setPayload
  cases hr : a.get? h with
  | none => rfl
  | some r => exact thread?_modify hr ⟨rfl, fun _ => ⟨rfl, rfl⟩⟩ k

/-! ## Linking and unlinking -/

theorem get?_link (a : Arena α) (h k : Handle) (next : Option Handle) :
    (a.link h next).get? k =
      if k = h then (a.get? k).map ({ · with next, linked := true }) else a.get? k :=
  get?_modify a h k _

theorem get?_redirect (a : Arena α) (h k : Handle) (next : Option Handle) :
    (a.redirect h next).get? k = if k = h then (a.get? k).map ({ · with next }) else a.get? k :=
  get?_modify a h k _

theorem get?_unlink (a : Arena α) (h k : Handle) :
    (a.unlink h).get? k = if k = h then (a.get? k).map Record.detach else a.get? k :=
  get?_modify a h k _

@[simp] theorem label?_link (a : Arena α) (h : Handle) (next : Option Handle) (k : Handle) :
    (a.link h next).label? k = a.label? k := by
  apply label?_modify
  exact fun _ => ⟨rfl, rfl⟩

@[simp] theorem label?_redirect (a : Arena α) (h : Handle) (next : Option Handle) (k : Handle) :
    (a.redirect h next).label? k = a.label? k := by
  apply label?_modify
  exact fun _ => ⟨rfl, rfl⟩

@[simp] theorem label?_unlink (a : Arena α) (h k : Handle) :
    (a.unlink h).label? k = a.label? k := by
  apply label?_modify
  exact fun _ => ⟨rfl, rfl⟩

theorem Sound.link {a : Arena α} (ha : a.Sound) (h : Handle) (next : Option Handle) :
    (a.link h next).Sound :=
  ha.modify h fun _ _ hl => by simp at hl

theorem Sound.unlink {a : Arena α} (ha : a.Sound) (h : Handle) : (a.unlink h).Sound :=
  ha.modify h fun _ _ _ => rfl

/-- Only a linked record may be given another successor. -/
theorem Sound.redirect {a : Arena α} (ha : a.Sound) {h : Handle} {r : Record α}
    (hr : a.get? h = some r) (hl : r.linked = true) (next : Option Handle) :
    (a.redirect h next).Sound :=
  ha.modify h fun s hs hsl => by simp_all

end RecordIndex.Arena
