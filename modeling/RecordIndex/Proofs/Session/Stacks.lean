import Mathlib
import RecordIndex.Proofs.Session.Validity

/-! # Tables as stacks

To its user a table is a stack of records for every key, the last one inserted on top. The stacks of
a run are kept here without buckets and chains, and every answer of a table is read off them.
-/
namespace RecordIndex
variable {α : Type}

abbrev Stacks := TableId → UInt64 → List Handle

def Stacks.put (σ : Stacks) (t : TableId) (key : UInt64) (hs : List Handle) : Stacks :=
  Function.update σ t (Function.update (σ t) key hs)

def Deed.inserts (t : TableId) : Deed → Nat
  | .inserted u _ _ => if u = t then 1 else 0
  | _ => 0

def Deed.unlinks (t : TableId) : Deed → Nat
  | .unlinked u _ => if u = t then 1 else 0
  | _ => 0

namespace Deed

theorem inserts_of_alters {deed : Deed} {t : TableId} (h : deed.alters ≠ some t) :
    deed.inserts t = 0 := by
  cases deed with
  | inserted u k events => simpa [alters, inserts] using h
  | _ => rfl

theorem unlinks_of_alters {deed : Deed} {t : TableId} (h : deed.alters ≠ some t) :
    deed.unlinks t = 0 := by
  cases deed with
  | unlinked u k => simpa [alters, unlinks] using h
  | _ => rfl

end Deed

namespace Session

/-- The stacks after an action: a push, a pop, or the removal of one record from the middle. The key
of a record is the one it has at the time. -/
def restack (s : Session α) (action : Action α) (σ : Stacks) : Stacks :=
  match action, (s.act action).2 with
  | .insert _ t p h, .ok _ =>
    (s.recordOf p h).elim σ fun r => σ.put t r.key (h :: σ t r.key)
  | .remove t _ key, .ok _ => σ.put t key (σ t key).tail
  | .removeSame t p template same, .ok _ =>
    σ.put t template.key ((σ t template.key).eraseP fun h => (s.recordOf p h).any (same template))
  | .removeCurrent _ t p, .ok (.handle h) =>
    (s.recordOf p h).elim σ fun r => σ.put t r.key ((σ t r.key).erase h)
  | _, _ => σ

def stacksOf (acts : List (Action α)) : Stacks := track restack empty (fun _ _ => []) acts

@[simp] theorem stacksOf_concat (acts : List (Action α)) (action : Action α) :
    stacksOf (acts ++ [action]) = restack (run acts) action (stacksOf acts) :=
  track_concat ..

end Session

/-! ## Stacks of a workspace -/

namespace Workspace
variable {w w' : Workspace α} {held : Holdings} {deed : Deed} {t : TableId} {table : Table}
  {a a' : Arena α} {cs : Chains} {σ σ' : Stacks}

structure Agrees (w : Workspace α) (σ : Stacks) : Prop where
  used : ∀ t table a cs, w.Uses t table a → table.Indexes a cs → σ t = Table.stack a cs
  fresh : ∀ t, w.tables.size ≤ t → σ t = fun _ => []

structure Follows (w : Workspace α) (deed : Deed) (σ σ' : Stacks) : Prop where
  kept : ∀ t, deed.alters ≠ some t → σ' t = σ t
  inserted : ∀ t table a h r events, deed = .inserted t h events → w.Uses t table a →
    a.get? h = some r → σ' t = Function.update (σ t) r.key (h :: σ t r.key)
  unlinked : ∀ t table a h r, deed = .unlinked t h → w.Uses t table a → a.get? h = some r →
    σ' t = Function.update (σ t) r.key ((σ t r.key).erase h)

theorem stack_of_thread? (ht : table.Indexes a cs)
    (he : ∀ h ∈ cs.flatten, a'.thread? h = a.thread? h) : Table.stack a' cs = Table.stack a cs := by
  funext key
  apply List.filter_congr
  intro h hh
  obtain ⟨r, hr, hl⟩ := ht.linked hh
  obtain ⟨r', hr', -, hkey, -⟩ := Arena.exists_get?_of_thread? (he h hh) hr hl
  rw [Arena.hasKey_of_get? hr, Arena.hasKey_of_get? hr', hkey]

theorem stack_inserted {h : Handle} {r : Record α} {table' : Table} {cs' : Chains}
    {events : List Event} (hi : table.Inserted a cs h r.key table' a' cs' events) :
    Table.stack a' cs' =
      Function.update (Table.stack a cs) r.key (h :: Table.stack a cs r.key) := by
  funext key
  rw [hi.stack]
  by_cases hk : r.key = key
  · subst hk
    rw [if_pos rfl, Function.update_self]
  · rw [if_neg hk, Function.update_of_ne (Ne.symm hk)]

theorem stack_unlinked (ht : table.Indexes a cs) {h : Handle} {r : Record α} {table' : Table}
    (hr : a.get? h = some r) (hi : table.Unlinked a cs h table' a') :
    Table.stack a' (cs.without h) =
      Function.update (Table.stack a cs) r.key ((Table.stack a cs r.key).erase h) := by
  funext key
  rw [hi.stack ht.threads.nodup]
  by_cases hk : key = r.key
  · subst hk
    rw [Function.update_self]
  · rw [Function.update_of_ne hk]
    refine List.erase_of_not_mem fun hm => hk ?_
    have hkey := (List.mem_filter.mp hm).2
    rw [Arena.hasKey_of_get? hr, beq_iff_eq] at hkey
    exact hkey.symm

theorem Agrees.step (hσ : w.Agrees σ) (hw : w.Sound held) (hc : Change w deed w')
    (hf : w.Follows deed σ σ') : w'.Agrees σ' := by
  constructor
  · intro t table' a' cs' hu' hcs'
    cases hw.fate hc hu' with
    | kept hu hcs hne he =>
      obtain rfl := (hcs.congr he).unique hcs'
      rw [hf.kept t hne, hσ.used t _ _ _ hu hcs, stack_of_thread? hcs he]
    | opened hd hsize hnew =>
      obtain ⟨-, -, -, -, n, hempty⟩ := Table.indexes_create hnew a'
      obtain rfl := hempty.unique hcs'
      have hne : deed.alters ≠ some t := by
        rw [hd]
        simp [Deed.alters]
      rw [hf.kept t hne, hσ.fresh t hsize.ge]
      funext key
      simp [Table.stack]
    | inserted hd hu hcs hr hl hi =>
      obtain rfl := hi.indexes.unique hcs'
      rw [hf.inserted t _ _ _ _ _ hd hu hr, hσ.used t _ _ _ hu hcs, stack_inserted hi]
    | unlinked hd hu hcs hi =>
      obtain rfl := hi.indexes.unique hcs'
      obtain ⟨r, hr, -⟩ := hi.detached
      rw [hf.unlinked t _ _ _ _ hd hu hr, hσ.used t _ _ _ hu hcs, stack_unlinked hcs hr hi]
  · intro t ht
    have hold : w.tables.size ≤ t := (hw.size_le hc).trans ht
    have hne : deed.alters ≠ some t := fun he => (hc.lt_of_alters he).not_ge hold
    rw [hf.kept t hne, hσ.fresh t hold]

theorem put_eq_self (σ : Stacks) (t : TableId) (key : UInt64) : σ.put t key (σ t key) = σ := by
  rw [Stacks.put, Function.update_eq_self, Function.update_eq_self]

theorem follows_same (hd : deed.alters = none) (σ : Stacks) : w.Follows deed σ σ where
  kept _ _ := rfl
  inserted _ _ _ _ _ _ he := by
    rw [he] at hd
    cases hd
  unlinked _ _ _ _ _ he := by
    rw [he] at hd
    cases hd

theorem follows_inserted (hu : w.Uses t table a) {h : Handle} {r : Record α}
    (hr : a.get? h = some r) (events : List Event) (σ : Stacks) :
    w.Follows (.inserted t h events) σ (σ.put t r.key (h :: σ t r.key)) where
  kept u hne := Function.update_of_ne (fun he => hne (congrArg some he.symm)) _ _
  inserted u table' a' k r' events' he hu' hr' := by
    cases he
    obtain ⟨-, rfl⟩ := hu.unique hu'
    rw [hr] at hr'
    cases hr'
    exact Function.update_self ..
  unlinked _ _ _ _ _ he := by cases he

theorem follows_unlinked (hu : w.Uses t table a) {h : Handle} {r : Record α}
    (hr : a.get? h = some r) (σ : Stacks) :
    w.Follows (.unlinked t h) σ (σ.put t r.key ((σ t r.key).erase h)) where
  kept u hne := Function.update_of_ne (fun he => hne (congrArg some he.symm)) _ _
  inserted _ _ _ _ _ _ he := by cases he
  unlinked u table' a' k r' he hu' hr' := by
    cases he
    obtain ⟨-, rfl⟩ := hu.unique hu'
    rw [hr] at hr'
    cases hr'
    exact Function.update_self ..

theorem Change.exists_of_unlinked {h : Handle} (hc : Change w (.unlinked t h) w')
    (hu : w.Uses t table a) (ht : table.Indexes a cs) :
    ∃ r, a.get? h = some r ∧ h ∈ Table.stack a cs r.key := by
  cases hc with
  | unlinked hu' ht' hi =>
    obtain ⟨rfl, rfl⟩ := hu.unique hu'
    obtain rfl := ht.unique ht'
    obtain ⟨r, hr, -⟩ := hi.detached
    refine ⟨r, hr, List.mem_filter.mpr ⟨hi.member, ?_⟩⟩
    rw [Arena.hasKey_of_get? hr, beq_self_eq_true]

theorem exists_of_mem_stack {key : UInt64} {h : Handle} (hh : h ∈ Table.stack a cs key) :
    ∃ r, a.get? h = some r ∧ r.key = key := by
  have hkey := (List.mem_filter.mp hh).2
  cases hr : a.get? h with
  | none => simp [Arena.hasKey, Arena.label?, hr] at hkey
  | some r =>
    rw [Arena.hasKey_of_get? hr, beq_iff_eq] at hkey
    exact ⟨r, rfl, hkey⟩

/-- The first match of a list is the one taken out of it. -/
theorem eraseP_eq_erase {hs : List Handle} {p : Handle → Bool} {h : Handle}
    (hf : hs.find? p = some h) : hs.eraseP p = hs.erase h := by
  obtain ⟨hp, xs, ys, rfl, hxs⟩ := List.find?_eq_some_iff_append.mp hf
  have hnot : h ∉ xs := fun hm => by simpa [hp] using hxs h hm
  rw [List.eraseP_append_right _ fun k hk => by simpa using hxs k hk,
    List.erase_append_right _ hnot, List.eraseP_cons_of_pos hp, List.erase_cons_head]

/-! ### Sizes -/

theorem length_eq_finsum (hs : List Handle) (keyOf : Handle → UInt64) :
    hs.length = ∑ᶠ key, (hs.filter (keyOf · == key)).length := by
  have hcount : ∀ key, (hs.filter (keyOf · == key)).length = (hs.map keyOf).count key := by
    intro key
    rw [List.count, List.countP_map, List.countP_eq_length_filter]
    rfl
  have hsupport : (Function.support fun key => (hs.map keyOf).count key) ⊆
      ((hs.map keyOf).toFinset : Set UInt64) := by
    intro key hkey
    rw [Finset.mem_coe, List.mem_toFinset, ← List.count_pos_iff]
    exact Nat.pos_of_ne_zero hkey
  calc hs.length = (hs.map keyOf).length := (List.length_map keyOf).symm
    _ = ∑ key ∈ (hs.map keyOf).toFinset, (hs.map keyOf).count key :=
      (List.sum_toFinset_count_eq_length _).symm
    _ = ∑ᶠ key, (hs.map keyOf).count key := (finsum_eq_sum_of_support_subset _ hsupport).symm
    _ = _ := finsum_congr fun key => (hcount key).symm

theorem count_eq_finsum (ht : table.Indexes a cs) :
    table.count = ∑ᶠ key, (Table.stack a cs key).length := by
  have hkeys : ∀ key, Table.stack a cs key =
      cs.flatten.filter fun h => ((a.get? h).elim 0 (·.key)) == key := by
    intro key
    apply List.filter_congr
    intro h hh
    obtain ⟨r, hr, -⟩ := ht.linked hh
    rw [Arena.hasKey_of_get? hr, hr, Option.elim]
  rw [ht.count, length_eq_finsum _ fun h => (a.get? h).elim 0 (·.key)]
  exact finsum_congr fun key => by rw [hkeys]

structure Balances (w : Workspace α) (inserts unlinks : TableId → Nat) : Prop where
  count : ∀ t table, w.table? t = some table → table.count + unlinks t = inserts t
  fresh : ∀ t, w.tables.size ≤ t → inserts t = 0 ∧ unlinks t = 0

theorem Balances.step {inserts unlinks : TableId → Nat} (hb : w.Balances inserts unlinks)
    (hw : w.Sound held) (hc : Change w deed w') :
    w'.Balances (fun t => inserts t + deed.inserts t) fun t => unlinks t + deed.unlinks t := by
  constructor
  · intro t table' ht
    obtain ⟨a', hu'⟩ := (hw.step hc).exists_uses ht
    cases hw.fate hc hu' with
    | kept hu _ hne =>
      rw [Deed.inserts_of_alters hne, Deed.unlinks_of_alters hne]
      exact hb.count t _ hu.table?
    | opened hd hsize hnew =>
      obtain ⟨-, -, -, -, n, hempty⟩ := Table.indexes_create hnew a'
      obtain ⟨hins, hunl⟩ := hb.fresh t hsize.ge
      have hcount : table'.count = 0 := by simpa using hempty.count
      rw [hd, hcount, hins, hunl]
      rfl
    | @inserted table _ _ _ _ _ _ hd hu hcs _ _ hi =>
      have hold := hb.count t _ hu.table?
      rw [hd, hi.count hcs]
      simp only [Deed.inserts, Deed.unlinks, if_true]
      omega
    | @unlinked table _ _ _ hd hu hcs hi =>
      have hcount := hi.count hcs
      have hold := hb.count t _ hu.table?
      rw [hd]
      simp only [Deed.inserts, Deed.unlinks, if_true]
      omega
  · intro t ht
    have hold : w.tables.size ≤ t := (hw.size_le hc).trans ht
    have hne : deed.alters ≠ some t := fun he => (hc.lt_of_alters he).not_ge hold
    rw [Deed.inserts_of_alters hne, Deed.unlinks_of_alters hne]
    exact hb.fresh t hold

end Workspace

namespace Session
variable {s : Session α} {held : Holdings} {σ : Stacks}

variable {t : TableId} {table : Table} {a : Arena α} {cs : Chains}

theorem recordOf_any (hu : s.space.Uses t table a) (accept : Record α → Bool) :
    (fun h => (s.recordOf table.arena h).any accept) = a.meets fun _ => accept := by
  funext h
  rw [recordOf_uses hu, Arena.meets]

theorem insert_follows (hw : s.space.Sound held) (m : Allocator) (t : TableId) (p : ArenaId)
    (h : Handle) (σ : Stacks) :
    s.space.Follows (s.does (.insert m t p h)) σ (restack s (.insert m t p h) σ) := by
  simp only [does, restack]
  rcases act_insert hw m t p h with
    ⟨e, he, -⟩ | ⟨table, a, r, events, w', hu, rfl, hr, he, -⟩ <;> rw [he]
  · exact Workspace.follows_same rfl σ
  · simp only [deed, recordOf_uses hu, hr, Option.elim]
    exact Workspace.follows_inserted hu hr events σ

theorem remove_follows (hσ : s.space.Agrees σ) (hw : s.space.Sound held) (t : TableId)
    (p : ArenaId) (key : UInt64) :
    s.space.Follows (s.does (.remove t p key)) σ (restack s (.remove t p key) σ) := by
  simp only [does, restack]
  rcases act_remove_cases hw t p with ⟨e, he, -⟩ | ⟨table, a, cs, hu, rfl, ht⟩
  · rw [he]
    exact Workspace.follows_same rfl σ
  · have hstack := congrFun (hσ.used t table a cs hu ht) key
    rcases act_remove hu ht key with ⟨hh, he⟩ | ⟨h, w', hh, he, -⟩ <;> rw [he]
    · have hnil : (σ t key).tail = σ t key := by
        rw [hstack, List.head?_eq_none_iff.mp hh]
        rfl
      simp only [deed, hnil, Workspace.put_eq_self]
      exact Workspace.follows_same rfl σ
    · obtain ⟨hs, hcons⟩ := List.head?_eq_some_iff.mp hh
      obtain ⟨r, hr, rfl⟩ := Workspace.exists_of_mem_stack (hcons ▸ List.mem_cons_self)
      have htail : (σ t r.key).tail = (σ t r.key).erase h := by
        rw [hstack, hcons, List.erase_cons_head, List.tail_cons]
      simp only [deed, htail]
      exact Workspace.follows_unlinked hu hr σ

theorem removeSame_follows (hσ : s.space.Agrees σ) (hw : s.space.Sound held) (t : TableId)
    (p : ArenaId) (template : Record α) (same : Record α → Record α → Bool) :
    s.space.Follows (s.does (.removeSame t p template same)) σ
      (restack s (.removeSame t p template same) σ) := by
  simp only [does, restack]
  rcases act_remove_cases hw t p with ⟨e, -, he⟩ | ⟨table, a, cs, hu, rfl, ht⟩
  · rw [he]
    exact Workspace.follows_same rfl σ
  · have hstack := congrFun (hσ.used t table a cs hu ht) template.key
    have hmeets := recordOf_any hu (same template)
    rcases act_removeSame hu ht template same with ⟨hh, he⟩ | ⟨h, w', hh, he, -⟩ <;> rw [he]
    · have hnone : (σ t template.key).eraseP (a.meets fun _ => same template) =
          σ t template.key := by
        rw [hstack]
        exact List.eraseP_of_forall_not fun h hm => by simpa using List.find?_eq_none.mp hh h hm
      simp only [deed, hmeets, hnone, Workspace.put_eq_self]
      exact Workspace.follows_same rfl σ
    · obtain ⟨r, hr, hkey⟩ := Workspace.exists_of_mem_stack (List.mem_of_find?_eq_some hh)
      rw [← hstack] at hh
      simp only [deed, hmeets, Workspace.eraseP_eq_erase hh]
      rw [← hkey]
      exact Workspace.follows_unlinked hu hr σ

theorem removeCurrent_follows (hw : s.space.Sound held) (c : Nat) (t : TableId) (p : ArenaId)
    (σ : Stacks) :
    s.space.Follows (s.does (.removeCurrent c t p)) σ (restack s (.removeCurrent c t p) σ) := by
  simp only [does, restack]
  rcases act_removeCurrent hw c t p with
    ⟨e, he⟩ | ⟨cur, table, a, cs, table', a', h, r, resume, -, hu, rfl, -, -, -, hr, -, he⟩ <;>
    rw [he]
  · exact Workspace.follows_same rfl σ
  · simp only [deed, recordOf_uses hu, hr, Option.elim]
    exact Workspace.follows_unlinked hu hr σ

theorem act_follows (hσ : s.space.Agrees σ) (hw : s.space.Sound held) (action : Action α) :
    s.space.Follows (s.does action) σ (restack s action σ) := by
  cases action with
  | insert m t p h => exact insert_follows hw m t p h σ
  | remove t p key => exact remove_follows hσ hw t p key
  | removeSame t p template same => exact removeSame_follows hσ hw t p template same
  | removeCurrent c t p => exact removeCurrent_follows hw c t p σ
  | _ =>
    refine Workspace.follows_same ?_ σ
    unfold does deed
    split <;> first | rfl | contradiction

theorem run_agrees (acts : List (Action α)) : (run acts).space.Agrees (stacksOf acts) := by
  induction acts using List.reverseRecOn with
  | nil =>
    refine ⟨fun t table a cs hu => ?_, fun _ _ => rfl⟩
    have htab := hu.table?
    simp [empty] at htab
  | append_singleton acts action ih =>
    have hw := run_sound acts
    rw [run_concat, stacksOf_concat]
    exact ih.step hw (act_change hw action) (act_follows ih hw action)

/-! ## Answers -/

theorem act_lookup (hσ : s.space.Agrees σ) (hu : s.space.Uses t table a) (ht : table.Indexes a cs)
    (key : UInt64) :
    (s.act (.lookup t table.arena key)).2 = .ok (.found (σ t key).head?) := by
  rw [hσ.used t table a cs hu ht]
  exact (act_read hu ht).1 key

theorem act_lookupSame (hσ : s.space.Agrees σ) (hu : s.space.Uses t table a)
    (ht : table.Indexes a cs) (template : Record α) (same : Record α → Record α → Bool) :
    (s.act (.lookupSame t table.arena template same)).2 =
      .ok (.found ((σ t template.key).find? fun h =>
        (s.recordOf table.arena h).any (same template))) := by
  rw [hσ.used t table a cs hu ht, recordOf_any hu]
  exact (act_read hu ht).2.1 template same

theorem act_removeCurrent_on (hu : s.space.Uses t table a) (ht : table.Indexes a cs) {c : Nat}
    {cur : Cursor} (hc : s.cursors[c]? = some cur) (hv : cur.isValid table = true)
    {passed rest : List Handle} (hs : cur.place.Splits cs passed rest) {h : Handle}
    (hon : cur.current? = some h) :
    (s.act (.removeCurrent c t table.arena)).2 = .ok (.handle h) := by
  rcases act_removeCurrent_splits hu ht hc hv hs with
    ⟨hnone, -⟩ | ⟨table', a', k, r, resume, hp, -, -, hact⟩
  · rw [hnone] at hon
    cases hon
  · rw [Cursor.current?, hp] at hon
    cases hon
    rw [hact]

theorem run_balances (acts : List (Action α)) :
    (run acts).space.Balances (fun t => tally (Deed.inserts t) acts)
      fun t => tally (Deed.unlinks t) acts := by
  induction acts using List.reverseRecOn with
  | nil => exact ⟨by simp [empty], fun _ _ => ⟨rfl, rfl⟩⟩
  | append_singleton acts action ih =>
    simp only [run_concat, tally_concat]
    exact ih.step (run_sound acts) (act_change (run_sound acts) action)

/-- After every run a table answers as its stacks say. They are altered by nothing but a successful
insertion, which pushes the record under the key it has then, and an unlinking, which takes out the
very record it answers with; and the table counts what is in them. -/
theorem tables_refine_stacks (acts : List (Action α)) {t : TableId} {table : Table}
    (ht : (run acts).space.table? t = some table) :
    let s := run acts
    let p := table.arena
    let σ := stacksOf acts t
    (∀ key, (s.act (.lookup t p key)).2 = .ok (.found (σ key).head?) ∧
      (s.act (.remove t p key)).2 = .ok (.found (σ key).head?) ∧
      ((σ key).head? = none → (s.act (.remove t p key)).1 = s)) ∧
    (∀ template same,
      let found := (σ template.key).find? fun h => (s.recordOf p h).any (same template)
      (s.act (.lookupSame t p template same)).2 = .ok (.found found) ∧
      (s.act (.removeSame t p template same)).2 = .ok (.found found) ∧
      (found = none → (s.act (.removeSame t p template same)).1 = s)) ∧
    (∀ c cur h, s.cursors[c]? = some cur → cur.isValid table = true → cur.current? = some h →
      bumps acts t < 2 ^ 64 → (s.act (.removeCurrent c t p)).2 = .ok (.handle h)) ∧
    (∀ action h events, s.does action = .inserted t h events → ∃ r, s.recordOf p h = some r ∧
      stacksOf (acts ++ [action]) t = Function.update σ r.key (h :: σ r.key)) ∧
    (∀ action h, s.does action = .unlinked t h → ∃ r, s.recordOf p h = some r ∧ h ∈ σ r.key ∧
      stacksOf (acts ++ [action]) t = Function.update σ r.key ((σ r.key).erase h)) ∧
    (∀ action, (s.does action).alters ≠ some t → stacksOf (acts ++ [action]) t = σ) ∧
    table.count = ∑ᶠ key, (σ key).length ∧
    table.count + tally (Deed.unlinks t) acts = tally (Deed.inserts t) acts := by
  intro s p σ
  have hw := run_sound acts
  have hσ := run_agrees acts
  obtain ⟨a, hu⟩ := hw.exists_uses ht
  obtain ⟨-, -, cs, hcs, -⟩ := hw.uses hu
  have hstacks : σ = Table.stack a cs := hσ.used t table a cs hu hcs
  refine ⟨fun key => ⟨act_lookup hσ hu hcs key, ?_⟩,
    fun template same => ⟨act_lookupSame hσ hu hcs template same, ?_⟩, ?_, ?_, ?_, ?_, ?_, ?_⟩
  · rw [hstacks]
    exact (act_remove hu hcs key).answer
  · rw [recordOf_any hu, hstacks]
    exact (act_removeSame hu hcs template same).answer
  · intro c cur h hc hv hon hlt
    obtain ⟨passed, rest, hs⟩ := cursor_splits acts hu hcs hc hlt hv
    exact act_removeCurrent_on hu hcs hc hv hs hon
  · intro action h events hd
    obtain ⟨r, hr⟩ := (hd ▸ act_change hw action).exists_of_inserted hu
    refine ⟨r, (recordOf_uses hu h).trans hr, ?_⟩
    rw [stacksOf_concat]
    exact (act_follows hσ hw action).inserted t table a h r events hd hu hr
  · intro action h hd
    obtain ⟨r, hr, hmem⟩ := (hd ▸ act_change hw action).exists_of_unlinked hu hcs
    refine ⟨r, (recordOf_uses hu h).trans hr, hstacks ▸ hmem, ?_⟩
    rw [stacksOf_concat]
    exact (act_follows hσ hw action).unlinked t table a h r hd hu hr
  · intro action hne
    rw [stacksOf_concat]
    exact (act_follows hσ hw action).kept t hne
  · rw [hstacks]
    exact Workspace.count_eq_finsum hcs
  · exact (run_balances acts).count t table ht

/-- Two records of one key, on either side of a growth, are stacked up. -/
theorem sample_stacks : stacksOf sample 0 4 = [⟨2, 1⟩, ⟨0, 1⟩] ∧
    ((run sample).act (.lookup 0 0 4)).2 = .ok (.found (some ⟨2, 1⟩)) ∧
    ((run sample).act (.remove 0 0 4)).2 = .ok (.found (some ⟨2, 1⟩)) ∧
    ∑ᶠ key, (stacksOf sample 0 key).length = 3 := by
  have ht : (run sample).space.table? 0 = some sampleTable := by rfl
  have hσ : stacksOf sample 0 4 = [⟨2, 1⟩, ⟨0, 1⟩] := by decide +kernel
  obtain ⟨hkey, -, -, -, -, -, hcount, -⟩ := tables_refine_stacks sample ht
  obtain ⟨hlookup, hremove, -⟩ := hkey 4
  rw [hσ] at hlookup hremove
  exact ⟨hσ, hlookup, hremove, hcount.symm⟩

end Session
end RecordIndex
