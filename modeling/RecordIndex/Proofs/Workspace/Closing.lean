import Mathlib
import RecordIndex.Proofs.Workspace.Fates
import RecordIndex.Proofs.Workspace.Operations

/-! # Between the steps of a teardown

What is still to be taken out of a table that is being taken apart stays as it is, whatever else is
done to the workspace: nobody can unlink these records or release them. Once the table is gone, this
holds of what it held last. The other tables go on as before, and a record gets into one of them by
an insertion only.
-/
namespace RecordIndex
variable {α : Type}

def Deed.accounts (held : Holdings) (deeds : List Deed) : Holdings := deeds.foldl account held

@[simp] theorem Deed.accounts_concat (held : Holdings) (deeds : List Deed) (deed : Deed) :
    accounts held (deeds ++ [deed]) = deed.account (accounts held deeds) := List.foldl_concat ..

theorem Deed.accounts_append (held : Holdings) (deeds more : List Deed) :
    accounts held (deeds ++ more) = accounts (accounts held deeds) more := List.foldl_append

/-- A record that a table holds afterwards was held by it before, or it was inserted. -/
theorem Deed.mem_account {held : Holdings} {deed : Deed} {u : TableId} {k : Handle}
    (hk : k ∈ (deed.account held u).records) :
    (k ∈ (held u).records ∧ (deed.account held u).arena = (held u).arena) ∨
      ∃ events, deed = .inserted u k events := by
  have hupdate : ∀ (t : TableId) (x : Held), k ∈ (Function.update held t x u).records →
      (u = t ∧ k ∈ x.records) ∨ (u ≠ t ∧ k ∈ (held u).records) := by
    intro t x hx
    by_cases hu : u = t
    · subst hu
      exact Or.inl ⟨rfl, by rwa [Function.update_self] at hx⟩
    · exact Or.inr ⟨hu, by rwa [Function.update_of_ne hu] at hx⟩
  cases deed with
  | opened t p =>
    rcases hupdate t _ hk with ⟨-, hm⟩ | ⟨hu, hm⟩
    · simp at hm
    · exact Or.inl ⟨hm, by rw [account, Function.update_of_ne hu]⟩
  | inserted t h events =>
    rcases hupdate t _ hk with ⟨rfl, hm⟩ | ⟨hu, hm⟩
    · rcases List.mem_cons.mp hm with rfl | hm
      · exact Or.inr ⟨events, rfl⟩
      · exact Or.inl ⟨hm, Workspace.arena_update ..⟩
    · exact Or.inl ⟨hm, Workspace.arena_update ..⟩
  | unlinked t h | taken t h =>
    rcases hupdate t _ hk with ⟨rfl, hm⟩ | ⟨hu, hm⟩
    · exact Or.inl ⟨List.mem_of_mem_erase hm, Workspace.arena_update ..⟩
    · exact Or.inl ⟨hm, Workspace.arena_update ..⟩
  | _ => exact Or.inl ⟨hk, rfl⟩

theorem Deed.mem_accounts {held : Holdings} {deeds : List Deed} {u : TableId} {k : Handle}
    (hk : k ∈ (accounts held deeds u).records) :
    (k ∈ (held u).records ∧ (accounts held deeds u).arena = (held u).arena) ∨
      ∃ events, .inserted u k events ∈ deeds := by
  induction deeds using List.reverseRecOn with
  | nil => exact Or.inl ⟨hk, rfl⟩
  | append_singleton deeds deed ih =>
    rw [accounts_concat] at hk ⊢
    rcases mem_account hk with ⟨hm, ha⟩ | ⟨events, rfl⟩
    · rcases ih hm with ⟨hm, ha'⟩ | ⟨events, hi⟩
      · exact Or.inl ⟨hm, ha.trans ha'⟩
      · exact Or.inr ⟨events, List.mem_append_left _ hi⟩
    · exact Or.inr ⟨events, by simp⟩

namespace Deed
variable {deed : Deed} {t : TableId}

theorem account_arena {held : Holdings} (hd : ∀ p, deed ≠ .opened t p) :
    (deed.account held t).arena = (held t).arena := by
  cases deed with
  | opened u p =>
    have hne : t ≠ u := by
      rintro rfl
      exact hd p rfl
    rw [account, Function.update_of_ne hne]
  | inserted | unlinked | taken => exact Workspace.arena_update ..
  | _ => rfl

/-- A record that a table holds is held by it afterwards, unless it is unlinked or taken out. -/
theorem mem_account_of_mem {held : Holdings} {h : Handle} (hh : h ∈ (held t).records)
    (hopened : ∀ p, deed ≠ .opened t p) (hunlinked : deed ≠ .unlinked t h)
    (htaken : deed ≠ .taken t h) : h ∈ (deed.account held t).records := by
  have herase : ∀ (u : TableId) k, (u = t → k ≠ h) → h ∈
      (Function.update held u { held u with records := (held u).records.erase k } t).records := by
    intro u k hk
    by_cases hu : t = u
    · subst hu
      rw [Function.update_self]
      exact (List.mem_erase_of_ne (hk rfl).symm).mpr hh
    · rwa [Function.update_of_ne hu]
  cases deed with
  | opened u p =>
    have hu : t ≠ u := by
      rintro rfl
      exact hopened p rfl
    rwa [account, Function.update_of_ne hu]
  | inserted u k events =>
    by_cases hu : t = u
    · subst hu
      rw [account, Function.update_self]
      exact List.mem_cons_of_mem _ hh
    · rwa [account, Function.update_of_ne hu]
  | unlinked u k =>
    apply herase
    rintro rfl rfl
    exact hunlinked rfl
  | taken u k =>
    apply herase
    rintro rfl rfl
    exact htaken rfl
  | _ => exact hh

end Deed

namespace Workspace
variable {w w' : Workspace α} {held : Holdings} {deed : Deed} {t : TableId} {p : ArenaId}
  {hs : List Handle}

theorem Sound.perm_of_closing (hw : w.Sound held) (hc : w.Closing t p hs) :
    (held t).arena = p ∧ hs.Perm (held t).records := by
  obtain ⟨d, a, ht, rfl, ha, hd⟩ := hc
  obtain ⟨b, hb, hp, rest, hrest, hperm⟩ := hw.tables t _ ht
  rw [hp, hb] at ha
  cases ha
  obtain rfl := hd.unique hrest
  exact ⟨hp.symm, hperm⟩

theorem Sound.others_kept (hw : w.Sound held) (hc : Change w deed w') {x : Holding}
    (ht : w.tables[t]? = some x) (hx : ∀ table, x ≠ .active table)
    (hretires : deed.retires ≠ some t) (htaken : ∀ h, deed ≠ .taken t h) :
    w'.tables[t]? = w.tables[t]? ∧
      ∀ k ∈ (held t).records, w'.thread? (held t).arena k = w.thread? (held t).arena k := by
  -- a table in use is another one
  have hne : ∀ {u : TableId} {table : Table} {a : Arena α}, w.Uses u table a → t ≠ u := by
    rintro u table a hu rfl
    exact hx table (Option.some.inj (ht.symm.trans hu.tables))
  cases hc with
  | quiet hq =>
    obtain ⟨a, ha, -⟩ := hw.tables t _ ht
    obtain ⟨a', ha', -, he⟩ := hq.kept _ a ha
    refine ⟨by rw [hq.tables], fun k _ => ?_⟩
    rw [thread?_of_arena ha', thread?_of_arena ha, he]
  | opened =>
    have hlt := (Array.getElem?_eq_some_iff.mp ht).1
    exact ⟨by rw [Array.getElem?_push_lt hlt, Array.getElem?_eq_getElem hlt], fun _ _ => rfl⟩
  | inserted hu hcs hr hl hi =>
    exact hw.transfer_other (hw.transfer_inserted hu hcs hr hl hi) (hne hu)
  | unlinked hu hcs hi => exact hw.transfer_other (hw.transfer_unlinked hu hcs hi) (hne hu)
  | ended u =>
    have hut : u ≠ t := fun he => hretires (congrArg some he)
    exact ⟨Array.getElem?_setIfInBounds_ne hut, fun _ _ => rfl⟩
  | closed hu =>
    exact ⟨Array.getElem?_setIfInBounds_ne (hne hu).symm, fun _ _ => rfl⟩
  | @taken u _ _ _ h hu ha hn =>
    exact hw.transfer_other (hw.transfer_taken hu ha hn) fun he => htaken h (he ▸ rfl)

/-- Only the teardown itself and the end of the table make a difference to what remains. -/
theorem Sound.closing_kept (hw : w.Sound held) (hc : Change w deed w') (h : w.Closing t p hs)
    (hretires : deed.retires ≠ some t) (htaken : ∀ h, deed ≠ .taken t h) :
    w'.Closing t p hs ∧ ∀ k ∈ hs, w'.thread? p k = w.thread? p k := by
  obtain ⟨rfl, hperm⟩ := hw.perm_of_closing h
  obtain ⟨d, a, ht, hp, ha, hd⟩ := h
  obtain ⟨htab, hthread⟩ := hw.others_kept hc ht nofun hretires htaken
  have hkept : ∀ k ∈ hs, w'.thread? (held t).arena k = w.thread? (held t).arena k := fun k hk =>
    hthread k (hperm.mem_iff.mp hk)
  obtain ⟨a', ha', hp', -⟩ := (hw.step hc).tables t _ (htab.trans ht)
  rw [← hp', hp] at ha'
  refine ⟨⟨d, a', htab.trans ht, hp, ha', hd.congr fun k hk => ?_⟩, hkept⟩
  rw [← thread?_of_arena ha', hkept k hk, thread?_of_arena ha]

/-- A table that is gone stays gone, and what it held last is kept as it was. -/
theorem Sound.gone_kept (hw : w.Sound held) (hc : Change w deed w')
    (ht : w.tables[t]? = some .gone) :
    w'.tables[t]? = some .gone ∧ deed.account held t = held t ∧
      ∀ k ∈ (held t).records, w'.thread? (held t).arena k = w.thread? (held t).arena k := by
  have hlt := (Array.getElem?_eq_some_iff.mp ht).1
  have hne : ∀ {u : TableId} {x : Holding}, w.tables[u]? = some x → x ≠ .gone → t ≠ u := by
    rintro u x hu hx rfl
    exact hx (Option.some.inj (hu.symm.trans ht))
  have hother : ∀ {u : TableId} {x : Held}, t ≠ u → Function.update held u x t = held t :=
    fun hu => Function.update_of_ne hu ..
  by_cases hretires : deed.retires = some t
  · cases hc with
    | ended u =>
      cases hretires
      exact ⟨(tables_setTable ht .gone t).trans (if_pos rfl), rfl, fun _ _ => rfl⟩
    | closed hu =>
      cases hretires
      exact absurd rfl (hne hu.tables nofun)
    | _ => cases hretires
  · have htaken : ∀ h, deed ≠ .taken t h := by
      rintro h rfl
      cases hc with
      | taken hclosing => exact absurd rfl (hne hclosing nofun)
    obtain ⟨htab, hthread⟩ := hw.others_kept hc ht nofun hretires htaken
    refine ⟨htab.trans ht, ?_, hthread⟩
    cases hc with
    | opened => exact hother hlt.ne
    | inserted hu | unlinked hu => exact hother (hne hu.tables nofun)
    | taken hclosing => exact hother (hne hclosing nofun)
    | _ => rfl

/-- A table stays in use until it is retired. -/
theorem Sound.in_use (hw : w.Sound held) (hc : Change w deed w') {table : Table} {a : Arena α}
    (hu : w.Uses t table a) (hretires : deed.retires ≠ some t) :
    ∃ table' a', w'.Uses t table' a' := by
  by_cases halters : deed.alters = some t
  · cases hc with
    | inserted hv _ _ _ hi =>
      cases halters
      exact ⟨_, _, put_uses hv hi.same.arena _⟩
    | unlinked hv _ hi =>
      cases halters
      exact ⟨_, _, put_uses hv hi.same.arena _⟩
    | _ => cases halters
  · obtain ⟨-, -, cs, hcs, -⟩ := hw.uses hu
    obtain ⟨a', hu', -⟩ := hw.kept hc hu hcs halters hretires
    exact ⟨table, a', hu'⟩

def Lists (w : Workspace α) (t : TableId) (p : ArenaId) (h : Handle) : Prop :=
  ∃ hs, w.handles t p = .ok hs ∧ h ∈ hs

theorem Sound.lists (hw : w.Sound held) {table : Table} {a : Arena α} (hu : w.Uses t table a)
    {h : Handle} (hh : h ∈ (held t).records) (hp : (held t).arena = p) : w.Lists t p h := by
  obtain ⟨-, harena, cs, hcs, hperm⟩ := hw.uses hu
  have hlisted := hu.handles hcs
  rw [harena, hp] at hlisted
  exact ⟨cs.flatten, hlisted, hperm.mem_iff.mpr hh⟩

/-! ## Stranded records -/

variable {h : Handle}

theorem Sound.lists_iff (hw : w.Sound held) :
    w.Lists t p h ↔ (∃ table, w.table? t = some table) ∧ (held t).arena = p ∧
      h ∈ (held t).records := by
  constructor
  · rintro ⟨hs, hlisted, hh⟩
    rcases hw.getPair_cases t p with ⟨e, he⟩ | ⟨table, a, cs, hu, rfl, hcs⟩
    · simp [handles, he, bind, Except.bind] at hlisted
    · obtain ⟨-, harena, hperm⟩ := hw.perm hu hcs
      rw [hu.handles hcs] at hlisted
      cases hlisted
      exact ⟨⟨table, hu.table?⟩, harena.symm, hperm.mem_iff.mp hh⟩
  · rintro ⟨⟨table, ht⟩, hp, hh⟩
    obtain ⟨a, hu⟩ := hw.exists_uses ht
    exact hw.lists hu hh hp

theorem Sound.retired (hw : w.Sound held) (hc : Change w deed w')
    (hretires : deed.retires = some t) : w'.table? t = none := by
  by_contra hne
  obtain ⟨table, ht⟩ := Option.ne_none_iff_exists'.mp hne
  obtain ⟨a, hu⟩ := (hw.step hc).exists_uses ht
  cases hc with
  | ended u =>
    cases hretires
    exact not_uses_setTable (fun _ he => by cases he) hu
  | closed =>
    cases hretires
    exact not_uses_setTable (fun _ he => by cases he) hu
  | _ => cases hretires

/-- A table that is not in use any more holds the record of the arena `p` still. -/
structure Strands (w : Workspace α) (held : Holdings) (t : TableId) (p : ArenaId) (h : Handle) :
    Prop where
  unused : w.table? t = none
  arena : (held t).arena = p
  mem : h ∈ (held t).records

/-- A table that goes out of use strands what it lists, until that is taken out of it. -/
theorem Sound.strands_step (hw : w.Sound held) (hc : Change w deed w') :
    Strands w' (deed.account held) t p h ↔
      (w.Lists t p h ∧ deed.retires = some t) ∨ (Strands w held t p h ∧ deed ≠ .taken t h) := by
  constructor
  · rintro ⟨hunused, hp, hh⟩
    rcases Deed.mem_account hh with ⟨hm, ha⟩ | ⟨events, rfl⟩
    · have hp' := ha.symm.trans hp
      cases ht : w.table? t with
      | some table =>
        obtain ⟨a, hu⟩ := hw.exists_uses ht
        refine Or.inl ⟨hw.lists hu hm hp', ?_⟩
        by_contra hretires
        obtain ⟨table', a', hu'⟩ := hw.in_use hc hu hretires
        simp [hu'.table?] at hunused
      | none =>
        refine Or.inr ⟨⟨ht, hp', hm⟩, ?_⟩
        rintro rfl
        rw [Deed.account, Function.update_self] at hh
        exact (hw.nodup t).not_mem_erase hh
    · obtain ⟨table, a, r, hu, -⟩ := hc.uses_of_inserted
      obtain ⟨table', a', hu'⟩ := hw.in_use hc hu nofun
      simp [hu'.table?] at hunused
  · rintro (⟨hl, hretires⟩ | ⟨⟨hunused, hp, hh⟩, htaken⟩)
    · obtain ⟨-, hp, hh⟩ := hw.lists_iff.mp hl
      have haccount : deed.account held = held := by cases deed <;> cases hretires <;> rfl
      rw [haccount]
      exact ⟨hw.retired hc hretires, hp, hh⟩
    · have ht : t < w.tables.size := by
        by_contra hge
        rw [hw.fresh t (Nat.not_lt.mp hge)] at hh
        cases hh
      have hopened : ∀ q, deed ≠ .opened t q := by
        rintro q rfl
        cases hc with
        | opened => exact absurd ht (Nat.lt_irrefl _)
      have hunlinked : deed ≠ .unlinked t h := by
        rintro rfl
        cases hc with
        | unlinked hu => simp [hu.table?] at hunused
      exact ⟨(hw.out_of_use hc ht hunused).1, (Deed.account_arena hopened).trans hp,
        Deed.mem_account_of_mem hh hopened hunlinked htaken⟩

end Workspace
end RecordIndex
