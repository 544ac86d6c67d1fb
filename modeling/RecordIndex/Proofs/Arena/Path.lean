import Mathlib
import RecordIndex.Proofs.Arena.Contents

/-! # Paths along the links

`Path` relates a link to the handles met from it and to the link after the last of them. A path that
ends has no handle twice, so it is no longer than the arena has slots, and the bounded readers of a
chain meet all of it.
-/
namespace RecordIndex.Arena
variable {α : Type}

/-- The handles met along the links from `head` on, up to a record whose link is `last`. -/
def Path (a : Arena α) : Option Handle → List Handle → Option Handle → Prop
  | head, [], last => head = last
  | head, h :: hs, last => head = some h ∧ ∃ r, a.get? h = some r ∧ a.Path r.next hs last

@[simp] theorem path_nil {a : Arena α} {head last : Option Handle} :
    a.Path head [] last ↔ head = last := Iff.rfl

@[simp] theorem path_cons {a : Arena α} {head last : Option Handle} {h : Handle}
    {hs : List Handle} :
    a.Path head (h :: hs) last ↔ head = some h ∧ ∃ r, a.get? h = some r ∧ a.Path r.next hs last :=
  Iff.rfl

theorem path_append {a : Arena α} {head last : Option Handle} {hs ks : List Handle} :
    a.Path head (hs ++ ks) last ↔ ∃ link, a.Path head hs link ∧ a.Path link ks last := by
  induction hs generalizing head with
  | nil => simp
  | cons h hs ih =>
    constructor
    · rintro ⟨rfl, r, hr, hp⟩
      obtain ⟨link, hl, hk⟩ := ih.mp hp
      exact ⟨link, ⟨rfl, r, hr, hl⟩, hk⟩
    · rintro ⟨link, ⟨rfl, r, hr, hl⟩, hk⟩
      exact ⟨rfl, r, hr, ih.mpr ⟨link, hl, hk⟩⟩

theorem Path.head_eq {a : Arena α} {head last : Option Handle} {hs : List Handle}
    (hp : a.Path head hs last) : head = hs.head?.or last := by
  cases hs with
  | nil => simpa using hp
  | cons h hs => simpa using hp.1

theorem Path.live {a : Arena α} {head last : Option Handle} {hs : List Handle}
    (hp : a.Path head hs last) : ∀ h ∈ hs, ∃ r, a.get? h = some r := by
  induction hs generalizing head with
  | nil => simp
  | cons k hs ih =>
    obtain ⟨-, r, hr, hrest⟩ := hp
    intro h hh
    rcases List.mem_cons.mp hh with rfl | hh
    · exact ⟨r, hr⟩
    · exact ih hrest h hh

theorem Path.congr {a a' : Arena α} {head last : Option Handle} {hs : List Handle}
    (hp : a.Path head hs last)
    (he : ∀ h ∈ hs, ∀ r, a.get? h = some r → ∃ r', a'.get? h = some r' ∧ r'.next = r.next) :
    a'.Path head hs last := by
  induction hs generalizing head with
  | nil => exact hp
  | cons h hs ih =>
    obtain ⟨rfl, r, hr, hrest⟩ := hp
    obtain ⟨r', hr', hn⟩ := he h List.mem_cons_self r hr
    refine ⟨rfl, r', hr', ?_⟩
    rw [hn]
    exact ih hrest fun k hk => he k (List.mem_cons_of_mem _ hk)

theorem Path.unique {a : Arena α} {head : Option Handle} {hs ks : List Handle}
    (hp : a.Path head hs none) (hq : a.Path head ks none) : hs = ks := by
  induction hs generalizing head ks with
  | nil =>
    cases hp
    cases ks with
    | nil => rfl
    | cons k ks => cases hq.1
  | cons h hs ih =>
    obtain ⟨rfl, r, hr, hrest⟩ := hp
    cases ks with
    | nil => cases hq
    | cons k ks =>
      obtain ⟨hk, s, hs', hrest'⟩ := hq
      cases hk
      rw [hr] at hs'
      cases hs'
      rw [ih hrest hrest']

/-- A path that met a handle again would go round for ever. -/
theorem Path.nodup {a : Arena α} {head : Option Handle} {hs : List Handle}
    (hp : a.Path head hs none) : hs.Nodup := by
  induction hs generalizing head with
  | nil => exact List.nodup_nil
  | cons h hs ih =>
    have hrest := hp
    obtain ⟨rfl, r, hr, htail⟩ := hp
    refine List.nodup_cons.mpr ⟨?_, ih htail⟩
    intro hm
    obtain ⟨xs, ys, rfl⟩ := List.append_of_mem hm
    obtain ⟨link, -, hlink⟩ := path_append.mp htail
    have hl : link = some h := hlink.1
    subst hl
    have he := hlink.unique hrest
    have hlen := congrArg List.length he
    simp only [List.length_cons, List.length_append] at hlen
    omega

theorem length_le_size {a : Arena α} {hs : List Handle} (hn : hs.Nodup)
    (hl : ∀ h ∈ hs, ∃ r, a.get? h = some r) : hs.length ≤ a.slots.size := by
  have hslots : (hs.map Handle.slot).Nodup := by
    refine List.Nodup.map_on ?_ hn
    intro h hh k hk he
    obtain ⟨r, hr⟩ := hl h hh
    obtain ⟨s, hs⟩ := hl k hk
    exact eq_of_slot_eq hr hs he
  have hsub : hs.map Handle.slot ⊆ List.range a.slots.size := by
    intro i hi
    obtain ⟨h, hh, rfl⟩ := List.mem_map.mp hi
    obtain ⟨r, hr⟩ := hl h hh
    exact List.mem_range.mpr (slot_lt_size hr)
  simpa using (hslots.subperm hsub).length_le

/-! ## Reading a chain -/

def read (a : Arena α) (hs : List Handle) : List (Entry α) :=
  hs.filterMap fun h => (a.get? h).map (h, ·)

theorem read_cons {a : Arena α} {h : Handle} {r : Record α} (hr : a.get? h = some r)
    (hs : List Handle) : a.read (h :: hs) = (h, r) :: a.read hs := by
  simp [read, hr]

theorem read_append (a : Arena α) (hs ks : List Handle) :
    a.read (hs ++ ks) = a.read hs ++ a.read ks := List.filterMap_append

theorem read_reverse (a : Arena α) (hs : List Handle) : a.read hs.reverse = (a.read hs).reverse :=
  List.filterMap_reverse

theorem map_fst_read {a : Arena α} {hs : List Handle} (hl : ∀ h ∈ hs, ∃ r, a.get? h = some r) :
    (a.read hs).map (·.1) = hs := by
  induction hs with
  | nil => rfl
  | cons h hs ih =>
    obtain ⟨r, hr⟩ := hl h List.mem_cons_self
    have := ih fun k hk => hl k (List.mem_cons_of_mem _ hk)
    simpa [read, hr] using this

theorem read_drop {a : Arena α} {hs : List Handle} (hl : ∀ h ∈ hs, ∃ r, a.get? h = some r)
    (n : Nat) : a.read (hs.drop n) = (a.read hs).drop n := by
  induction hs generalizing n with
  | nil => simp [read]
  | cons h hs ih =>
    obtain ⟨r, hr⟩ := hl h List.mem_cons_self
    cases n with
    | zero => rfl
    | succ n =>
      rw [List.drop_succ_cons, ih (fun k hk => hl k (List.mem_cons_of_mem _ hk)), read_cons hr,
        List.drop_succ_cons]

theorem mem_read {a : Arena α} {hs : List Handle} {e : Entry α} :
    e ∈ a.read hs ↔ e.1 ∈ hs ∧ a.get? e.1 = some e.2 := by
  obtain ⟨h, r⟩ := e
  simp only [read, List.mem_filterMap, Option.map_eq_some_iff, Prod.mk.injEq]
  constructor
  · rintro ⟨k, hk, s, hs, rfl, rfl⟩
    exact ⟨hk, hs⟩
  · rintro ⟨hh, hr⟩
    exact ⟨h, hh, r, hr, rfl, rfl⟩

theorem Path.followBack? {a : Arena α} {head : Option Handle} {hs : List Handle}
    (hp : a.Path head hs none) (steps : Nat) (hs' : hs.length ≤ steps) :
    a.followBack? steps head [] = some (a.read hs).reverse := by
  induction hs generalizing head steps with
  | nil =>
    cases hp
    simp [read]
  | cons h hs ih =>
    obtain ⟨rfl, r, hr, hrest⟩ := hp
    cases steps with
    | zero => simp at hs'
    | succ steps =>
      simp only [Arena.followBack?, hr]
      rw [followBack?_eq_append, ih hrest steps (by simpa using hs'), read_cons hr]
      simp

theorem Path.chain? {a : Arena α} {head : Option Handle} {hs : List Handle}
    (hp : a.Path head hs none) : a.chain? head = some (a.read hs) := by
  rw [Arena.chain?, hp.followBack? _ (length_le_size hp.nodup hp.live)]
  simp

/-! ## Searching a chain -/

def meets (a : Arena α) (p : Handle → Record α → Bool) (h : Handle) : Bool := (a.get? h).any (p h)

@[simp] theorem meets_of_get? {a : Arena α} {p : Handle → Record α → Bool} {h : Handle}
    {r : Record α} (hr : a.get? h = some r) : a.meets p h = p h r := by
  simp [meets, hr]

/-- A search finds nothing, or it finds the first handle of the path that satisfies `p`, after the
one in front of it. -/
theorem Path.locateFrom {a : Arena α} {head : Option Handle} {hs : List Handle}
    (hp : a.Path head hs none) (p : Handle → Record α → Bool) (steps : Nat)
    (before : Option Handle) (hs' : hs.length ≤ steps) :
    (a.locateFrom p steps before head = .ok none ∧ hs.find? (a.meets p) = none) ∨
      ∃ xs h ys r, hs = xs ++ h :: ys ∧ a.get? h = some r ∧ hs.find? (a.meets p) = some h ∧
        a.locateFrom p steps before head = .ok (some (xs.getLast?.or before, h, r)) := by
  induction hs generalizing head steps before with
  | nil =>
    cases hp
    exact Or.inl ⟨by cases steps <;> rfl, rfl⟩
  | cons k hs ih =>
    obtain ⟨rfl, s, hk, hrest⟩ := hp
    cases steps with
    | zero => simp at hs'
    | succ steps =>
      simp only [Arena.locateFrom, hk]
      cases hpk : p k s with
      | true => exact Or.inr ⟨[], k, hs, s, by simp [hk, hpk]⟩
      | false =>
        simp only [Bool.false_eq_true, ↓reduceIte, List.find?_cons, meets_of_get? hk, hpk]
        rcases ih hrest steps (some k) (by simpa using hs') with
          h | ⟨xs, h, ys, r, rfl, hr, hf, hloc⟩
        · exact Or.inl h
        · refine Or.inr ⟨k :: xs, h, ys, r, rfl, hr, hf, ?_⟩
          rw [hloc]
          cases xs <;> simp [List.getLast?_cons]

/-- More steps than the path has records make no difference to a search. -/
theorem Path.locateFrom_eq {a : Arena α} {head : Option Handle} {hs : List Handle}
    (hp : a.Path head hs none) (p : Handle → Record α → Bool) {m n : Nat} (hm : hs.length ≤ m)
    (hn : hs.length ≤ n) (before : Option Handle) :
    a.locateFrom p m before head = a.locateFrom p n before head := by
  induction hs generalizing head m n before with
  | nil =>
    cases hp
    cases m <;> cases n <;> rfl
  | cons k hs ih =>
    obtain ⟨rfl, s, hk, hrest⟩ := hp
    cases m with
    | zero => simp at hm
    | succ m =>
      cases n with
      | zero => simp at hn
      | succ n =>
        simp only [Arena.locateFrom, hk]
        rw [ih hrest (by simpa using hm) (by simpa using hn)]

theorem Path.locate {a : Arena α} {head : Option Handle} {hs : List Handle}
    (hp : a.Path head hs none) (p : Handle → Record α → Bool) :
    (a.locate p head = .ok none ∧ hs.find? (a.meets p) = none) ∨
      ∃ xs h ys r, hs = xs ++ h :: ys ∧ a.get? h = some r ∧ hs.find? (a.meets p) = some h ∧
        a.locate p head = .ok (some (xs.getLast?, h, r)) := by
  simpa [Arena.locate] using
    hp.locateFrom p a.slots.size none (length_le_size hp.nodup hp.live)

/-! ## Linking records -/

/-- The two arenas differ in the links of the listed records only, and these are linked now. -/
structure Links (a a' : Arena α) (hs : List Handle) : Prop where
  label : ∀ k, a'.label? k = a.label? k
  other : ∀ k, k ∉ hs → a'.get? k = a.get? k
  linked : ∀ k ∈ hs, ∃ r, a'.get? k = some r ∧ r.linked = true
  sound : a.Sound → a'.Sound

theorem links_nil (a : Arena α) : a.Links a [] :=
  ⟨fun _ => rfl, fun _ _ => rfl, by simp, id⟩

theorem links_link {a : Arena α} {h : Handle} {r : Record α} (hr : a.get? h = some r)
    (next : Option Handle) : a.Links (a.link h next) [h] := by
  refine ⟨fun k => by simp, ?_, ?_, fun ha => ha.link h next⟩
  · intro k hk
    rw [get?_link, if_neg (by simpa using hk)]
  · intro k hk
    obtain rfl := List.mem_singleton.mp hk
    exact ⟨{ r with next, linked := true }, by rw [get?_link, if_pos rfl, hr]; rfl, rfl⟩

theorem Links.trans {a a' a'' : Arena α} {hs ks : List Handle} (h : a.Links a' hs)
    (h' : a'.Links a'' ks) : a.Links a'' (hs ++ ks) := by
  refine ⟨fun k => (h'.label k).trans (h.label k), ?_, ?_, h'.sound ∘ h.sound⟩
  · intro k hk
    rw [List.mem_append, not_or] at hk
    rw [h'.other k hk.2, h.other k hk.1]
  · intro k hk
    by_cases hk' : k ∈ ks
    · exact h'.linked k hk'
    · rw [h'.other k hk']
      exact h.linked k ((List.mem_append.mp hk).resolve_right hk')

theorem Links.perm {a a' : Arena α} {hs ks : List Handle} (h : a.Links a' hs)
    (hp : hs.Perm ks) : a.Links a' ks :=
  ⟨h.label, fun k hk => h.other k fun hm => hk (hp.mem_iff.mp hm),
    fun k hk => h.linked k (hp.mem_iff.mpr hk), h.sound⟩

/-! ## Cutting a record out of its path -/

/-- Unlinks a record and leads the one in front of it, if there is one, on to `next`. -/
def cut (a : Arena α) (before : Option Handle) (h : Handle) (next : Option Handle) : Arena α :=
  match before with
  | some p => (a.unlink h).redirect p next
  | none => a.unlink h

theorem get?_cut (a : Arena α) (before : Option Handle) {h k : Handle} (next : Option Handle)
    (hk : k ≠ h) (hb : before ≠ some k) : (a.cut before h next).get? k = a.get? k := by
  cases before with
  | none => rw [cut, get?_unlink, if_neg hk]
  | some p =>
    have hp : k ≠ p := fun he => hb (by rw [he])
    rw [cut, get?_redirect, if_neg hp, get?_unlink, if_neg hk]

theorem get?_cut_self {a : Arena α} {before : Option Handle} {h : Handle} {r : Record α}
    (hr : a.get? h = some r) (next : Option Handle) (hb : before ≠ some h) :
    (a.cut before h next).get? h = some r.detach := by
  cases before with
  | none => rw [cut, get?_unlink, if_pos rfl, hr, Option.map_some]
  | some p =>
    have hp : h ≠ p := fun he => hb (by rw [he])
    rw [cut, get?_redirect, if_neg hp, get?_unlink, if_pos rfl, hr, Option.map_some]

theorem get?_cut_before {a : Arena α} {p h : Handle} {r : Record α} (hr : a.get? p = some r)
    (next : Option Handle) (hp : p ≠ h) :
    (a.cut (some p) h next).get? p = some { r with next } := by
  rw [cut, get?_redirect, if_pos rfl, get?_unlink, if_neg hp, hr, Option.map_some]

@[simp] theorem label?_cut (a : Arena α) (before : Option Handle) (h : Handle)
    (next : Option Handle) (k : Handle) : (a.cut before h next).label? k = a.label? k := by
  cases before <;> simp [cut]

theorem Sound.cut {a : Arena α} (ha : a.Sound) {before : Option Handle} {h : Handle}
    (next : Option Handle)
    (hb : ∀ p, before = some p → p ≠ h ∧ ∃ r, a.get? p = some r ∧ r.linked = true) :
    (a.cut before h next).Sound := by
  cases before with
  | none => exact ha.unlink h
  | some p =>
    obtain ⟨hp, r, hr, hl⟩ := hb p rfl
    refine (ha.unlink h).redirect (r := r) ?_ hl next
    rw [get?_unlink, if_neg hp, hr]

/-- The path goes on past the record cut out; if that was the first, the link to it has to be
replaced by its successor. -/
theorem Path.cut {a : Arena α} {head : Option Handle} {xs ys : List Handle} {h : Handle}
    {r : Record α} (hp : a.Path head (xs ++ h :: ys) none) (hr : a.get? h = some r) :
    (a.cut xs.getLast? h r.next).Path (if xs.getLast? = none then r.next else head) (xs ++ ys)
      none := by
  have hn := hp.nodup
  have hdis := (List.nodup_append.mp hn).2.2
  have hny : h ∉ ys := (List.nodup_cons.mp (List.nodup_append.mp hn).2.1).1
  obtain ⟨link, hx, rfl, s, hs, hy⟩ := path_append.mp hp
  rw [hr] at hs
  cases hs
  rcases List.eq_nil_or_concat xs with rfl | ⟨zs, p, rfl⟩
  · refine hy.congr fun k hk t ht => ⟨t, ?_, rfl⟩
    have hkh : k ≠ h := by rintro rfl; exact hny hk
    rw [get?_cut a _ _ hkh (by simp), ht]
  · rw [List.concat_eq_append] at hx hn hdis ⊢
    obtain ⟨link, hz, rfl, t, ht, -⟩ := path_append.mp hx
    have hpz : p ∉ zs := fun hm =>
      (List.nodup_append.mp (List.nodup_append.mp hn).1).2.2 p hm p (by simp) rfl
    have hph : p ≠ h := hdis p (by simp) h (by simp)
    simp only [List.getLast?_append, List.getLast?_singleton, Option.some_or, reduceCtorEq,
      ↓reduceIte, List.append_assoc]
    refine path_append.mpr ⟨some p, hz.congr ?_, rfl, _, get?_cut_before ht _ hph, hy.congr ?_⟩
    · intro k hk u hu
      have hkh : k ≠ h := hdis k (by simp [hk]) h (by simp)
      have hkp : some p ≠ some k := fun he => hpz (Option.some.inj he ▸ hk)
      exact ⟨u, by rw [get?_cut a _ _ hkh hkp, hu], rfl⟩
    · intro k hk u hu
      have hkh : k ≠ h := by rintro rfl; exact hny hk
      have hkp : some p ≠ some k := fun he =>
        hdis p (by simp) k (List.mem_cons_of_mem _ hk) (Option.some.inj he)
      exact ⟨u, by rw [get?_cut a _ _ hkh hkp, hu], rfl⟩

end RecordIndex.Arena
