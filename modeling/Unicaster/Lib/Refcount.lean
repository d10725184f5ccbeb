/-
# Reference counting, as bookkeeping

Shared objects are owned through SLOTS: places that each hold one object or nothing.  An
object carries a counter; the owner that brings it to zero leaves the object in a slot of
its own (`dying`) and frees it from there, in a later step.  Nothing is said about who the
owners are, how many there are, or in which order they act.

`Ledger.Sound` is what reference counting promises: the counter of every object that is not
freed is the number of slots that hold it, and each allocated object is in exactly one of
three states: owned, dying in exactly one slot, or freed exactly once.

There are five moves: an object comes into being in a slot, is shared into one more slot,
changes slots, is dropped from a slot, and is freed.  Each keeps the ledger sound.
-/
import Mathlib.Data.List.Nodup
import Mathlib.Data.List.Perm.Basic
import Mathlib.Data.Option.Basic
import Mathlib.Tactic.SplitIfs
import Mathlib.Tactic.ByContra

namespace Refcount

/-! ## 1. Replacing the content of one slot -/

section Slots

variable {ι : Type*}

/-- `l'` is `l` with one occurrence of `x` replaced by `y`. -/
def Replaced (x y : ι) (l l' : List ι) : Prop := (x :: l').Perm (y :: l)

theorem Replaced.refl (x : ι) (l : List ι) : Replaced x x l l := List.Perm.refl _

theorem Replaced.head (x y : ι) (l : List ι) : Replaced x y (x :: l) (y :: l) :=
  List.Perm.swap y x l

theorem Replaced.cons {x y : ι} {l l' : List ι} (a : ι) (h : Replaced x y l l') :
    Replaced x y (a :: l) (a :: l') :=
  ((List.Perm.swap a x l').trans (List.Perm.cons a h)).trans (List.Perm.swap y a l)

/-- Writing one position of a list replaces what it held. -/
theorem Replaced.set {l : List ι} {i : Nat} {x : ι} (y : ι) (h : l[i]? = some x) :
    Replaced x y l (l.set i y) := by
  have hp := List.getD_set_perm_cons l i y
  rw [h, Option.getD_some] at hp
  exact hp

/-- The same, for a field of the records of a list. -/
theorem Replaced.map_set {κ : Type*} {l : List κ} {i : Nat} {a : κ} (f : κ → ι) (b : κ)
    (h : l[i]? = some a) : Replaced (f a) (f b) (l.map f) ((l.set i b).map f) := by
  rw [List.map_set]
  exact Replaced.set (f b) (by rw [List.getElem?_map, h, Option.map_some])

theorem Replaced.mem {x y : ι} {l l' : List ι} (h : Replaced x y l l') {b : ι} (hb : b ∈ l') :
    b ∈ l ∨ b = y := by
  rcases List.mem_cons.mp (h.mem_iff.mp (List.mem_cons_of_mem x hb)) with h1 | h1
  · exact Or.inr h1
  · exact Or.inl h1

variable [BEq ι] [LawfulBEq ι] [DecidableEq ι]

/-- What a replacement does to the counts. -/
theorem Replaced.count {x y : ι} {l l' : List ι} (h : Replaced x y l l') (b : ι) :
    l'.count b + (if x = b then 1 else 0) = l.count b + (if y = b then 1 else 0) := by
  have hc := h.count_eq b
  simpa only [List.count_cons, beq_iff_eq] using hc

end Slots

/-! ## 2. The account of one object -/

/-- One object: its counter, how many slots own it, in how many it is dying, how often it
was freed. -/
structure Account (refs : Int) (owners dying frees : Nat) : Prop where
  balance : frees + dying + (if 0 < owners then 1 else 0) = 1
  refs_eq : frees = 0 → refs = owners

namespace Account

variable {refs : Int} {owners dying frees : Nat}

theorem create : Account 1 1 0 0 := ⟨rfl, fun _ => rfl⟩

/-- An owned object is neither dying nor freed. -/
theorem of_owned (h : Account refs owners dying frees) (ho : 0 < owners) :
    dying = 0 ∧ frees = 0 := by
  have hb := h.balance
  rw [if_pos ho] at hb
  omega

/-- A dying object is in one slot only, has no owner and was not freed. -/
theorem of_dying (h : Account refs owners dying frees) (hd : 0 < dying) :
    dying = 1 ∧ owners = 0 ∧ frees = 0 := by
  have hb := h.balance
  split_ifs at hb <;> omega

/-- A freed object was freed once, and no slot has it. -/
theorem of_freed (h : Account refs owners dying frees) (hf : 0 < frees) :
    frees = 1 ∧ owners = 0 ∧ dying = 0 := by
  have hb := h.balance
  split_ifs at hb <;> omega

/-- An object that no slot has was freed. -/
theorem freed_of_none (h : Account refs owners dying frees) (ho : owners = 0)
    (hd : dying = 0) : frees = 1 := by
  have hb := h.balance
  rw [if_neg (by omega)] at hb
  omega

theorem share (h : Account refs owners dying frees) (ho : 0 < owners) :
    Account (refs + 1) (owners + 1) dying frees := by
  obtain ⟨hd, hf⟩ := h.of_owned ho
  refine ⟨by rw [hd, hf]; simp, fun _ => ?_⟩
  have := h.refs_eq hf
  push_cast
  omega

/-- The counter reads zero after a decrement exactly when the slot given up was the last. -/
theorem drop_last_iff (h : Account refs (owners + 1) dying frees) : refs - 1 = 0 ↔ owners = 0 := by
  obtain ⟨-, hf⟩ := h.of_owned (Nat.succ_pos _)
  have hr := h.refs_eq hf
  push_cast at hr
  omega

theorem drop (h : Account refs (owners + 1) dying frees) :
    Account (refs - 1) owners (dying + if refs - 1 = 0 then 1 else 0) frees := by
  obtain ⟨hd, hf⟩ := h.of_owned (Nat.succ_pos _)
  have hr := h.refs_eq hf
  push_cast at hr
  refine ⟨?_, fun _ => by omega⟩
  simp only [hd, hf, h.drop_last_iff]
  split_ifs <;> omega

theorem free (h : Account refs owners (dying + 1) frees) :
    Account refs owners dying (frees + 1) := by
  obtain ⟨hd, ho, hf⟩ := h.of_dying (Nat.succ_pos _)
  refine ⟨?_, fun h0 => absurd h0 (by omega)⟩
  rw [hf, ho, if_neg (by omega)]
  omega

end Account

/-! ## 3. The ledger of all objects -/

/-- The slots that own, the slots in which an object is dying, and for each object its
counter, how often it was freed, and whether it was ever allocated. -/
structure Ledger (ρ : Type*) where
  owners : List (Option ρ)
  dying : List (Option ρ)
  refs : ρ → Int
  frees : ρ → Nat
  allocated : ρ → Prop

namespace Ledger

variable {ρ : Type*} [DecidableEq ρ] {L L' : Ledger ρ} {r : ρ}

/-- **Reference counting is sound.** -/
structure Sound (L : Ledger ρ) : Prop where
  account : ∀ r, L.allocated r →
    Account (L.refs r) (L.owners.count (some r)) (L.dying.count (some r)) (L.frees r)
  stranger : ∀ r, ¬ L.allocated r → some r ∉ L.owners ∧ some r ∉ L.dying

theorem Sound.allocated_of_owned (h : L.Sound) (hr : some r ∈ L.owners) : L.allocated r := by
  by_contra hn
  exact (h.stranger r hn).1 hr

theorem Sound.allocated_of_dying (h : L.Sound) (hr : some r ∈ L.dying) : L.allocated r := by
  by_contra hn
  exact (h.stranger r hn).2 hr

/-- An object in some owning slot is not freed. -/
theorem Sound.owned (h : L.Sound) (hr : some r ∈ L.owners) : L.frees r = 0 :=
  ((h.account r (h.allocated_of_owned hr)).of_owned (List.count_pos_iff.mpr hr)).2

/-- An object in some dying slot is not freed. -/
theorem Sound.dying_live (h : L.Sound) (hr : some r ∈ L.dying) : L.frees r = 0 :=
  ((h.account r (h.allocated_of_dying hr)).of_dying (List.count_pos_iff.mpr hr)).2.2

/-- An object that is not freed is in some slot. -/
theorem Sound.slotted (h : L.Sound) (hal : L.allocated r) (hfr : L.frees r = 0) :
    some r ∈ L.owners ++ L.dying := by
  by_contra hno
  rw [List.mem_append, not_or] at hno
  have hfreed := (h.account r hal).freed_of_none (List.count_eq_zero.mpr hno.1)
    (List.count_eq_zero.mpr hno.2)
  omega

/-- **No more objects live than slots are full.** -/
theorem Sound.live_le (h : L.Sound) (live : List ρ) (hnodup : live.Nodup)
    (hlive : ∀ r ∈ live, L.allocated r ∧ L.frees r = 0) :
    live.length ≤ L.owners.countP (·.isSome) + L.dying.countP (·.isSome) := by
  have hsub : live.map some ⊆ (L.owners ++ L.dying).filter (·.isSome) := by
    intro o ho
    obtain ⟨r, hr, rfl⟩ := List.mem_map.mp ho
    obtain ⟨hal, hfr⟩ := hlive r hr
    exact List.mem_filter.mpr ⟨h.slotted hal hfr, rfl⟩
  have hsp := List.subperm_of_subset (hnodup.map (Option.some_injective ρ)) hsub
  have hle := hsp.length_le
  rwa [List.length_map, ← List.countP_eq_length_filter, List.countP_append] at hle

/-- **Moving objects between slots**, and adding or removing empty slots, changes no count. -/
theorem Sound.reslot (h : L.Sound)
    (ho : ∀ r, L'.owners.count (some r) = L.owners.count (some r))
    (hd : ∀ r, L'.dying.count (some r) = L.dying.count (some r))
    (href : L'.refs = L.refs) (hfr : L'.frees = L.frees) (hal : L'.allocated = L.allocated) :
    L'.Sound := by
  refine ⟨fun r hr => ?_, fun r hr => ?_⟩
  · rw [ho, hd, href, hfr]
    exact h.account r (hal ▸ hr)
  · obtain ⟨h1, h2⟩ := h.stranger r (hal ▸ hr)
    rw [← List.count_eq_zero] at h1 h2 ⊢
    rw [← List.count_eq_zero, ho, hd]
    exact ⟨h1, h2⟩

/-- **A new object** comes into being in an empty slot, with counter one. -/
theorem Sound.create (h : L.Sound) (hn : ¬ L.allocated r)
    (ho : Replaced none (some r) L.owners L'.owners) (hd : L'.dying.Perm L.dying)
    (href : ∀ q, L'.refs q = if q = r then 1 else L.refs q)
    (hfr : ∀ q, L'.frees q = if q = r then 0 else L.frees q)
    (hal : ∀ q, L'.allocated q ↔ L.allocated q ∨ q = r) : L'.Sound := by
  obtain ⟨hno, hnd⟩ := h.stranger r hn
  refine ⟨fun q hq => ?_, fun q hq => ?_⟩
  · have hc := ho.count (some q)
    rw [hd.count_eq, href, hfr]
    by_cases hqr : q = r
    · subst hqr
      have h0 := List.count_eq_zero_of_not_mem hno
      simp only [reduceCtorEq, if_false, if_true] at hc ⊢
      rw [show L'.owners.count (some q) = 1 by omega, List.count_eq_zero_of_not_mem hnd]
      exact Account.create
    · have hne : ¬ some r = some q := fun e => hqr (Option.some.inj e).symm
      simp only [reduceCtorEq, hne, if_false, hqr] at hc ⊢
      rw [show L'.owners.count (some q) = L.owners.count (some q) by omega]
      exact h.account q ((hal q).mp hq |>.resolve_right hqr)
  · have hq' : ¬ L.allocated q ∧ q ≠ r := by
      rw [hal, not_or] at hq
      exact hq
    obtain ⟨h1, h2⟩ := h.stranger q hq'.1
    refine ⟨fun hm => ?_, fun hm => h2 (hd.mem_iff.mp hm)⟩
    rcases ho.mem hm with hm | hm
    · exact h1 hm
    · exact hq'.2 (Option.some.inj hm)

/-- **Sharing**: an owned object enters one more slot and its counter goes up. -/
theorem Sound.share (h : L.Sound) (hr : some r ∈ L.owners)
    (ho : Replaced none (some r) L.owners L'.owners) (hd : L'.dying.Perm L.dying)
    (href : ∀ q, L'.refs q = if q = r then L.refs q + 1 else L.refs q)
    (hfr : ∀ q, L'.frees q = L.frees q) (hal : L'.allocated = L.allocated) : L'.Sound := by
  refine ⟨fun q hq => ?_, fun q hq => ?_⟩
  · have hc := ho.count (some q)
    have hacc := h.account q (hal ▸ hq)
    rw [hd.count_eq, href, hfr]
    by_cases hqr : q = r
    · subst hqr
      simp only [reduceCtorEq, if_false, if_true] at hc ⊢
      rw [show L'.owners.count (some q) = L.owners.count (some q) + 1 by omega]
      exact hacc.share (List.count_pos_iff.mpr hr)
    · have hne : ¬ some r = some q := fun e => hqr (Option.some.inj e).symm
      simp only [reduceCtorEq, hne, if_false, hqr] at hc ⊢
      rw [show L'.owners.count (some q) = L.owners.count (some q) by omega]
      exact hacc
  · obtain ⟨h1, h2⟩ := h.stranger q (hal ▸ hq)
    refine ⟨fun hm => ?_, fun hm => h2 (hd.mem_iff.mp hm)⟩
    rcases ho.mem hm with hm | hm
    · exact h1 hm
    · exact h1 (hm ▸ hr)

/-- **Dropping**: an owner gives up its slot and the counter goes down; the owner that reads
zero keeps the object in a dying slot. -/
theorem Sound.drop (h : L.Sound) (hr : some r ∈ L.owners)
    (ho : Replaced (some r) none L.owners L'.owners)
    (hd : if L.refs r - 1 = 0 then Replaced none (some r) L.dying L'.dying
      else L'.dying.Perm L.dying)
    (href : ∀ q, L'.refs q = if q = r then L.refs q - 1 else L.refs q)
    (hfr : ∀ q, L'.frees q = L.frees q) (hal : L'.allocated = L.allocated) : L'.Sound := by
  have hdc : ∀ q, L'.dying.count (some q)
      = L.dying.count (some q) + if q = r ∧ L.refs r - 1 = 0 then 1 else 0 := by
    intro q
    by_cases h0 : L.refs r - 1 = 0
    · rw [if_pos h0] at hd
      have := hd.count (some q)
      simp only [reduceCtorEq, if_false, Option.some.injEq, eq_comm (a := r)] at this
      simp only [h0, and_true]
      omega
    · rw [if_neg h0] at hd
      simp only [hd.count_eq, h0, and_false, if_false, Nat.add_zero]
  refine ⟨fun q hq => ?_, fun q hq => ?_⟩
  · have hc := ho.count (some q)
    have hacc := h.account q (hal ▸ hq)
    rw [hdc, href, hfr]
    by_cases hqr : q = r
    · subst hqr
      simp only [reduceCtorEq, if_false, if_true, true_and] at hc ⊢
      rw [show L.owners.count (some q) = L'.owners.count (some q) + 1 by omega] at hacc
      exact hacc.drop
    · have hne : ¬ some r = some q := fun e => hqr (Option.some.inj e).symm
      simp only [reduceCtorEq, hne, if_false, hqr, false_and] at hc ⊢
      rw [show L'.owners.count (some q) = L.owners.count (some q) by omega]
      exact hacc
  · obtain ⟨h1, h2⟩ := h.stranger q (hal ▸ hq)
    have hqr : q ≠ r := fun e => h1 (e ▸ hr)
    refine ⟨fun hm => ?_, fun hm => ?_⟩
    · rcases ho.mem hm with hm | hm
      · exact h1 hm
      · exact absurd hm (by simp)
    · have := List.count_pos_iff.mpr hm
      rw [hdc, if_neg (fun e => hqr e.1)] at this
      exact h2 (List.count_pos_iff.mp (by omega))

/-- **Freeing**: a dying object is freed and leaves its slot. -/
theorem Sound.free (h : L.Sound) (hr : some r ∈ L.dying)
    (ho : L'.owners.Perm L.owners) (hd : Replaced (some r) none L.dying L'.dying)
    (href : ∀ q, L'.refs q = L.refs q)
    (hfr : ∀ q, L'.frees q = if q = r then L.frees q + 1 else L.frees q)
    (hal : L'.allocated = L.allocated) : L'.Sound := by
  refine ⟨fun q hq => ?_, fun q hq => ?_⟩
  · have hc := hd.count (some q)
    have hacc := h.account q (hal ▸ hq)
    rw [ho.count_eq, href, hfr]
    by_cases hqr : q = r
    · subst hqr
      simp only [reduceCtorEq, if_false, if_true] at hc ⊢
      rw [show L.dying.count (some q) = L'.dying.count (some q) + 1 by omega] at hacc
      exact hacc.free
    · have hne : ¬ some r = some q := fun e => hqr (Option.some.inj e).symm
      simp only [reduceCtorEq, hne, if_false, hqr] at hc ⊢
      rw [show L'.dying.count (some q) = L.dying.count (some q) by omega]
      exact hacc
  · obtain ⟨h1, h2⟩ := h.stranger q (hal ▸ hq)
    refine ⟨fun hm => h1 (ho.mem_iff.mp hm), fun hm => ?_⟩
    rcases hd.mem hm with hm | hm
    · exact h2 hm
    · exact absurd hm (by simp)

end Ledger

end Refcount
