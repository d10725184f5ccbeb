/-
# Snapshot reference counting is sound

Every step of every thread is one move of the ledger (`CacheInv.step`), so the ledger is sound in
every reachable state.  Section 1 has the moves, each with what must agree; section 2 has one
case for each `CacheMove`.
-/
import Unicaster.CacheMoves

namespace Unicaster

open CLib Refcount

/-! ## 1. The moves

A step changes the heap in one of six ways: not at all, by a counter that goes up or down, by
the `free` of a snapshot, by the `free` of the list in flight, or by a new cell. -/

section Moves

variable {c c' : PodCache} {r : Nat}

/-- **Nothing in the heap changes**, and no slot is gained or lost. -/
theorem CacheInv.same (h : CacheInv c) (hheap : c'.heap = c.heap)
    (ho : ∀ r, c'.owners.count (some r) = c.owners.count (some r))
    (hd : ∀ r, c'.dying.count (some r) = c.dying.count (some r)) (hfl : c'.inFlight = c.inFlight)
    (hrun : c'.refresherRunning = c'.refresher.isSome)
    (hal : c'.refresher.isSome = true → c'.client.isSome = true ∧ c'.stopper = .idle) :
    CacheInv c' := by
  obtain ⟨hsn, hns, hli, hnl, hf⟩ := Heap.mk.inj hheap
  constructor
  · exact h.sound.reslot ho hd (by simp only [PodCache.ledger, hsn])
      (by simp only [PodCache.ledger, hsn]) (by simp only [PodCache.ledger, hns])
  · rw [hns, hsn, hnl]; exact h.podsLt
  · rw [hns, hsn]; exact h.podsInj
  · rw [hns, hsn, hli]; exact h.podsFrees
  · rw [hfl, hns, hsn, hli, hnl]; exact h.flight
  · rw [hfl, hns, hsn, hli, hnl]; exact h.listOwner
  · exact hrun
  · exact hal
  · exact hf.trans h.noFault

/-- The counter of one snapshot changes; that the ledger stays sound is shown by the two moves
that follow. -/
theorem CacheInv.count (h : CacheInv c) (hs : c'.ledger.Sound) {x : Int}
    (hheap : c'.heap = (c.setRefs r x).heap) (hfl : c'.inFlight = c.inFlight)
    (hrun : c'.refresherRunning = c'.refresher.isSome)
    (hal : c'.refresher.isSome = true → c'.client.isSome = true ∧ c'.stopper = .idle) :
    CacheInv c' := by
  obtain ⟨hsn, hns, hli, hnl, hf⟩ : c'.snaps = (c.setRefs r x).snaps ∧ c'.nextSnap = c.nextSnap ∧
    c'.lists = c.lists ∧ c'.nextList = c.nextList ∧ c'.fault = c.fault := Heap.mk.inj hheap
  constructor
  · exact hs
  · simpa only [hns, hsn, PodCache.setRefs_pods, hnl] using h.podsLt
  · simpa only [hns, hsn, PodCache.setRefs_pods] using h.podsInj
  · simpa only [hns, hsn, PodCache.setRefs_pods, PodCache.setRefs_frees, hli] using h.podsFrees
  · simpa only [hfl, hns, hsn, PodCache.setRefs_pods, hli, hnl] using h.flight
  · simpa only [hfl, hns, hsn, PodCache.setRefs_pods, hli, hnl] using h.listOwner
  · exact hrun
  · exact hal
  · exact hf.trans h.noFault

/-- **An owned snapshot enters one more slot**, and its counter goes up. -/
theorem CacheInv.share (h : CacheInv c) (hr : some r ∈ c.owners)
    (hheap : c'.heap = (c.setRefs r ((c.snaps r).refs + 1)).heap)
    (ho : Replaced none (some r) c.owners c'.owners) (hd : c'.dying.Perm c.dying)
    (hfl : c'.inFlight = c.inFlight) (hrun : c'.refresherRunning = c'.refresher.isSome)
    (hal : c'.refresher.isSome = true → c'.client.isSome = true ∧ c'.stopper = .idle) :
    CacheInv c' := by
  refine h.count ?_ hheap hfl hrun hal
  obtain ⟨hsn, hns, -⟩ := Heap.mk.inj hheap
  refine h.sound.share hr ho hd (fun q => ?_) (fun q => ?_)
    (by simp only [PodCache.ledger, hns]; rfl)
  · simp only [PodCache.ledger, hsn, PodCache.setRefs_refs]
    by_cases hq : q = r
    · subst hq; simp
    · simp [hq]
  · simp only [PodCache.ledger, hsn, PodCache.setRefs_frees]

/-- **An owner gives up its slot**, and the counter goes down; the one that reads zero is about
to free the snapshot. -/
theorem CacheInv.drop (h : CacheInv c) (hr : some r ∈ c.owners)
    (hheap : c'.heap = (c.setRefs r ((c.snaps r).refs - 1)).heap)
    (ho : Replaced (some r) none c.owners c'.owners)
    (hd : if (c.snaps r).refs - 1 = 0 then Replaced none (some r) c.dying c'.dying
      else c'.dying.Perm c.dying)
    (hfl : c'.inFlight = c.inFlight) (hrun : c'.refresherRunning = c'.refresher.isSome)
    (hal : c'.refresher.isSome = true → c'.client.isSome = true ∧ c'.stopper = .idle) :
    CacheInv c' := by
  refine h.count ?_ hheap hfl hrun hal
  obtain ⟨hsn, hns, -⟩ := Heap.mk.inj hheap
  refine h.sound.drop hr ho hd (fun q => ?_) (fun q => ?_)
    (by simp only [PodCache.ledger, hns]; rfl)
  · simp only [PodCache.ledger, hsn, PodCache.setRefs_refs]
    by_cases hq : q = r
    · subst hq; simp
    · simp [hq]
  · simp only [PodCache.ledger, hsn, PodCache.setRefs_frees]

/-- **A dying snapshot is freed** together with its list. -/
theorem CacheInv.freed (h : CacheInv c) (hr : some r ∈ c.dying)
    (hheap : c'.heap = (c.freeSnap r).heap)
    (ho : c'.owners.Perm c.owners) (hd : Replaced (some r) none c.dying c'.dying)
    (hfl : c'.inFlight = c.inFlight) (hrun : c'.refresherRunning = c'.refresher.isSome)
    (hal : c'.refresher.isSome = true → c'.client.isSome = true ∧ c'.stopper = .idle) :
    CacheInv c' := by
  obtain ⟨hlt, h0⟩ := h.dies hr
  obtain ⟨hsn, hns, hli, hnl, hf⟩ : c'.snaps = (c.freeSnap r).snaps ∧ c'.nextSnap = c.nextSnap ∧
    c'.lists = (c.freeList (c.snaps r).pods).lists ∧ c'.nextList = c.nextList ∧
    c'.fault = c.fault := Heap.mk.inj hheap
  constructor
  · refine h.sound.free hr ho hd (fun q => ?_) (fun q => ?_) (by simp only [PodCache.ledger, hns])
    · simp only [PodCache.ledger, hsn, PodCache.freeSnap_refs]
    · simp only [PodCache.ledger, hsn, PodCache.freeSnap_frees]
      by_cases hq : q = r
      · subst hq; simp [h0]
      · simp [hq]
  · simpa only [hns, hsn, PodCache.freeSnap_pods, hnl] using h.podsLt
  · simpa only [hns, hsn, PodCache.freeSnap_pods] using h.podsInj
  · intro q hq
    rw [hns] at hq
    rw [hsn, hli, PodCache.freeSnap_pods, PodCache.freeSnap_frees, PodCache.freeList_frees]
    by_cases hqr : q = r
    · subst hqr; simp
    · have hne : (c.snaps q).pods ≠ (c.snaps r).pods := fun e => hqr (h.podsInj q hq r hlt e)
      rw [if_neg hne, if_neg hqr]
      exact h.podsFrees q hq
  · intro l hl
    rw [hfl] at hl
    obtain ⟨h1, h2, h3⟩ := h.flight l hl
    refine ⟨hnl ▸ h1, ?_, fun q hq => ?_⟩
    · rw [hli, PodCache.freeList_frees, if_neg fun e => h3 r hlt e.symm]
      exact h2
    · rw [hsn, PodCache.freeSnap_pods]
      exact h3 q (hns ▸ hq)
  · intro l hl
    rw [hnl] at hl
    rw [hli, PodCache.freeList_frees, hfl]
    by_cases hlr : l = (c.snaps r).pods
    · rw [if_pos hlr]
      exact Or.inl rfl
    · rw [if_neg hlr]
      simpa only [hns, hsn, PodCache.freeSnap_pods] using h.listOwner l hl
  · exact hrun
  · exact hal
  · exact hf.trans h.noFault

/-- **The list in flight is given up**: freed, on each of the paths that do not publish it. -/
theorem CacheInv.discard (h : CacheInv c) {l : Nat} (hl : c.inFlight = some l)
    (hheap : c'.heap = (c.freeList l).heap)
    (ho : ∀ r, c'.owners.count (some r) = c.owners.count (some r))
    (hd : ∀ r, c'.dying.count (some r) = c.dying.count (some r)) (hfl : c'.inFlight = none)
    (hrun : c'.refresherRunning = c'.refresher.isSome)
    (hal : c'.refresher.isSome = true → c'.client.isSome = true ∧ c'.stopper = .idle) :
    CacheInv c' := by
  obtain ⟨hll, h0, hno⟩ := h.flight l hl
  obtain ⟨hsn, hns, hli, hnl, hf⟩ : c'.snaps = c.snaps ∧ c'.nextSnap = c.nextSnap ∧
    c'.lists = (c.freeList l).lists ∧ c'.nextList = c.nextList ∧ c'.fault = c.fault :=
    Heap.mk.inj hheap
  constructor
  · exact h.sound.reslot ho hd (by simp only [PodCache.ledger, hsn])
      (by simp only [PodCache.ledger, hsn]) (by simp only [PodCache.ledger, hns])
  · rw [hns, hsn, hnl]; exact h.podsLt
  · rw [hns, hsn]; exact h.podsInj
  · intro r hr
    rw [hns] at hr
    rw [hsn, hli, PodCache.freeList_frees, if_neg (hno r hr)]
    exact h.podsFrees r hr
  · intro q hq
    rw [hfl] at hq
    exact absurd hq (by simp)
  · intro q hq
    rw [hnl] at hq
    rw [hli, PodCache.freeList_frees, hfl, hns, hsn]
    by_cases hql : q = l
    · rw [if_pos hql]
      exact Or.inl rfl
    · rw [if_neg hql]
      rcases h.listOwner q hq with h1 | h1 | h1
      · exact Or.inl h1
      · exact absurd (Option.some.inj (h1.symm.trans hl)) hql
      · exact Or.inr (Or.inr h1)
  · exact hrun
  · exact hal
  · exact hf.trans h.noFault

end Moves

/-! ## 2. Every step is a move -/

section Refresher

variable {c c' : PodCache} {th : Refresher}

/-- **The refresher goes on** without touching the heap: its slots stay as they are. -/
theorem CacheInv.refresherTo (h : CacheInv c) (hth : c.refresher = some th)
    (th' : Refresher) (log : List LogEntry) (hslot : th'.pc.slot = th.pc.slot)
    (hdying : th'.pc.dying = th.pc.dying) (hfl : th'.pc.inFlight = th.pc.inFlight) :
    CacheInv { c with refresher := some th', log := log } := by
  have hsome : c.refresher.isSome = true := by rw [hth]; rfl
  refine h.same rfl (fun r => ?_) (fun r => ?_) ?_ ?_ (fun _ => h.alive hsome)
  · simp only [PodCache.owners, hth, Option.bind_some, hslot]
  · simp only [PodCache.dying, hth, Option.bind_some, hdying]
  · simp only [PodCache.inFlight, hth, Option.bind_some, hfl]
  · exact h.running.trans hsome

/-- ... to the place `pc`, from a place with the same slots. -/
theorem CacheInv.goto (h : CacheInv c) (hth : c.refresher = some th) {pc : RefresherPc}
    (hpc : th.pc = pc) (th' : Refresher) (pc' : RefresherPc)
    (hsame : pc'.slot = pc.slot ∧ pc'.dying = pc.dying ∧ pc'.inFlight = pc.inFlight) :
    CacheInv (c.goto th' pc') := by
  subst hpc
  exact h.refresherTo hth { th' with pc := pc' } c.log hsame.1 hsame.2.1 hsame.2.2

/-- The refresher frees the list it carries. -/
theorem CacheInv.discardTo (h : CacheInv c) (hth : c.refresher = some th) {pc : RefresherPc}
    (hpc : th.pc = pc) {l : Nat} (hl : pc.inFlight = some l) (th' : Refresher)
    (pc' : RefresherPc)
    (hsame : pc'.slot = pc.slot ∧ pc'.dying = pc.dying ∧ pc'.inFlight = none) :
    CacheInv ((c.freeList l).goto th' pc') := by
  subst hpc
  have hin : c.inFlight = some l := by simp only [PodCache.inFlight, hth, Option.bind_some, hl]
  have hsome : c.refresher.isSome = true := by rw [hth]; rfl
  refine h.discard hin rfl (fun r => ?_) (fun r => ?_) hsame.2.2 ?_ (fun _ => h.alive hsome)
  · simp only [PodCache.goto, PodCache.freeList, PodCache.owners, hth, Option.bind_some, hsame.1]
  · simp only [PodCache.goto, PodCache.freeList, PodCache.dying, hth, Option.bind_some, hsame.2.1]
  · exact h.running.trans hsome

/-- **The swap of `publish`**: a new snapshot in the slot `current`, and the old one in the
refresher's. -/
theorem CacheInv.swap (h : CacheInv c) (hth : c.refresher = some th)
    {receivedAt : Int} {l : Nat} (hpc : th.pc = .swapping receivedAt l) :
    CacheInv (c.swap th receivedAt l) := by
  have hsome : c.refresher.isSome = true := by rw [hth]; rfl
  have hin : c.inFlight = some l := by
    simp only [PodCache.inFlight, hth, Option.bind_some, hpc, RefresherPc.inFlight]
  obtain ⟨hlt, h0, hno⟩ := h.flight l hin
  have hold : ∀ r < c.nextSnap, (c.swap th receivedAt l).snaps r = c.snaps r := fun r hr => by
    simp only [PodCache.swap, Function.update_of_ne (Nat.ne_of_lt hr)]
  have hnew : (c.swap th receivedAt l).snaps c.nextSnap = ⟨1, receivedAt, l, 0⟩ := by
    simp only [PodCache.swap, Function.update_self]
  have hcases : ∀ r, r < c.nextSnap + 1 → r < c.nextSnap ∨ r = c.nextSnap := fun r hr => by omega
  constructor
  · refine h.sound.create (r := c.nextSnap) (Nat.lt_irrefl _) ?_ ?_ ?_ ?_ ?_
    · simp only [PodCache.ledger, PodCache.owners, PodCache.swap, hth, hpc, Option.bind_some,
        RefresherPc.slot]
      exact (List.Perm.swap _ _ _).trans (((List.Perm.swap _ _ _)).cons _)
    · simp only [PodCache.ledger, PodCache.dying, PodCache.swap, hth, hpc, Option.bind_some,
        RefresherPc.dying]
      exact List.Perm.refl _
    · intro q
      by_cases hq : q = c.nextSnap
      · subst hq; simp [PodCache.ledger, hnew]
      · simp [PodCache.ledger, PodCache.swap, hq]
    · intro q
      by_cases hq : q = c.nextSnap
      · subst hq; simp [PodCache.ledger, hnew]
      · simp [PodCache.ledger, PodCache.swap, hq]
    · intro q
      simp only [PodCache.ledger, PodCache.swap]
      omega
  · intro r hr
    rcases hcases r hr with hr | rfl
    · rw [hold r hr]; exact h.podsLt r hr
    · rw [hnew]; exact hlt
  · intro r hr q hq heq
    rcases hcases r hr with hr | rfl <;> rcases hcases q hq with hq | rfl
    · rw [hold r hr, hold q hq] at heq
      exact h.podsInj r hr q hq heq
    · rw [hold r hr, hnew] at heq
      exact absurd heq (hno r hr)
    · rw [hold q hq, hnew] at heq
      exact absurd heq.symm (hno q hq)
    · rfl
  · intro r hr
    rcases hcases r hr with hr | rfl
    · rw [hold r hr]; exact h.podsFrees r hr
    · rw [hnew]; exact h0
  · intro q hq
    simp [PodCache.inFlight, PodCache.swap, RefresherPc.inFlight] at hq
  · intro q hq
    rcases h.listOwner q hq with h1 | h1 | ⟨r, hr, hrq⟩
    · exact Or.inl h1
    · have hql : q = l := Option.some.inj (h1.symm.trans hin)
      exact Or.inr (Or.inr ⟨c.nextSnap, Nat.lt_succ_self _, by rw [hnew]; exact hql.symm⟩)
    · exact Or.inr (Or.inr ⟨r, Nat.lt_succ_of_lt hr, by rw [hold r hr]; exact hrq⟩)
  · exact h.running.trans hsome
  · exact fun _ => h.alive hsome
  · exact h.noFault

/-- The refresher gives up the slot of what `publish` detached. -/
theorem CacheInv.releasing (h : CacheInv c) (hth : c.refresher = some th) {r : Nat}
    (hpc : th.pc = .releasing (some r)) {pc' : RefresherPc} (hslot : pc'.slot = none)
    (hfl : pc'.inFlight = none)
    (hd : pc'.dying = if (c.snaps r).refs - 1 = 0 then some r else none) :
    CacheInv ((c.setRefs r ((c.snaps r).refs - 1)).goto th pc') := by
  have hsome : c.refresher.isSome = true := by rw [hth]; rfl
  have hslot0 : th.pc.slot = some r := by rw [hpc]; rfl
  have hd0 : th.pc.dying = none := by rw [hpc]; rfl
  have hfl0 : th.pc.inFlight = none := by rw [hpc]; rfl
  refine h.drop (mem_owners_of_refresher hth hpc) rfl ?_ ?_ ?_ (h.running.trans hsome)
    (fun _ => h.alive hsome)
  · simp only [PodCache.owners, PodCache.goto, PodCache.setRefs, hth, Option.bind_some, hslot0,
      hslot]
    exact (Replaced.head _ _ _).cons _
  · simp only [PodCache.dying, PodCache.goto, PodCache.setRefs, hth, Option.bind_some, hd0, hd]
    split
    · exact Replaced.head _ _ _
    · exact List.Perm.refl _
  · simp only [PodCache.inFlight, PodCache.goto, hth, Option.bind_some, hfl0, hfl]

theorem CacheInv.freeing (h : CacheInv c) (hth : c.refresher = some th) {r : Nat}
    (hpc : th.pc = .freeing r) : CacheInv ((c.freeSnap r).goto th .succeeded) := by
  have hsome : c.refresher.isSome = true := by rw [hth]; rfl
  refine h.freed (mem_dying_of_refresher hth hpc) rfl ?_ ?_ ?_ (h.running.trans hsome)
    (fun _ => h.alive hsome)
  · simp only [PodCache.owners, PodCache.goto, PodCache.freeSnap, hth, hpc, Option.bind_some,
      RefresherPc.slot]
    exact List.Perm.refl _
  · simp only [PodCache.dying, PodCache.goto, PodCache.freeSnap, hth, hpc, Option.bind_some,
      RefresherPc.dying]
    exact Replaced.head _ _ _
  · simp only [PodCache.inFlight, PodCache.goto, hth, hpc, Option.bind_some, RefresherPc.inFlight]

/-- **The refresher's own moves.** -/
theorem CacheInv.refresherMoved (h : CacheInv c) (hth : c.refresher = some th)
    (hmv : RefresherMove c th c') : CacheInv c' := by
  cases hmv with
  | leave hpc hcl => exact h.goto hth hpc _ _ ⟨rfl, rfl, rfl⟩
  | request hpc hcl => exact h.goto hth hpc _ _ ⟨rfl, rfl, rfl⟩
  | giveUp hpc hcl => exact h.goto hth hpc _ _ ⟨rfl, rfl, rfl⟩
  | noList hpc hcl => exact h.goto hth hpc _ _ ⟨rfl, rfl, rfl⟩
  | discard hpc hcl => exact h.discardTo hth hpc rfl _ _ ⟨rfl, rfl, rfl⟩
  | empty hpc hcl hips => exact h.discardTo hth hpc rfl _ _ ⟨rfl, rfl, rfl⟩
  | offer hpc hcl hips => exact h.goto hth hpc _ _ ⟨rfl, rfl, rfl⟩
  | swap hpc => exact h.swap hth hpc
  | noPrevious hpc => exact h.goto hth hpc _ _ ⟨rfl, rfl, rfl⟩
  | dropLast hpc h0 => exact h.releasing hth hpc rfl rfl (if_pos h0).symm
  | drop hpc h0 => exact h.releasing hth hpc rfl rfl (if_neg h0).symm
  | free hpc => exact h.freeing hth hpc
  | succeed hpc =>
    exact h.refresherTo hth _ _ (by rw [hpc]; rfl) (by rw [hpc]; rfl) (by rw [hpc]; rfl)
  | fail hpc => exact h.goto hth hpc _ _ ⟨rfl, rfl, rfl⟩
  | judge hpc => exact h.goto hth hpc _ _ ⟨rfl, rfl, rfl⟩
  | @report error now expired hpc =>
    obtain ⟨log, th', heq, hpc', -⟩ := h.endFailure_eq th error now expired
    rw [heq]
    exact h.refresherTo hth _ _ (by rw [hpc, hpc']; rfl) (by rw [hpc, hpc']; rfl)
      (by rw [hpc, hpc']; rfl)
  | wake hpc hend => exact h.goto hth hpc _ _ ⟨rfl, rfl, rfl⟩

/-- The request has brought a list, which is now in the hands of the refresher. -/
theorem CacheInv.fetched (h : CacheInv c) (hth : c.refresher = some th) {startedAt : Int}
    (hpc : th.pc = .fetching startedAt) (ips : List Text) (answer : Option Answer)
    (error : Text) :
    CacheInv
      { c with
        lists := Function.update c.lists c.nextList ⟨ips, 0⟩
        nextList := c.nextList + 1
        refresher :=
          some { th with answer := answer, pc := .fetched (some c.nextList) error } } := by
  have hsome : c.refresher.isSome = true := by rw [hth]; rfl
  have hin : c.inFlight = none := by
    simp only [PodCache.inFlight, hth, hpc, Option.bind_some, RefresherPc.inFlight]
  have hlt : ∀ r < c.nextSnap, (c.snaps r).pods ≠ c.nextList :=
    fun r hr => Nat.ne_of_lt (h.podsLt r hr)
  constructor
  · refine h.sound.reslot (fun r => ?_) (fun r => ?_) rfl rfl rfl
    · simp only [PodCache.ledger, PodCache.owners, hth, hpc, Option.bind_some, RefresherPc.slot]
    · simp only [PodCache.ledger, PodCache.dying, hth, hpc, Option.bind_some, RefresherPc.dying]
  · exact fun r hr => Nat.lt_succ_of_lt (h.podsLt r hr)
  · exact h.podsInj
  · intro r hr
    simp only [Function.update_of_ne (hlt r hr)]
    exact h.podsFrees r hr
  · intro l hl
    simp only [PodCache.inFlight, Option.bind_some, RefresherPc.inFlight, Option.some.injEq] at hl
    subst hl
    exact ⟨Nat.lt_succ_self _, by simp, hlt⟩
  · intro l hl
    by_cases hll : l = c.nextList
    · subst hll
      exact Or.inr (Or.inl rfl)
    · have hlt' : l < c.nextList := by
        have : l < c.nextList + 1 := hl
        omega
      simp only [Function.update_of_ne hll]
      rcases h.listOwner l hlt' with h1 | h1 | h1
      · exact Or.inl h1
      · rw [hin] at h1
        exact absurd h1 (by simp)
      · exact Or.inr (Or.inr h1)
  · exact h.running.trans hsome
  · exact fun _ => h.alive hsome
  · exact h.noFault

end Refresher

section Steps

variable {c c' : PodCache}

/-- No refresher where none is running. -/
theorem CacheInv.refresher_none (h : CacheInv c) (hrun : c.refresherRunning = false) :
    c.refresher = none := by
  rw [h.running] at hrun
  exact Option.isNone_iff_eq_none.mp (Option.isSome_eq_false_iff.mp hrun)

/-- `pod_cache_start`, with each of its failures. -/
theorem CacheInv.started (h : CacheInv c) (hs : c.stopper = .idle) {clientOk threadOk ok : Bool}
    (hmv : StartMove c clientOk threadOk c' ok) : CacheInv c' := by
  cases hmv with
  | running hrun => exact h
  | noClient hrun => exact h.same rfl (fun _ => rfl) (fun _ => rfl) rfl h.running h.alive
  | noThread hrun =>
    refine h.same rfl (fun _ => rfl) (fun _ => rfl) rfl h.running fun hsome => ?_
    simp [h.refresher_none hrun] at hsome
  | started hrun =>
    have hnone := h.refresher_none hrun
    refine h.same rfl (fun r => ?_) (fun r => ?_) ?_ rfl fun _ => ⟨rfl, hs⟩
    · simp only [PodCache.owners, Refresher.create, RefresherPc.slot, hnone, Option.bind_some,
        Option.bind_none]
    · simp only [PodCache.dying, Refresher.create, RefresherPc.dying, hnone, Option.bind_some,
        Option.bind_none]
    · simp only [PodCache.inFlight, Refresher.create, RefresherPc.inFlight, hnone,
        Option.bind_some, Option.bind_none]

/-- The stopper gives up the slot of what it detached. -/
theorem CacheInv.stopRelease (h : CacheInv c) (hnone : c.refresher = none) {r : Nat}
    (hs : c.stopper = .release (some r)) {pc' : StopPc} (hslot : pc'.slot = none)
    (hd : pc'.dying = if (c.snaps r).refs - 1 = 0 then some r else none) :
    CacheInv { c.setRefs r ((c.snaps r).refs - 1) with stopper := pc' } := by
  have hslot0 : c.stopper.slot = some r := by rw [hs]; rfl
  have hd0 : c.stopper.dying = none := by rw [hs]; rfl
  refine h.drop (mem_owners_of_stopper hs) rfl ?_ ?_ rfl h.running
    (fun hsome => absurd hsome (by simp [PodCache.setRefs, hnone]))
  · simp only [PodCache.owners, PodCache.setRefs, hslot0, hslot]
    exact ((Replaced.head _ _ _).cons _).cons _
  · simp only [PodCache.dying, PodCache.setRefs, hd0, hd]
    split
    · exact (Replaced.head _ _ _).cons _
    · exact List.Perm.refl _

/-- **The moves of `pod_cache_stop`.** -/
theorem CacheInv.stopped (h : CacheInv c) (hmv : StopMove c c') : CacheInv c' := by
  -- behind `idle` the refresher is gone
  have hgone : c.stopper ≠ .idle → c.refresher = none := fun hne => by
    cases hr : c.refresher with
    | none => rfl
    | some th => exact absurd (h.alive (by rw [hr]; rfl)).2 hne
  cases hmv with
  | join hs hrun hth hpc =>
    refine h.same rfl (fun r => ?_) (fun r => ?_) ?_ rfl (fun hno => absurd hno (by simp))
    · simp only [PodCache.owners, hth, hpc, hs, Option.bind_some, Option.bind_none,
        RefresherPc.slot, StopPc.slot]
    · simp only [PodCache.dying, hth, hpc, hs, Option.bind_some, Option.bind_none,
        RefresherPc.dying, StopPc.dying]
    · simp only [PodCache.inFlight, hth, hpc, Option.bind_some, Option.bind_none,
        RefresherPc.inFlight]
  | noRefresher hs hrun =>
    have hnone := h.refresher_none hrun
    refine h.same rfl (fun r => ?_) (fun r => ?_) rfl h.running
      fun hno => absurd hno (by simp [hnone])
    · simp only [PodCache.owners, hs, StopPc.slot]
    · simp only [PodCache.dying, hs, StopPc.dying]
  | destroy hs hcl =>
    have hnone := hgone (by rw [hs]; simp)
    refine h.same rfl (fun r => ?_) (fun r => ?_) rfl h.running
      fun hno => absurd hno (by simp [hnone])
    · simp only [PodCache.owners, hs, StopPc.slot]
    · simp only [PodCache.dying, hs, StopPc.dying]
  | detach hs =>
    have hnone := hgone (by rw [hs]; simp)
    refine h.same rfl (fun r => ?_) (fun r => ?_) rfl h.running
      fun hno => absurd hno (by simp [hnone])
    · simp only [PodCache.owners, hs, hnone, Option.bind_none, StopPc.slot]
      exact List.Perm.count_eq (((List.Perm.swap _ _ _).cons _).trans
        ((List.Perm.swap _ _ _).trans ((List.Perm.swap _ _ _).cons _))) _
    · simp only [PodCache.dying, hs, StopPc.dying]
  | noList hs =>
    have hnone := hgone (by rw [hs]; simp)
    refine h.same rfl (fun r => ?_) (fun r => ?_) rfl h.running
      fun hno => absurd hno (by simp [hnone])
    · simp only [PodCache.owners, hs, StopPc.slot]
    · simp only [PodCache.dying, hs, StopPc.dying]
  | dropLast hs h0 => exact h.stopRelease (hgone (by rw [hs]; simp)) hs rfl (if_pos h0).symm
  | drop hs h0 => exact h.stopRelease (hgone (by rw [hs]; simp)) hs rfl (if_neg h0).symm
  | free hs =>
    have hnone := hgone (by rw [hs]; simp)
    refine h.freed (mem_dying_of_stopper hs) rfl ?_ ?_ rfl h.running
      (fun hno => absurd hno (by simp [PodCache.freeSnap, hnone]))
    · simp only [PodCache.owners, PodCache.freeSnap, hs, StopPc.slot]
      exact List.Perm.refl _
    · simp only [PodCache.dying, PodCache.freeSnap, hs, StopPc.dying]
      exact (Replaced.head _ _ _).cons _

/-- The slots behind a write to one reader. -/
theorem held_replaced (c : PodCache) {t : Nat} {a : Reader} (hrd : c.readers[t]? = some a)
    (b : Reader) :
    Replaced a.held b.held c.owners ({ c with readers := c.readers.set t b }).owners :=
  (((Replaced.map_set (fun rd : Reader => rd.held) b hrd).cons _).cons _).cons _

theorem freeing_replaced (c : PodCache) {t : Nat} {a : Reader} (hrd : c.readers[t]? = some a)
    (b : Reader) :
    Replaced a.freeing b.freeing c.dying ({ c with readers := c.readers.set t b }).dying :=
  ((Replaced.map_set (fun rd : Reader => rd.freeing) b hrd).cons _).cons _

/-- **One step, whoever takes it, keeps the invariant.** -/
theorem CacheInv.step (h : CacheInv c) {a : CacheAct} (hst : c.step a = some c') :
    CacheInv c' := by
  cases h.move_of_step hst with
  | tick => exact h.same rfl (fun _ => rfl) (fun _ => rfl) rfl h.running h.alive
  | closingReset => exact h.same rfl (fun _ => rfl) (fun _ => rfl) rfl h.running h.alive
  | closingBegin => exact h.same rfl (fun _ => rfl) (fun _ => rfl) rfl h.running h.alive
  | start hs hmv => exact h.started hs hmv
  | stop hmv => exact h.stopped hmv
  | spawnReader =>
    refine h.same rfl (fun r => ?_) (fun r => ?_) rfl h.running h.alive
    · simp [PodCache.owners, List.count_cons]
    · simp [PodCache.dying, List.count_cons]
  | refused hrd hacq => exact h
  | acquired hrd hcur hfresh =>
    exact h.share (mem_owners_of_current hcur) rfl (held_replaced c hrd _)
      ((List.perm_cons _).mp (freeing_replaced c hrd _)) rfl h.running h.alive
  | read hrd => exact h
  | releasedLast hrd h0 =>
    refine h.drop (mem_owners_of_reader (List.mem_of_getElem? hrd) rfl) rfl
      (held_replaced c hrd _) ?_ rfl h.running h.alive
    rw [if_pos h0]
    exact freeing_replaced c hrd _
  | released hrd h0 =>
    refine h.drop (mem_owners_of_reader (List.mem_of_getElem? hrd) rfl) rfl
      (held_replaced c hrd _) ?_ rfl h.running h.alive
    rw [if_neg h0]
    exact (List.perm_cons _).mp (freeing_replaced c hrd _)
  | freed hrd =>
    exact h.freed (mem_dying_of_reader (List.mem_of_getElem? hrd) rfl) rfl
      ((List.perm_cons _).mp (held_replaced c hrd _)) (freeing_replaced c hrd _) rfl h.running
      h.alive
  | refresher hth hmv => exact h.refresherMoved hth hmv
  | fetched hth hpc hok => exact h.fetched hth hpc _ _ _
  | fetchFailed hth hpc hno =>
    exact h.refresherTo hth _ _ (by rw [hpc]; rfl) (by rw [hpc]; rfl) (by rw [hpc]; rfl)
  | allocated hth hpc => exact h.goto hth hpc _ _ ⟨rfl, rfl, rfl⟩
  | outOfMemory hth hpc => exact h.discardTo hth hpc rfl _ _ ⟨rfl, rfl, rfl⟩

end Steps

/-- The invariant holds before anything has happened. -/
theorem CacheInv.init {c : PodCache} (h : c.Initial) : CacheInv c := by
  obtain ⟨e, clock, rfl⟩ := h
  refine ⟨⟨fun r hr => absurd hr (Nat.not_lt_zero r), fun r _ => ⟨?_, ?_⟩⟩,
    fun r hr => absurd hr (Nat.not_lt_zero r), fun r hr => absurd hr (Nat.not_lt_zero r),
    fun r hr => absurd hr (Nat.not_lt_zero r), ?_, fun l hl => absurd hl (Nat.not_lt_zero l),
    rfl, ?_, rfl⟩
  · simp [PodCache.ledger, PodCache.owners, PodCache.init, StopPc.slot]
  · simp [PodCache.ledger, PodCache.dying, PodCache.init, StopPc.dying]
  · intro l hl
    simp [PodCache.inFlight, PodCache.init] at hl
  · intro hs
    simp [PodCache.init] at hs

/-- **The invariant of every reachable state of the cache.** -/
theorem PodCache.Reachable.inv {c : PodCache} (h : c.Reachable) : CacheInv c :=
  Lts.Reachable.invariant h (fun _ => CacheInv.init) fun _ _ _ hi hst => hi.step hst

end Unicaster
