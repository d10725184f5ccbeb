/-
# The cache as a ledger

`PodCache.ledger` reads a state of the cache as a ledger of `Unicaster.Lib.Refcount`: the owning
slots are `current`, the snapshot detached by `publish` or `pod_cache_stop` and not yet
released, and what each reader holds; the dying slots are the three kinds of thread between
the decrement that found zero and the `free`.

The pod lists are counted beside it.  A list is in the hands of the refresher from
`pod_list_fetch` to the swap, then of the one snapshot that holds it, and its `frees` follow
those of that snapshot; every other list was freed once (`CacheInv.listOwner`).
-/
import Unicaster.PodCache
import Unicaster.Lib.Refcount

namespace Unicaster

open CLib Refcount

/-! ## 1. The state as a ledger -/

/-- The snapshot the refresher has detached and not yet released. -/
def RefresherPc.slot : RefresherPc → Option Nat
  | .releasing previous => previous
  | _ => none

/-- The snapshot the refresher is about to free. -/
def RefresherPc.dying : RefresherPc → Option Nat
  | .freeing r => some r
  | _ => none

/-- The pod list in the hands of the refresher. -/
def RefresherPc.inFlight : RefresherPc → Option Nat
  | .fetched pods _ => pods
  | .publishing l => some l
  | .swapping _ l => some l
  | _ => none

def StopPc.slot : StopPc → Option Nat
  | .release previous => previous
  | _ => none

def StopPc.dying : StopPc → Option Nat
  | .free r => some r
  | _ => none

namespace PodCache

variable (c : PodCache)

/-- The slots that own a snapshot. -/
def owners : List (Option Nat) :=
  c.current :: c.refresher.bind (·.pc.slot) :: c.stopper.slot :: c.readers.map (·.held)

/-- The slots in which a snapshot waits to be freed. -/
def dying : List (Option Nat) :=
  c.refresher.bind (·.pc.dying) :: c.stopper.dying :: c.readers.map (·.freeing)

def inFlight : Option Nat := c.refresher.bind (·.pc.inFlight)

def ledger : Ledger Nat where
  owners := c.owners
  dying := c.dying
  refs := fun r => (c.snaps r).refs
  frees := fun r => (c.snaps r).frees
  allocated := fun r => r < c.nextSnap

end PodCache

/-- What holds of the heap and of the threads in every reachable state. -/
structure CacheInv (c : PodCache) : Prop where
  sound : c.ledger.Sound
  /-- the list of a snapshot is in the heap -/
  podsLt : ∀ r < c.nextSnap, (c.snaps r).pods < c.nextList
  /-- no two snapshots share a list -/
  podsInj : ∀ r < c.nextSnap, ∀ q < c.nextSnap, (c.snaps r).pods = (c.snaps q).pods → r = q
  /-- a snapshot and its list are freed together -/
  podsFrees : ∀ r < c.nextSnap, (c.lists (c.snaps r).pods).frees = (c.snaps r).frees
  /-- the list in flight is live and no snapshot has it -/
  flight : ∀ l, c.inFlight = some l →
    l < c.nextList ∧ (c.lists l).frees = 0 ∧ ∀ r < c.nextSnap, (c.snaps r).pods ≠ l
  /-- a list nobody has was freed, once -/
  listOwner : ∀ l < c.nextList, (c.lists l).frees = 1 ∨ c.inFlight = some l ∨
    ∃ r < c.nextSnap, (c.snaps r).pods = l
  running : c.refresherRunning = c.refresher.isSome
  /-- while the refresher lives the client does, and nobody is inside `pod_cache_stop` -/
  alive : c.refresher.isSome = true → c.client.isSome = true ∧ c.stopper = .idle
  noFault : c.fault = false

/-! ## 2. What the slots guarantee -/

section Slots

variable {c : PodCache} {r : Nat}

theorem mem_owners_of_current (h : c.current = some r) : some r ∈ c.owners :=
  List.mem_cons.mpr (Or.inl h.symm)

theorem mem_owners_of_refresher {th : Refresher} (hth : c.refresher = some th)
    (hpc : th.pc = .releasing (some r)) : some r ∈ c.owners := by
  simp [PodCache.owners, hth, hpc, RefresherPc.slot]

theorem mem_owners_of_stopper (h : c.stopper = .release (some r)) : some r ∈ c.owners := by
  simp [PodCache.owners, h, StopPc.slot]

theorem mem_owners_of_reader {rd : Reader} (hrd : rd ∈ c.readers) (h : rd.held = some r) :
    some r ∈ c.owners := by
  have : some r ∈ c.readers.map (·.held) := List.mem_map.mpr ⟨rd, hrd, h⟩
  simp [PodCache.owners, this]

theorem mem_dying_of_refresher {th : Refresher} (hth : c.refresher = some th)
    (hpc : th.pc = .freeing r) : some r ∈ c.dying := by
  simp [PodCache.dying, hth, hpc, RefresherPc.dying]

theorem mem_dying_of_stopper (h : c.stopper = .free r) : some r ∈ c.dying := by
  simp [PodCache.dying, h, StopPc.dying]

theorem mem_dying_of_reader {rd : Reader} (hrd : rd ∈ c.readers) (h : rd.freeing = some r) :
    some r ∈ c.dying := by
  have : some r ∈ c.readers.map (·.freeing) := List.mem_map.mpr ⟨rd, hrd, h⟩
  simp [PodCache.dying, this]

/-- An owned snapshot is in the heap and not freed. -/
theorem CacheInv.owned (h : CacheInv c) (hr : some r ∈ c.owners) :
    r < c.nextSnap ∧ (c.snaps r).frees = 0 :=
  ⟨h.sound.allocated_of_owned hr, h.sound.owned hr⟩

theorem CacheInv.dies (h : CacheInv c) (hr : some r ∈ c.dying) :
    r < c.nextSnap ∧ (c.snaps r).frees = 0 :=
  ⟨h.sound.allocated_of_dying hr, h.sound.dying_live hr⟩

end Slots

/-! ## 3. The heap, and the three ways in which a step writes it -/

/-- The snapshots and the lists, and whether any was misused. -/
structure Heap where
  snaps : Nat → PodSnapshot
  nextSnap : Nat
  lists : Nat → PodListCell
  nextList : Nat
  fault : Bool

/-- A field of a cell, where one cell was written. -/
theorem proj_update {α β : Type} (g : α → β) (f : Nat → α) (r : Nat) (a : α) (q : Nat) :
    g (Function.update f r a q) = if q = r then g a else g (f q) := by
  rw [Function.update_apply, apply_ite g]

/-- ... and kept that field. -/
theorem proj_update_of_eq {α β : Type} (g : α → β) (f : Nat → α) (r : Nat) (a : α) (q : Nat)
    (h : g a = g (f r)) : g (Function.update f r a q) = g (f q) := by
  rw [proj_update g]
  split
  · rename_i hq
    rw [h, hq]
  · rfl

namespace PodCache

variable (c : PodCache)

def heap : Heap := ⟨c.snaps, c.nextSnap, c.lists, c.nextList, c.fault⟩

/-- The counter of a live snapshot is written. -/
def setRefs (r : Nat) (x : Int) : PodCache :=
  { c with snaps := Function.update c.snaps r { c.snaps r with refs := x } }

/-- A live list is freed. -/
def freeList (l : Nat) : PodCache :=
  { c with lists := Function.update c.lists l { c.lists l with frees := 1 } }

/-- A live snapshot is freed, together with its list. -/
def freeSnap (r : Nat) : PodCache :=
  { c with
    snaps := Function.update c.snaps r { c.snaps r with frees := 1 }
    lists := Function.update c.lists (c.snaps r).pods
      { c.lists (c.snaps r).pods with frees := 1 } }

variable (r l q : Nat) (x : Int)

@[simp] theorem setRefs_refs :
    ((c.setRefs r x).snaps q).refs = if q = r then x else (c.snaps q).refs :=
  proj_update PodSnapshot.refs c.snaps r _ q

@[simp] theorem setRefs_receivedAt :
    ((c.setRefs r x).snaps q).receivedAt = (c.snaps q).receivedAt :=
  proj_update_of_eq PodSnapshot.receivedAt c.snaps r _ q (by rfl)

@[simp] theorem setRefs_pods : ((c.setRefs r x).snaps q).pods = (c.snaps q).pods :=
  proj_update_of_eq PodSnapshot.pods c.snaps r _ q (by rfl)

@[simp] theorem setRefs_frees : ((c.setRefs r x).snaps q).frees = (c.snaps q).frees :=
  proj_update_of_eq PodSnapshot.frees c.snaps r _ q (by rfl)

@[simp] theorem freeSnap_refs : ((c.freeSnap r).snaps q).refs = (c.snaps q).refs :=
  proj_update_of_eq PodSnapshot.refs c.snaps r _ q (by rfl)

@[simp] theorem freeSnap_receivedAt :
    ((c.freeSnap r).snaps q).receivedAt = (c.snaps q).receivedAt :=
  proj_update_of_eq PodSnapshot.receivedAt c.snaps r _ q (by rfl)

@[simp] theorem freeSnap_pods : ((c.freeSnap r).snaps q).pods = (c.snaps q).pods :=
  proj_update_of_eq PodSnapshot.pods c.snaps r _ q (by rfl)

@[simp] theorem freeSnap_frees :
    ((c.freeSnap r).snaps q).frees = if q = r then 1 else (c.snaps q).frees :=
  proj_update PodSnapshot.frees c.snaps r _ q

@[simp] theorem freeList_frees :
    ((c.freeList l).lists q).frees = if q = l then 1 else (c.lists q).frees :=
  proj_update PodListCell.frees c.lists l _ q

@[simp] theorem freeList_ips : ((c.freeList l).lists q).ips = (c.lists q).ips :=
  proj_update_of_eq PodListCell.ips c.lists l _ q (by rfl)

/-- Freeing a snapshot does to the lists what freeing its list does. -/
theorem freeSnap_lists : (c.freeSnap r).lists = (c.freeList (c.snaps r).pods).lists := rfl

end PodCache

/-! ## 4. Uses of live cells change nothing -/

namespace PodCache

variable {c : PodCache} {r : Nat}

theorem touchSnap_of_live (h : r < c.nextSnap ∧ (c.snaps r).frees = 0) : c.touchSnap r = c := by
  simp [touchSnap, snapLive, h]

theorem touchPods_of_live (h : r < c.nextSnap ∧ (c.snaps r).frees = 0)
    (hl : (c.snaps r).pods < c.nextList ∧ (c.lists (c.snaps r).pods).frees = 0) :
    c.touchPods r = c := by
  simp [touchPods, snapLive, listLive, h, hl]

theorem podListFree_of_live {l : Nat} (h : l < c.nextList ∧ (c.lists l).frees = 0) :
    c.podListFree l = c.freeList l := by
  simp [podListFree, freeList, listLive, h]

theorem dropRef_of_live (h : r < c.nextSnap ∧ (c.snaps r).frees = 0) :
    c.dropRef r = (c.setRefs r ((c.snaps r).refs - 1), (c.snaps r).refs - 1) := by
  simp only [dropRef, touchSnap_of_live h, setRefs]

end PodCache

section Uses

variable {c : PodCache} {r : Nat}

/-- The list of a live snapshot is live. -/
theorem CacheInv.pods_live (h : CacheInv c) (hr : r < c.nextSnap ∧ (c.snaps r).frees = 0) :
    (c.snaps r).pods < c.nextList ∧ (c.lists (c.snaps r).pods).frees = 0 :=
  ⟨h.podsLt r hr.1, (h.podsFrees r hr.1).trans hr.2⟩

theorem CacheInv.touchPods_eq (h : CacheInv c) (hr : some r ∈ c.owners) : c.touchPods r = c :=
  PodCache.touchPods_of_live (h.owned hr) (h.pods_live (h.owned hr))

/-- `free_snapshot` of a dying snapshot. -/
theorem CacheInv.freeSnapshot_eq (h : CacheInv c) (hr : some r ∈ c.dying) :
    c.freeSnapshot r = c.freeSnap r := by
  have hd := h.dies hr
  simp only [PodCache.freeSnapshot, PodCache.touchSnap_of_live hd,
    PodCache.podListFree_of_live (h.pods_live hd), PodCache.freeList, PodCache.freeSnap, hd.2]

/-- What `pod_cache_acquire` does: nothing where it returns `NULL`, one more reference where
it returns the current snapshot. -/
theorem CacheInv.podCacheAcquire_cases (h : CacheInv c) :
    c.podCacheAcquire = (c, none) ∨
      ∃ r, c.current = some r ∧
        ¬(c.maxAge > 0 ∧ c.nowSeconds - (c.snaps r).receivedAt > c.maxAge) ∧
        c.podCacheAcquire = (c.setRefs r ((c.snaps r).refs + 1), some r) := by
  unfold PodCache.podCacheAcquire
  split
  · exact Or.inl rfl
  · rename_i r hcur
    rw [PodCache.touchSnap_of_live (h.owned (mem_owners_of_current hcur))]
    dsimp only
    split
    · exact Or.inl rfl
    · rename_i hfresh
      exact Or.inr ⟨r, hcur, hfresh, rfl⟩

/-- `describe_current` uses live cells only. -/
theorem CacheInv.describeCurrent_fst (h : CacheInv c) : c.describeCurrent.1 = c := by
  unfold PodCache.describeCurrent
  split
  · rfl
  · rename_i r hcur
    exact h.touchPods_eq (mem_owners_of_current hcur)

theorem CacheInv.isExpired_fst (h : CacheInv c) : c.isExpired.1 = c := by
  unfold PodCache.isExpired
  split
  · exact h.describeCurrent_fst
  · rfl

/-- `log_failure` only adds a line. -/
theorem CacheInv.logFailure_eq (h : CacheInv c) (reason : Text) (failingFor : Int) :
    ∃ entry, c.logFailure reason failingFor = { c with log := c.log ++ [entry] } := by
  have hd := h.describeCurrent_fst
  unfold PodCache.logFailure
  cases hdc : c.describeCurrent with
  | mk c' rest =>
    rw [hdc] at hd
    subst hd
    exact ⟨_, rfl⟩

/-- The end of a failed round is about the log and the refresher only. -/
theorem CacheInv.endFailure_eq (h : CacheInv c) (th : Refresher) (error : Text) (now : Int)
    (expired : Bool) :
    ∃ log th', c.endFailure th error now expired = { c with log := log, refresher := some th' } ∧
      th'.pc = .sleeping (c.clock + nextDelay th.refresh (th.failures + 1) * nsPerSecond) ∧
      th'.refresh = th.refresh ∧ th'.failures = th.failures + 1 := by
  unfold PodCache.endFailure
  dsimp only
  split
  · obtain ⟨entry, he⟩ := h.logFailure_eq error 0
    rw [he]
    exact ⟨_, _, rfl, rfl, rfl, rfl⟩
  · split
    · obtain ⟨entry, he⟩ := h.logFailure_eq error (now - th.failingSince)
      rw [he]
      exact ⟨_, _, rfl, rfl, rfl, rfl⟩
    · exact ⟨_, _, rfl, rfl, rfl, rfl⟩

end Uses

end Unicaster
