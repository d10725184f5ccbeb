/-
# What a step of the cache leaves as it is

A step is QUIET, or it is the swap of `publish`, or it is the detaching of `pod_cache_stop`
(`CacheInv.step_cases`); a quiet step leaves `current`, every moment of reception and every
address as they are.

Section 3 is about the other half of the state: the threads leave alone what only
`pod_cache_start` and `pod_cache_stop` write (`Frame`).
-/
import Unicaster.CacheRefs

namespace Unicaster

open CLib Refcount

/-! ## 1. Quiet steps -/

/-- Nothing is published and nothing detached, and what was written stays as it is. -/
structure Quiet (c c' : PodCache) : Prop where
  current : c'.current = c.current
  nextSnap : c'.nextSnap = c.nextSnap
  receivedAt : ∀ r, (c'.snaps r).receivedAt = (c.snaps r).receivedAt
  pods : ∀ r, (c'.snaps r).pods = (c.snaps r).pods
  nextList : c.nextList ≤ c'.nextList
  ips : ∀ l < c.nextList, (c'.lists l).ips = (c.lists l).ips
  /-- a snapshot is freed by a thread that stands before that `free` -/
  frees : ∀ r, (c'.snaps r).frees = (c.snaps r).frees ∨ some r ∈ c.dying
  environ : c'.environ = c.environ

section Quiet

variable {c c' : PodCache} {r l : Nat}

theorem Quiet.same (hheap : c'.heap = c.heap) (hcur : c'.current = c.current)
    (he : c'.environ = c.environ) : Quiet c c' := by
  obtain ⟨hsn, hns, hli, hnl, -⟩ := Heap.mk.inj hheap
  exact ⟨hcur, hns, fun r => by rw [hsn], fun r => by rw [hsn], le_of_eq hnl.symm,
    fun l _ => by rw [hli], fun r => Or.inl (by rw [hsn]), he⟩

/-- A counter changes. -/
theorem Quiet.counted {x : Int} (hheap : c'.heap = (c.setRefs r x).heap)
    (hcur : c'.current = c.current) (he : c'.environ = c.environ) : Quiet c c' := by
  obtain ⟨hsn, hns, hli, hnl, -⟩ := Heap.mk.inj hheap
  refine ⟨hcur, hns, fun q => ?_, fun q => ?_, le_of_eq hnl.symm, fun l _ => ?_,
    fun q => Or.inl ?_, he⟩
  · rw [hsn, PodCache.setRefs_receivedAt]
  · rw [hsn, PodCache.setRefs_pods]
  · rw [hli]
    rfl
  · rw [hsn, PodCache.setRefs_frees]

/-- A dying snapshot is freed with its list. -/
theorem Quiet.freed (hr : some r ∈ c.dying) (hheap : c'.heap = (c.freeSnap r).heap)
    (hcur : c'.current = c.current) (he : c'.environ = c.environ) : Quiet c c' := by
  obtain ⟨hsn, hns, hli, hnl, -⟩ := Heap.mk.inj hheap
  refine ⟨hcur, hns, fun q => ?_, fun q => ?_, le_of_eq hnl.symm, fun l _ => ?_,
    fun q => ?_, he⟩
  · rw [hsn, PodCache.freeSnap_receivedAt]
  · rw [hsn, PodCache.freeSnap_pods]
  · rw [hli, PodCache.freeSnap_lists, PodCache.freeList_ips]
  · by_cases hq : q = r
    · exact Or.inr (hq ▸ hr)
    · exact Or.inl (by rw [hsn, PodCache.freeSnap_frees, if_neg hq])

/-- The list in flight is freed. -/
theorem Quiet.discarded (hheap : c'.heap = (c.freeList l).heap) (hcur : c'.current = c.current)
    (he : c'.environ = c.environ) : Quiet c c' := by
  obtain ⟨hsn, hns, hli, hnl, -⟩ := Heap.mk.inj hheap
  refine ⟨hcur, hns, fun q => ?_, fun q => ?_, le_of_eq hnl.symm, fun k _ => ?_,
    fun q => Or.inl ?_, he⟩
  · rw [hsn]
    rfl
  · rw [hsn]
    rfl
  · rw [hli, PodCache.freeList_ips]
  · rw [hsn]
    rfl

/-- A new list comes into being. -/
theorem Quiet.fetched (c : PodCache) (ips : List Text) (th : Refresher) :
    Quiet c
      { c with
        lists := Function.update c.lists c.nextList ⟨ips, 0⟩
        nextList := c.nextList + 1
        refresher := some th } :=
  ⟨rfl, rfl, fun _ => rfl, fun _ => rfl, Nat.le_succ _,
    fun _ hl => by simp only [Function.update_of_ne (Nat.ne_of_lt hl)], fun _ => Or.inl rfl, rfl⟩

end Quiet

/-! ## 2. What a step can do to the published list -/

section Steps

variable {c c' : PodCache} {th : Refresher}

/-- **The refresher's own moves are quiet**, but for the swap. -/
theorem CacheInv.refresher_quiet (h : CacheInv c) (hth : c.refresher = some th)
    (hmv : RefresherMove c th c') :
    Quiet c c' ∨ ∃ receivedAt pods, th.pc = .swapping receivedAt pods ∧
      c' = c.swap th receivedAt pods := by
  cases hmv with
  | swap hpc => exact Or.inr ⟨_, _, hpc, rfl⟩
  | discard hpc hcl => exact Or.inl (Quiet.discarded rfl rfl rfl)
  | empty hpc hcl hips => exact Or.inl (Quiet.discarded rfl rfl rfl)
  | dropLast hpc h0 => exact Or.inl (Quiet.counted rfl rfl rfl)
  | drop hpc h0 => exact Or.inl (Quiet.counted rfl rfl rfl)
  | free hpc => exact Or.inl (Quiet.freed (mem_dying_of_refresher hth hpc) rfl rfl rfl)
  | @report error now expired hpc =>
    obtain ⟨log, th', heq, -⟩ := h.endFailure_eq th error now expired
    rw [heq]
    exact Or.inl (Quiet.same rfl rfl rfl)
  | _ => exact Or.inl (Quiet.same rfl rfl rfl)

theorem StartMove.quiet {clientOk threadOk ok : Bool}
    (hmv : StartMove c clientOk threadOk c' ok) : Quiet c c' := by
  cases hmv with
  | running hrun => exact Quiet.same rfl rfl rfl
  | noClient hrun => exact Quiet.same rfl rfl rfl
  | noThread hrun => exact Quiet.same rfl rfl rfl
  | started hrun => exact Quiet.same rfl rfl rfl

/-- **`pod_cache_stop`** is quiet, but for the place where it detaches the list. -/
theorem StopMove.quiet (hmv : StopMove c c') :
    Quiet c c' ∨ c.stopper = .detach ∧
      c' = { c with current := none, stopper := .release c.current } := by
  cases hmv with
  | detach hs => exact Or.inr ⟨hs, rfl⟩
  | dropLast hs h0 => exact Or.inl (Quiet.counted rfl rfl rfl)
  | drop hs h0 => exact Or.inl (Quiet.counted rfl rfl rfl)
  | free hs => exact Or.inl (Quiet.freed (mem_dying_of_stopper hs) rfl rfl rfl)
  | _ => exact Or.inl (Quiet.same rfl rfl rfl)

/-- **What one step can do to the published list.**  It is quiet, or it is the swap of
`publish`, or `pod_cache_stop` detaches the list. -/
theorem CacheInv.step_cases (h : CacheInv c) {a : CacheAct} (hst : c.step a = some c') :
    Quiet c c' ∨
      (∃ th receivedAt pods, a = .refresher ∧ c.refresher = some th ∧
        th.pc = .swapping receivedAt pods ∧ c' = c.swap th receivedAt pods) ∨
      (a = .stop ∧ c.stopper = .detach ∧
        c' = { c with current := none, stopper := .release c.current }) := by
  cases h.move_of_step hst with
  | start hs hmv => exact Or.inl hmv.quiet
  | stop hmv =>
    rcases hmv.quiet with hq | ⟨hs, hc⟩
    · exact Or.inl hq
    · exact Or.inr (Or.inr ⟨rfl, hs, hc⟩)
  | acquired hrd hcur hfresh => exact Or.inl (Quiet.counted rfl rfl rfl)
  | releasedLast hrd h0 => exact Or.inl (Quiet.counted rfl rfl rfl)
  | released hrd h0 => exact Or.inl (Quiet.counted rfl rfl rfl)
  | freed hrd =>
    exact Or.inl (Quiet.freed (mem_dying_of_reader (List.mem_of_getElem? hrd) rfl) rfl rfl rfl)
  | @refresher th c' hth hmv =>
    rcases h.refresher_quiet hth hmv with hq | ⟨receivedAt, pods, hpc, hc⟩
    · exact Or.inl hq
    · exact Or.inr (Or.inl ⟨th, receivedAt, pods, rfl, hth, hpc, hc⟩)
  | fetched hth hpc hok => exact Or.inl (Quiet.fetched c _ _)
  | outOfMemory hth hpc => exact Or.inl (Quiet.discarded rfl rfl rfl)
  | _ => exact Or.inl (Quiet.same rfl rfl rfl)

end Steps

/-! ## 3. What the threads leave to the main thread -/

/-- The environment, the clock, the flag, and what only `pod_cache_start` and `pod_cache_stop`
write. -/
structure MainVars where
  environ : Environ
  clock : Int
  closing : Bool
  maxAge : Int
  client : Option Nat
  refresherRunning : Bool
  stopper : StopPc
  clients : List Nat
  refreshers : List Nat

def PodCache.mainVars (c : PodCache) : MainVars :=
  ⟨c.environ, c.clock, c.closing, c.maxAge, c.client, c.refresherRunning, c.stopper, c.clients,
    c.refreshers⟩

/-- The step wrote none of them. -/
def Frame (c c' : PodCache) : Prop := c'.mainVars = c.mainVars

/-- `pod_cache_stop` is behind the place where it detaches the list. -/
def StopPc.Detached : StopPc → Prop
  | .release _ => True
  | .free _ => True
  | _ => False

/-- A step of the cache that only the main thread takes. -/
def CacheAct.OfMain : CacheAct → Prop
  | .closingReset => True
  | .closingBegin => True
  | .start _ _ => True
  | .stop => True
  | .spawnReader => True
  | _ => False

/-- A step of the refresher, or the end of what it waits for. -/
def CacheAct.OfRefresher : CacheAct → Prop
  | .refresher => True
  | .fetchEnds _ => True
  | .publishAlloc _ => True
  | _ => False

/-- A step of the cache that only reader `t` takes. -/
def CacheAct.OfReader (t : Nat) : CacheAct → Prop
  | .acquire u => u = t
  | .read u => u = t
  | .release u => u = t
  | .free u => u = t
  | _ => False

section Frame

variable {c c' : PodCache} {th : Refresher} {a : CacheAct}

theorem Frame.environ (h : Frame c c') : c'.environ = c.environ := congrArg MainVars.environ h

theorem Frame.clock (h : Frame c c') : c'.clock = c.clock := congrArg MainVars.clock h

theorem Frame.closing (h : Frame c c') : c'.closing = c.closing := congrArg MainVars.closing h

theorem Frame.maxAge (h : Frame c c') : c'.maxAge = c.maxAge := congrArg MainVars.maxAge h

theorem Frame.client (h : Frame c c') : c'.client = c.client := congrArg MainVars.client h

theorem Frame.refresherRunning (h : Frame c c') : c'.refresherRunning = c.refresherRunning :=
  congrArg MainVars.refresherRunning h

theorem Frame.stopper (h : Frame c c') : c'.stopper = c.stopper := congrArg MainVars.stopper h

theorem Frame.clients (h : Frame c c') : c'.clients = c.clients := congrArg MainVars.clients h

theorem Frame.refreshers (h : Frame c c') : c'.refreshers = c.refreshers :=
  congrArg MainVars.refreshers h

theorem CacheAct.OfRefresher.not_main (h : a.OfRefresher) : ¬ a.OfMain := by
  cases a <;> exact fun hm => by first | exact hm | exact h

theorem CacheAct.OfReader.not_main {t : Nat} (h : a.OfReader t) : ¬ a.OfMain := by
  cases a <;> exact fun hm => by first | exact hm | exact h

theorem CacheInv.environ_step (h : CacheInv c) (hst : c.step a = some c') :
    c'.environ = c.environ := by
  rcases h.step_cases hst with hq | ⟨th, receivedAt, l, -, -, -, rfl⟩ | ⟨-, -, rfl⟩
  · exact hq.environ
  · rfl
  · rfl

/-- What the refresher carries from one step to the next: only the list it has just fetched, and
only if that list is not empty. -/
theorem CacheInv.refresher_frame (h : CacheInv c) (hmv : RefresherMove c th c') :
    Frame c c' ∧ c'.readers = c.readers ∧ ∃ th', c'.refresher = some th' ∧
      (th'.pc.inFlight = none ∨ ∃ l error, th.pc = .fetched (some l) error ∧
        (c.lists l).ips ≠ [] ∧ th'.pc = .publishing l ∧ th'.answer = th.answer) := by
  cases hmv with
  | offer hpc hcl hips => exact ⟨rfl, rfl, _, rfl, Or.inr ⟨_, _, hpc, hips, rfl, rfl⟩⟩
  | @report error now expired hpc =>
    obtain ⟨log, th', heq, hpc', -⟩ := h.endFailure_eq th error now expired
    rw [heq]
    exact ⟨rfl, rfl, _, rfl, Or.inl (by rw [hpc']; rfl)⟩
  | _ => exact ⟨rfl, rfl, _, rfl, Or.inl rfl⟩

/-- A step of the refresher takes a refresher, and leaves the readers alone. -/
theorem CacheInv.refresher_step (h : CacheInv c) (ha : a.OfRefresher)
    (hst : c.step a = some c') : c.refresher ≠ none ∧ c'.readers = c.readers ∧ Frame c c' := by
  cases h.move_of_step hst with
  | refresher hth hmv =>
    obtain ⟨hf, hrd, -⟩ := h.refresher_frame hmv
    exact ⟨by rw [hth]; simp, hrd, hf⟩
  | fetched hth hpc hok => exact ⟨by rw [hth]; simp, rfl, rfl⟩
  | fetchFailed hth hpc hno => exact ⟨by rw [hth]; simp, rfl, rfl⟩
  | allocated hth hpc => exact ⟨by rw [hth]; simp, rfl, rfl⟩
  | outOfMemory hth hpc => exact ⟨by rw [hth]; simp, rfl, rfl⟩
  | _ => exact ha.elim

/-- A step of a reader is about its own entry among the readers. -/
theorem CacheInv.reader_step (h : CacheInv c) {t : Nat} (ha : a.OfReader t)
    (hst : c.step a = some c') :
    Quiet c c' ∧ Frame c c' ∧ c'.refresher = c.refresher ∧ c'.log = c.log ∧
      (c' = c ∨ ∃ rd, c'.readers = c.readers.set t rd) := by
  cases h.move_of_step hst with
  | refused hrd hacq => exact ⟨Quiet.same rfl rfl rfl, rfl, rfl, rfl, Or.inl rfl⟩
  | @acquired u r acquired hrd hcur hfresh =>
    obtain rfl : u = t := ha
    exact ⟨Quiet.counted rfl rfl rfl, rfl, rfl, rfl, Or.inr ⟨_, rfl⟩⟩
  | read hrd => exact ⟨Quiet.same rfl rfl rfl, rfl, rfl, rfl, Or.inl rfl⟩
  | @releasedLast u r acquired hrd h0 =>
    obtain rfl : u = t := ha
    exact ⟨Quiet.counted rfl rfl rfl, rfl, rfl, rfl, Or.inr ⟨_, rfl⟩⟩
  | @released u r acquired hrd h0 =>
    obtain rfl : u = t := ha
    exact ⟨Quiet.counted rfl rfl rfl, rfl, rfl, rfl, Or.inr ⟨_, rfl⟩⟩
  | @freed u r acquired hrd =>
    obtain rfl : u = t := ha
    have hr := mem_dying_of_reader (List.mem_of_getElem? hrd) rfl
    exact ⟨Quiet.freed hr rfl rfl rfl, rfl, rfl, rfl, Or.inr ⟨_, rfl⟩⟩
  | _ => exact ha.elim

/-- A reader's use of what it holds changes nothing. -/
theorem CacheInv.readStep (h : CacheInv c) {t : Nat} (hst : c.step (.read t) = some c') :
    c' = c := by
  cases h.move_of_step hst with
  | read hrd => rfl

/-- What the threads leave to the main thread; and they only publish. -/
theorem CacheInv.thread_step (h : CacheInv c) (ha : ¬ a.OfMain) (hst : c.step a = some c') :
    c'.closing = c.closing ∧ c'.refresherRunning = c.refresherRunning ∧
      c'.stopper = c.stopper ∧
      (c'.current = none → c.current = none ∧ c'.nextSnap = c.nextSnap) := by
  have hpub : c'.current = none → c.current = none ∧ c'.nextSnap = c.nextSnap := by
    intro hcur
    rcases h.step_cases hst with hq | ⟨th, receivedAt, l, -, -, -, rfl⟩ | ⟨rfl, -, -⟩
    · exact ⟨hq.current ▸ hcur, hq.nextSnap⟩
    · exact absurd hcur (by simp [PodCache.swap])
    · exact absurd trivial ha
  suffices hf : c'.closing = c.closing ∧ c'.refresherRunning = c.refresherRunning ∧
      c'.stopper = c.stopper from ⟨hf.1, hf.2.1, hf.2.2, hpub⟩
  cases h.move_of_step hst with
  | refresher hth hmv =>
    obtain ⟨hf, -⟩ := h.refresher_frame hmv
    exact ⟨hf.closing, hf.refresherRunning, hf.stopper⟩
  | closingReset => exact absurd trivial ha
  | closingBegin => exact absurd trivial ha
  | start hs hmv => exact absurd trivial ha
  | stop hmv => exact absurd trivial ha
  | spawnReader => exact absurd trivial ha
  | _ => exact ⟨rfl, rfl, rfl⟩

/-- `pod_cache_start` leaves the refresher as it is or creates one. -/
theorem StartMove.frame {clientOk threadOk ok : Bool}
    (hmv : StartMove c clientOk threadOk c' ok) :
    c'.readers = c.readers ∧ c'.stopper = c.stopper ∧ c'.closing = c.closing ∧
      (c'.refresher = c.refresher ∨ c'.refresher = some (Refresher.create c.environ)) ∧
      (ok = true → c'.refresherRunning = true) := by
  cases hmv with
  | running hrun => exact ⟨rfl, rfl, rfl, Or.inl rfl, fun _ => hrun⟩
  | noClient hrun => exact ⟨rfl, rfl, rfl, Or.inl rfl, fun hno => absurd hno (by simp)⟩
  | noThread hrun => exact ⟨rfl, rfl, rfl, Or.inl rfl, fun hno => absurd hno (by simp)⟩
  | started hrun => exact ⟨rfl, rfl, rfl, Or.inr rfl, fun _ => rfl⟩

/-- `pod_cache_stop` leaves the readers alone, ends no refresher but by joining it, and gets
behind its detaching by detaching. -/
theorem StopMove.frame (hmv : StopMove c c') :
    c'.readers = c.readers ∧ (c'.refresher = c.refresher ∨ c'.refresher = none) ∧
      (c'.stopper.Detached → c'.current = none ∨ c.stopper.Detached) := by
  cases hmv with
  | join hs hrun hth hpc => exact ⟨rfl, Or.inr rfl, fun hd => hd.elim⟩
  | detach hs => exact ⟨rfl, Or.inl rfl, fun _ => Or.inl rfl⟩
  | dropLast hs h0 => exact ⟨rfl, Or.inl rfl, fun _ => Or.inr (by rw [hs]; trivial)⟩
  | _ => exact ⟨rfl, Or.inl rfl, fun hd => hd.elim⟩

/-- The clock does not go back. -/
theorem CacheInv.clock_le (h : CacheInv c) (hst : c.step a = some c') :
    c.clock ≤ c'.clock := by
  cases h.move_of_step hst with
  | @tick ns => exact Int.le_add_of_nonneg_right (Int.natCast_nonneg ns)
  | refresher hth hmv => exact le_of_eq (h.refresher_frame hmv).1.clock.symm
  | start hs hmv => cases hmv <;> exact le_refl _
  | stop hmv => cases hmv <;> exact le_refl _
  | _ => exact le_refl _

end Frame

end Unicaster
