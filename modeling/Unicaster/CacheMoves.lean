/-
# What one step of the cache can do

Said once, for every later module.  `CacheInv.move_of_step` turns a step into a `CacheMove`: one
constructor for each branch of the code, with the guards the code tested, and with the state
behind the step written out.  In a state that satisfies `CacheInv` every cell a step uses is
live, so the state behind it no longer mentions `fault`.
-/
import Unicaster.CacheLedger

namespace Unicaster

open CLib

/-! ## 1. The refresher -/

/-- **What the refresher does by itself**, in the order of `refresh_pods`. -/
inductive RefresherMove (c : PodCache) (th : Refresher) : PodCache → Prop where
  | leave (hpc : th.pc = .check) (hcl : c.closing = true) : RefresherMove c th (c.goto th .exited)
  | request (hpc : th.pc = .check) (hcl : c.closing = false) :
      RefresherMove c th (c.goto { th with answer := none } (.fetching c.clock))
  | giveUp {error : Text} (hpc : th.pc = .fetched none error) (hcl : c.closing = true) :
      RefresherMove c th (c.goto th .exited)
  | noList {error : Text} (hpc : th.pc = .fetched none error) (hcl : c.closing = false) :
      RefresherMove c th (c.goto { th with count := 0 } (.failed error))
  | discard {l : Nat} {error : Text} (hpc : th.pc = .fetched (some l) error)
      (hcl : c.closing = true) : RefresherMove c th ((c.freeList l).goto th .exited)
  | empty {l : Nat} {error : Text} (hpc : th.pc = .fetched (some l) error)
      (hcl : c.closing = false) (hips : (c.lists l).ips = []) :
      RefresherMove c th ((c.freeList l).goto { th with count := 0 }
        (.failed (snprintf errorSize (ascii "the API listed no pod with an IPv4 address"))))
  | offer {l : Nat} {error : Text} (hpc : th.pc = .fetched (some l) error)
      (hcl : c.closing = false) (hips : (c.lists l).ips ≠ []) :
      RefresherMove c th (c.goto { th with count := (c.lists l).ips.length } (.publishing l))
  | swap {receivedAt : Int} {l : Nat} (hpc : th.pc = .swapping receivedAt l) :
      RefresherMove c th (c.swap th receivedAt l)
  | noPrevious (hpc : th.pc = .releasing none) : RefresherMove c th (c.goto th .succeeded)
  | dropLast {r : Nat} (hpc : th.pc = .releasing (some r)) (h0 : (c.snaps r).refs - 1 = 0) :
      RefresherMove c th ((c.setRefs r ((c.snaps r).refs - 1)).goto th (.freeing r))
  | drop {r : Nat} (hpc : th.pc = .releasing (some r)) (h0 : (c.snaps r).refs - 1 ≠ 0) :
      RefresherMove c th ((c.setRefs r ((c.snaps r).refs - 1)).goto th .succeeded)
  | free {r : Nat} (hpc : th.pc = .freeing r) :
      RefresherMove c th ((c.freeSnap r).goto th .succeeded)
  | succeed (hpc : th.pc = .succeeded) : RefresherMove c th (c.endSuccess th)
  | fail {error : Text} (hpc : th.pc = .failed error) :
      RefresherMove c th (c.goto th (.judging error c.nowSeconds))
  | judge {error : Text} {now : Int} (hpc : th.pc = .judging error now) :
      RefresherMove c th (c.goto th (.reporting error now c.isExpired.2))
  | report {error : Text} {now : Int} {expired : Bool}
      (hpc : th.pc = .reporting error now expired) :
      RefresherMove c th (c.endFailure th error now expired)
  | wake {deadline : Int} (hpc : th.pc = .sleeping deadline)
      (hend : c.closing = true ∨ deadline ≤ c.clock) : RefresherMove c th (c.goto th .check)

section Refresher

variable {c c' : PodCache} {th : Refresher}

/-- A list the refresher carries is live. -/
theorem CacheInv.carried_live (h : CacheInv c) (hth : c.refresher = some th) {l : Nat}
    (hl : th.pc.inFlight = some l) : l < c.nextList ∧ (c.lists l).frees = 0 := by
  have hin : c.inFlight = some l := by simp only [PodCache.inFlight, hth, Option.bind_some, hl]
  obtain ⟨hlt, h0, -⟩ := h.flight l hin
  exact ⟨hlt, h0⟩

theorem CacheInv.afterFetch_move (h : CacheInv c) (hth : c.refresher = some th)
    {pods : Option Nat} {error : Text} (hpc : th.pc = .fetched pods error) :
    RefresherMove c th (c.afterFetch th pods error) := by
  unfold PodCache.afterFetch
  cases pods with
  | none =>
    dsimp only
    split
    · rename_i hcl
      exact .giveUp hpc hcl
    · rename_i hcl
      exact .noList hpc (Bool.eq_false_iff.mpr hcl)
  | some l =>
    dsimp only
    rw [PodCache.podListFree_of_live (h.carried_live hth (by rw [hpc]; rfl))]
    split
    · rename_i hcl
      exact .discard hpc hcl
    · rename_i hcl
      split
      · rename_i h0
        exact .empty hpc (Bool.eq_false_iff.mpr hcl) (List.length_eq_zero_iff.mp h0)
      · rename_i h0
        exact .offer hpc (Bool.eq_false_iff.mpr hcl) fun hnil => h0 (by rw [hnil]; rfl)

/-- **One case for each place in `refresh_pods`.** -/
theorem CacheInv.refresherMove (h : CacheInv c) (hth : c.refresher = some th)
    (hst : c.refresherStep th = some c') : RefresherMove c th c' := by
  unfold PodCache.refresherStep at hst
  cases hpc : th.pc with
  | check =>
    simp only [hpc] at hst
    split at hst
    · rename_i hcl
      exact Option.some.inj hst ▸ .leave hpc hcl
    · rename_i hcl
      exact Option.some.inj hst ▸ .request hpc (Bool.eq_false_iff.mpr hcl)
  | fetching startedAt => simp [hpc] at hst
  | fetched pods error =>
    simp only [hpc, Option.some.injEq] at hst
    exact hst ▸ h.afterFetch_move hth hpc
  | publishing l => simp [hpc] at hst
  | swapping receivedAt l =>
    simp only [hpc, Option.some.injEq] at hst
    exact hst ▸ .swap hpc
  | releasing previous =>
    cases previous with
    | none =>
      simp only [hpc, Option.some.injEq] at hst
      exact hst ▸ .noPrevious hpc
    | some r =>
      have hr : some r ∈ c.owners := mem_owners_of_refresher hth hpc
      simp only [hpc, PodCache.dropRef_of_live (h.owned hr)] at hst
      split at hst
      · rename_i h0
        exact Option.some.inj hst ▸ .dropLast hpc h0
      · rename_i h0
        exact Option.some.inj hst ▸ .drop hpc h0
  | freeing r =>
    simp only [hpc, h.freeSnapshot_eq (mem_dying_of_refresher hth hpc), Option.some.injEq] at hst
    exact hst ▸ .free hpc
  | succeeded =>
    simp only [hpc, Option.some.injEq] at hst
    exact hst ▸ .succeed hpc
  | failed error =>
    simp only [hpc, Option.some.injEq] at hst
    exact hst ▸ .fail hpc
  | judging error now =>
    simp only [hpc, h.isExpired_fst, Option.some.injEq] at hst
    exact hst ▸ .judge hpc
  | reporting error now expired =>
    simp only [hpc, Option.some.injEq] at hst
    exact hst ▸ .report hpc
  | sleeping deadline =>
    simp only [hpc] at hst
    split at hst
    · rename_i hend
      exact Option.some.inj hst ▸ .wake hpc hend
    · exact absurd hst (by simp)
  | exited => simp [hpc] at hst

/-- From the place before the swap there is nothing but the swap. -/
theorem RefresherMove.eq_swap (hmv : RefresherMove c th c') {receivedAt : Int} {l : Nat}
    (hpc : th.pc = .swapping receivedAt l) : c' = c.swap th receivedAt l := by
  cases hmv <;> simp_all

end Refresher

/-! ## 2. Starting and stopping -/

/-- **What `pod_cache_start` does**, and what it returns. -/
inductive StartMove (c : PodCache) : Bool → Bool → PodCache → Bool → Prop where
  | running {clientOk threadOk : Bool} (hrun : c.refresherRunning = true) :
      StartMove c clientOk threadOk c true
  | noClient {threadOk : Bool} (hrun : c.refresherRunning = false) :
      StartMove c false threadOk { c with maxAge := c.environ.getPodsMaxAge } false
  | noThread (hrun : c.refresherRunning = false) :
      StartMove c true false
        { c with
          maxAge := c.environ.getPodsMaxAge
          client := none
          clients := c.clients ++ [1] } false
  | started (hrun : c.refresherRunning = false) :
      StartMove c true true
        { c with
          maxAge := c.environ.getPodsMaxAge
          client := some c.clients.length
          clients := c.clients ++ [0]
          refresher := some (Refresher.create c.environ)
          refreshers := c.refreshers ++ [0]
          refresherRunning := true } true

theorem PodCache.startMove (c : PodCache) (clientOk threadOk : Bool) :
    StartMove c clientOk threadOk (c.podCacheStart clientOk threadOk).1
      (c.podCacheStart clientOk threadOk).2 := by
  unfold PodCache.podCacheStart
  split
  · rename_i hrun
    exact .running hrun
  · rename_i hrun
    have hrun' : c.refresherRunning = false := Bool.eq_false_iff.mpr hrun
    cases clientOk with
    | false => exact .noClient hrun'
    | true =>
      cases threadOk with
      | false =>
        -- the client just created is destroyed again
        have hlist : (c.clients ++ [0]).set c.clients.length
            ((c.clients ++ [0]).getD c.clients.length 0 + 1) = c.clients ++ [1] := by simp
        simp only [if_true, Bool.false_eq_true, if_false, PodCache.podListClientDestroy, hlist]
        exact .noThread hrun'
      | true => exact .started hrun'

/-- **What a step of `pod_cache_stop` does**, in its order. -/
inductive StopMove (c : PodCache) : PodCache → Prop where
  | join {th : Refresher} (hs : c.stopper = .idle) (hrun : c.refresherRunning = true)
      (hth : c.refresher = some th) (hpc : th.pc = .exited) :
      StopMove c
        { c with
          refresher := none
          refresherRunning := false
          refreshers := c.refreshers.set (c.refreshers.length - 1)
            (c.refreshers.getD (c.refreshers.length - 1) 0 + 1)
          stopper := .destroy }
  | noRefresher (hs : c.stopper = .idle) (hrun : c.refresherRunning = false) :
      StopMove c { c with stopper := .destroy }
  | destroy {clients : List Nat} (hs : c.stopper = .destroy)
      (hcl : c.podListClientDestroy = { c with clients := clients }) :
      StopMove c { c with clients := clients, client := none, stopper := .detach }
  | detach (hs : c.stopper = .detach) :
      StopMove c { c with current := none, stopper := .release c.current }
  | noList (hs : c.stopper = .release none) : StopMove c { c with stopper := .idle }
  | dropLast {r : Nat} (hs : c.stopper = .release (some r)) (h0 : (c.snaps r).refs - 1 = 0) :
      StopMove c { c.setRefs r ((c.snaps r).refs - 1) with stopper := .free r }
  | drop {r : Nat} (hs : c.stopper = .release (some r)) (h0 : (c.snaps r).refs - 1 ≠ 0) :
      StopMove c { c.setRefs r ((c.snaps r).refs - 1) with stopper := .idle }
  | free {r : Nat} (hs : c.stopper = .free r) : StopMove c { c.freeSnap r with stopper := .idle }

section Stop

variable {c c' : PodCache}

theorem podListClientDestroy_eq (c : PodCache) :
    ∃ l, c.podListClientDestroy = { c with clients := l } := by
  unfold PodCache.podListClientDestroy
  split
  · exact ⟨c.clients, rfl⟩
  · exact ⟨_, rfl⟩

theorem CacheInv.stopMove (h : CacheInv c) (hst : c.stopStep = some c') : StopMove c c' := by
  unfold PodCache.stopStep at hst
  cases hs : c.stopper with
  | idle =>
    simp only [hs] at hst
    split at hst
    · rename_i hrun
      obtain ⟨c1, hj, rfl⟩ := Option.map_eq_some_iff.mp hst
      unfold PodCache.joinRefresher at hj
      cases hth : c.refresher with
      | none => simp [hth] at hj
      | some th =>
        simp only [hth] at hj
        cases hpc : th.pc with
        | exited =>
          simp only [hpc, Option.some.injEq] at hj
          subst hj
          exact .join hs hrun hth hpc
        | _ => simp [hpc] at hj
    · rename_i hrun
      exact Option.some.inj hst ▸ .noRefresher hs (Bool.eq_false_iff.mpr hrun)
  | destroy =>
    obtain ⟨l, hl⟩ := podListClientDestroy_eq c
    simp only [hs, hl, Option.some.injEq] at hst
    exact hst ▸ .destroy hs hl
  | detach =>
    simp only [hs, Option.some.injEq] at hst
    exact hst ▸ .detach hs
  | release previous =>
    cases previous with
    | none =>
      simp only [hs, Option.some.injEq] at hst
      exact hst ▸ .noList hs
    | some r =>
      have hr : some r ∈ c.owners := mem_owners_of_stopper hs
      simp only [hs, PodCache.dropRef_of_live (h.owned hr)] at hst
      split at hst
      · rename_i h0
        exact Option.some.inj hst ▸ .dropLast hs h0
      · rename_i h0
        exact Option.some.inj hst ▸ .drop hs h0
  | free r =>
    simp only [hs, h.freeSnapshot_eq (mem_dying_of_stopper hs), Option.some.injEq] at hst
    exact hst ▸ .free hs

end Stop

/-! ## 3. Every step -/

/-- **What a step can do**, whoever takes it. -/
inductive CacheMove (c : PodCache) : CacheAct → PodCache → Prop where
  | tick {ns : Nat} : CacheMove c (.tick ns) { c with clock := c.clock + ns }
  | closingReset : CacheMove c .closingReset { c with closing := false }
  | closingBegin : CacheMove c .closingBegin { c with closing := true }
  | start {clientOk threadOk ok : Bool} {c' : PodCache} (hs : c.stopper = .idle)
      (hmv : StartMove c clientOk threadOk c' ok) : CacheMove c (.start clientOk threadOk) c'
  | stop {c' : PodCache} (hmv : StopMove c c') : CacheMove c .stop c'
  | spawnReader : CacheMove c .spawnReader { c with readers := c.readers ++ [⟨none, none, []⟩] }
  | refused {t : Nat} {acquired : List Nat} (hrd : c.readers[t]? = some ⟨none, none, acquired⟩)
      (hacq : c.podCacheAcquire = (c, none)) : CacheMove c (.acquire t) c
  | acquired {t r : Nat} {acquired : List Nat}
      (hrd : c.readers[t]? = some ⟨none, none, acquired⟩) (hcur : c.current = some r)
      (hfresh : ¬(c.maxAge > 0 ∧ c.nowSeconds - (c.snaps r).receivedAt > c.maxAge)) :
      CacheMove c (.acquire t)
        { c.setRefs r ((c.snaps r).refs + 1) with
          readers := c.readers.set t ⟨some r, none, r :: acquired⟩ }
  | read {t r : Nat} {acquired : List Nat}
      (hrd : c.readers[t]? = some ⟨some r, none, acquired⟩) : CacheMove c (.read t) c
  | releasedLast {t r : Nat} {acquired : List Nat}
      (hrd : c.readers[t]? = some ⟨some r, none, acquired⟩) (h0 : (c.snaps r).refs - 1 = 0) :
      CacheMove c (.release t)
        { c.setRefs r ((c.snaps r).refs - 1) with
          readers := c.readers.set t ⟨none, some r, acquired⟩ }
  | released {t r : Nat} {acquired : List Nat}
      (hrd : c.readers[t]? = some ⟨some r, none, acquired⟩) (h0 : (c.snaps r).refs - 1 ≠ 0) :
      CacheMove c (.release t)
        { c.setRefs r ((c.snaps r).refs - 1) with
          readers := c.readers.set t ⟨none, none, acquired⟩ }
  | freed {t r : Nat} {acquired : List Nat}
      (hrd : c.readers[t]? = some ⟨none, some r, acquired⟩) :
      CacheMove c (.free t)
        { c.freeSnap r with readers := c.readers.set t ⟨none, none, acquired⟩ }
  | refresher {th : Refresher} {c' : PodCache} (hth : c.refresher = some th)
      (hmv : RefresherMove c th c') : CacheMove c .refresher c'
  | fetched {th : Refresher} {startedAt : Int} {a : Answer} {ips : List Text}
      (hth : c.refresher = some th) (hpc : th.pc = .fetching startedAt)
      (hok : (podListFetch c.environ.deploymentEnv a).list = .ok ips) :
      CacheMove c (.fetchEnds a)
        { c with
          lists := Function.update c.lists c.nextList ⟨ips, 0⟩
          nextList := c.nextList + 1
          refresher := some { th with answer := some a, pc := .fetched (some c.nextList) [] } }
  | fetchFailed {th : Refresher} {startedAt : Int} {a : Answer} {error : Text}
      (hth : c.refresher = some th) (hpc : th.pc = .fetching startedAt)
      (hno : (podListFetch c.environ.deploymentEnv a).list = .error error) :
      CacheMove c (.fetchEnds a)
        { c with refresher := some { th with answer := some a, pc := .fetched none error } }
  | allocated {th : Refresher} {l : Nat} (hth : c.refresher = some th)
      (hpc : th.pc = .publishing l) :
      CacheMove c (.publishAlloc true) (c.goto th (.swapping c.nowSeconds l))
  | outOfMemory {th : Refresher} {l : Nat} (hth : c.refresher = some th)
      (hpc : th.pc = .publishing l) :
      CacheMove c (.publishAlloc false)
        ((c.freeList l).goto th (.failed (snprintf errorSize (ascii "out of memory"))))

section Steps

variable {c c' : PodCache}

theorem CacheInv.acquire_move (h : CacheInv c) {t : Nat} (hst : c.acquireStep t = some c') :
    CacheMove c (.acquire t) c' := by
  unfold PodCache.acquireStep at hst
  split at hst
  · rename_i acquired hrd
    rcases h.podCacheAcquire_cases with heq | ⟨r, hcur, hfresh, heq⟩
    · simp only [heq, Option.some.injEq] at hst
      exact hst ▸ .refused hrd heq
    · simp only [heq, Option.some.injEq] at hst
      exact hst ▸ .acquired hrd hcur hfresh
  · exact absurd hst (by simp)

theorem CacheInv.read_move (h : CacheInv c) {t : Nat} (hst : c.readStep t = some c') :
    CacheMove c (.read t) c' := by
  unfold PodCache.readStep at hst
  split at hst
  · rename_i r acquired hrd
    have hr : some r ∈ c.owners := mem_owners_of_reader (List.mem_of_getElem? hrd) rfl
    rw [h.touchPods_eq hr, Option.some.injEq] at hst
    exact hst ▸ .read hrd
  · exact absurd hst (by simp)

theorem CacheInv.release_move (h : CacheInv c) {t : Nat} (hst : c.releaseStep t = some c') :
    CacheMove c (.release t) c' := by
  unfold PodCache.releaseStep at hst
  split at hst
  · rename_i r acquired hrd
    have hr : some r ∈ c.owners := mem_owners_of_reader (List.mem_of_getElem? hrd) rfl
    simp only [PodCache.dropRef_of_live (h.owned hr)] at hst
    split at hst
    · rename_i h0
      exact Option.some.inj hst ▸ .releasedLast hrd h0
    · rename_i h0
      exact Option.some.inj hst ▸ .released hrd h0
  · exact absurd hst (by simp)

theorem CacheInv.free_move (h : CacheInv c) {t : Nat} (hst : c.freeStep t = some c') :
    CacheMove c (.free t) c' := by
  unfold PodCache.freeStep at hst
  split at hst
  · rename_i r acquired hrd
    have hr : some r ∈ c.dying := mem_dying_of_reader (List.mem_of_getElem? hrd) rfl
    simp only [h.freeSnapshot_eq hr, Option.some.injEq] at hst
    exact hst ▸ .freed hrd
  · exact absurd hst (by simp)

/-- The client of a request has not been destroyed, so nothing is misused by its end. -/
theorem CacheInv.fetchEnds_move (h : CacheInv c) {a : Answer} (hst : c.fetchEnds a = some c') :
    CacheMove c (.fetchEnds a) c' := by
  unfold PodCache.fetchEnds at hst
  cases hth : c.refresher with
  | none => simp [hth] at hst
  | some th =>
    obtain ⟨hcl, -⟩ := h.alive (by rw [hth]; rfl)
    have hnone : c.client.isNone = false := by
      rw [← Option.not_isSome, hcl]
      rfl
    simp only [hth, hnone, Bool.or_false] at hst
    cases hpc : th.pc with
    | fetching startedAt =>
      simp only [hpc] at hst
      split at hst
      · rename_i ips hok
        have hmv := CacheMove.fetched hth hpc hok
        exact Option.some.inj hst ▸ hmv
      · rename_i error hno
        have hmv := CacheMove.fetchFailed hth hpc hno
        exact Option.some.inj hst ▸ hmv
    | _ => simp [hpc] at hst

theorem CacheInv.publishAlloc_move (h : CacheInv c) {ok : Bool}
    (hst : c.publishAlloc ok = some c') : CacheMove c (.publishAlloc ok) c' := by
  unfold PodCache.publishAlloc at hst
  cases hth : c.refresher with
  | none => simp [hth] at hst
  | some th =>
    simp only [hth] at hst
    cases hpc : th.pc with
    | publishing l =>
      simp only [hpc, PodCache.podListFree_of_live (h.carried_live hth (by rw [hpc]; rfl))] at hst
      cases ok with
      | true => exact Option.some.inj hst ▸ .allocated hth hpc
      | false => exact Option.some.inj hst ▸ .outOfMemory hth hpc
    | _ => simp [hpc] at hst

/-- **Every step is one of these moves.** -/
theorem CacheInv.move_of_step (h : CacheInv c) {a : CacheAct} (hst : c.step a = some c') :
    CacheMove c a c' := by
  cases a with
  | tick ns => exact Option.some.inj hst ▸ .tick
  | closingReset => exact Option.some.inj hst ▸ .closingReset
  | closingBegin => exact Option.some.inj hst ▸ .closingBegin
  | start clientOk threadOk =>
    simp only [PodCache.step] at hst
    split at hst
    · rename_i hs
      exact Option.some.inj hst ▸ .start hs (c.startMove clientOk threadOk)
    · exact absurd hst (by simp)
  | stop => exact .stop (h.stopMove hst)
  | spawnReader => exact Option.some.inj hst ▸ .spawnReader
  | acquire t => exact h.acquire_move hst
  | read t => exact h.read_move hst
  | release t => exact h.release_move hst
  | free t => exact h.free_move hst
  | refresher =>
    obtain ⟨th, hth, hst⟩ := Option.bind_eq_some_iff.mp hst
    exact .refresher hth (h.refresherMove hth hst)
  | fetchEnds a => exact h.fetchEnds_move hst
  | publishAlloc ok => exact h.publishAlloc_move hst

end Steps

end Unicaster
