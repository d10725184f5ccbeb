/-
# The sections held under `cache_mutex` (`pod_cache.c`)

In `PodCache` a section held under `cache_mutex` is one step.  Here it is what the source has: the
mutex is taken, `current` is loaded into a local, the age is tested against a clock that goes on,
a counter is changed, the mutex is given back, each a step of its own, and between any two of them
the other threads take every step that needs no mutex.

`pod_cache_acquire` decides at the test of the age and counts later; the rest of it, `takeRef`, is
moved past the steps of the others (`takeRef_step`).  Every other section has one access that
counts.
-/
import Unicaster.CacheHistory
import Unicaster.Lib.Lists

namespace Unicaster

open CLib

/-! ## 1. The model -/

/-- The threads that use the cache. -/
inductive CacheThread where
  | main
  | refresher
  | reader (t : Nat)
  deriving DecidableEq

/-- Who takes a step of the cache; the clock is nobody's. -/
def CacheAct.thread : CacheAct → Option CacheThread
  | .tick _ => none
  | .closingReset => some .main
  | .closingBegin => some .main
  | .start _ _ => some .main
  | .stop => some .main
  | .spawnReader => some .main
  | .acquire t => some (.reader t)
  | .read t => some (.reader t)
  | .release t => some (.reader t)
  | .free t => some (.reader t)
  | .refresher => some .refresher
  | .fetchEnds _ => some .refresher
  | .publishAlloc _ => some .refresher

/-- Where the thread that holds `cache_mutex` stands, with its locals. -/
inductive SectionPc where
  /-- in `pod_cache_acquire`, before `snapshot = current` -/
  | acquireLoad (t : Nat)
  /-- before the test of its age -/
  | acquireTest (t : Nat) (snapshot : Option Nat)
  /-- before `refs++` -/
  | acquireCount (t : Nat) (snapshot : Option Nat)
  /-- in `pod_cache_release`, before `--refs`, which is this step -/
  | releaseDrop (a : CacheAct) (thread : CacheThread)
  /-- in `publish`, before `previous = current` -/
  | publishLoad
  /-- before `current = snapshot` -/
  | publishStore (previous : Option Nat)
  /-- in `describe_current`, before the test of `current` -/
  | describeLoad
  /-- before the age is computed -/
  | describeAge (count : Int)
  /-- in `pod_cache_stop`, before `previous = current` -/
  | stopLoad
  /-- before `current = NULL` -/
  | stopStore (previous : Option Nat)
  /-- at `pthread_mutex_unlock` -/
  | unlocking (thread : CacheThread)

def SectionPc.thread : SectionPc → CacheThread
  | .acquireLoad t => .reader t
  | .acquireTest t _ => .reader t
  | .acquireCount t _ => .reader t
  | .releaseDrop _ thread => thread
  | .publishLoad => .refresher
  | .publishStore _ => .refresher
  | .describeLoad => .refresher
  | .describeAge _ => .refresher
  | .stopLoad => .main
  | .stopStore _ => .main
  | .unlocking thread => thread

/-- Whether this round of failures is logged. -/
def Refresher.reports (th : Refresher) (now : Int) (expired : Bool) : Bool :=
  th.failures = 0 ∨ now - th.lastReminder ≥ failureReminder ∨
    expired = true ∧ th.expiryReported = false

namespace PodCache

variable (c : PodCache)

/-- The section the step begins with, if it is one held under `cache_mutex`. -/
def enters : CacheAct → Option SectionPc
  | .acquire t =>
    match c.readers[t]? with
    | some ⟨none, none, _⟩ => some (.acquireLoad t)
    | _ => none
  | .release t =>
    match c.readers[t]? with
    | some ⟨some _, none, _⟩ => some (.releaseDrop (.release t) (.reader t))
    | _ => none
  | .stop =>
    match c.stopper with
    | .detach => some .stopLoad
    | .release (some _) => some (.releaseDrop .stop .main)
    | _ => none
  | .refresher =>
    match c.refresher with
    | none => none
    | some th =>
      match th.pc with
      | .swapping _ _ => some .publishLoad
      | .releasing (some _) => some (.releaseDrop .refresher .refresher)
      | .judging _ _ => if c.maxAge > 0 then some .describeLoad else none
      | .reporting _ now expired => if th.reports now expired then some .describeLoad else none
      | _ => none
  | _ => none

/-- `refs++`, and the snapshot returned. -/
def takeRef (t r : Nat) : PodCache :=
  { c with
    snaps := Function.update c.snaps r { c.snaps r with refs := (c.snaps r).refs + 1 }
    readers := c.readers.modify t fun rd => ⟨some r, rd.freeing, r :: rd.acquired⟩ }

/-- `current = snapshot` of `publish`; what was there is in `previous`. -/
def store (th : Refresher) (receivedAt : Int) (pods : Nat) (previous : Option Nat) : PodCache :=
  { c with
    snaps := Function.update c.snaps c.nextSnap ⟨1, receivedAt, pods, 0⟩
    nextSnap := c.nextSnap + 1
    current := some c.nextSnap
    refresher := some { th with pc := .releasing previous } }

/-- What `log_failure` says of a list of this length and age. -/
def told (count age : Int) : Verdict :=
  if count = 0 then .noList
  else if c.maxAge > 0 ∧ age > c.maxAge then .expired age
  else .stillAnnouncing count age

/-- What `refresh_pods` makes of what `describe_current` returned: the answer of `is_expired`, or
the line of `log_failure` and the end of the round. -/
def described (count age : Int) : Option PodCache :=
  c.refresher.bind fun th =>
    match th.pc with
    | .judging error now =>
      some (c.goto th (.reporting error now (decide (count ≠ 0 ∧ age > c.maxAge))))
    | .reporting error now expired =>
      let failingFor := if th.failures = 0 then 0 else now - th.failingSince
      let th' := { th with
        expiryReported := expired
        failures := th.failures + 1
        failingSince := if th.failures = 0 then now else th.failingSince
        lastReminder := now }
      let c' : PodCache :=
        { c with log := c.log ++ [.failure failingFor error (c.told count age)] }
      some (c'.goto th'
        (.sleeping (c.clock + nextDelay th.refresh (th.failures + 1) * nsPerSecond)))
    | _ => none

end PodCache

/-- The memory, and where the thread that holds the mutex stands in its section. -/
structure Locked where
  cache : PodCache
  holder : Option SectionPc

inductive LockAct where
  /-- a step that needs no mutex -/
  | out (a : CacheAct)
  /-- a thread takes the mutex for the section this step begins with -/
  | lock (a : CacheAct)
  /-- the holder goes on -/
  | go

namespace Locked

/-- The next statement of the section. -/
def sectionStep (c : PodCache) : SectionPc → Option Locked
  | .acquireLoad t => some ⟨c, some (.acquireTest t c.current)⟩
  | .acquireTest t none => some ⟨c, some (.acquireCount t none)⟩
  | .acquireTest t (some r) =>
    let c' := c.touchSnap r
    if c.maxAge > 0 ∧ c.nowSeconds - (c.snaps r).receivedAt > c.maxAge then
      some ⟨c', some (.acquireCount t none)⟩
    else some ⟨c', some (.acquireCount t (some r))⟩
  | .acquireCount t none => some ⟨c, some (.unlocking (.reader t))⟩
  | .acquireCount t (some r) => some ⟨(c.touchSnap r).takeRef t r, some (.unlocking (.reader t))⟩
  | .releaseDrop a thread => (c.step a).map fun c => ⟨c, some (.unlocking thread)⟩
  | .publishLoad => some ⟨c, some (.publishStore c.current)⟩
  | .publishStore previous =>
    c.refresher.bind fun th =>
      match th.pc with
      | .swapping receivedAt pods =>
        some ⟨c.store th receivedAt pods previous, some (.unlocking .refresher)⟩
      | _ => none
  | .describeLoad =>
    match c.current with
    | none => (c.described 0 0).map fun c => ⟨c, some (.unlocking .refresher)⟩
    | some r => some ⟨c.touchPods r, some (.describeAge (c.podsOf r).length)⟩
  | .describeAge count =>
    c.current.bind fun r =>
      ((c.touchSnap r).described count (c.nowSeconds - (c.snaps r).receivedAt)).map fun c =>
        ⟨c, some (.unlocking .refresher)⟩
  | .stopLoad => some ⟨c, some (.stopStore c.current)⟩
  | .stopStore previous =>
    some ⟨{ c with current := none, stopper := .release previous }, some (.unlocking .main)⟩
  | .unlocking _ => some ⟨c, none⟩

/-- What an action does, or `none` where it is not possible: a thread inside a section takes no
other step, and none takes the mutex while another has it. -/
def step (f : Locked) : LockAct → Option Locked
  | .out a =>
    if (f.cache.enters a).isNone ∧ ∀ k ∈ f.holder, a.thread ≠ some k.thread then
      (f.cache.step a).map fun c => ⟨c, f.holder⟩
    else none
  | .lock a =>
    match f.holder, f.cache.enters a with
    | none, some k => some ⟨f.cache, some k⟩
    | _, _ => none
  | .go => f.holder.bind (sectionStep f.cache)

/-- Nothing has happened, and the mutex is free. -/
def Initial (f : Locked) : Prop := f.cache.Initial ∧ f.holder = none

abbrev Reachable (f : Locked) : Prop := Lts.Reachable step Initial f

end Locked

/-! ## 2. What is counted later -/

section TakeRef

variable {c c' : PodCache} {t r : Nat}

theorem takeRef_snaps (q : Nat) :
    ((c.takeRef t r).snaps q).frees = (c.snaps q).frees ∧
      ((c.takeRef t r).snaps q).pods = (c.snaps q).pods ∧
      ((c.takeRef t r).snaps q).receivedAt = (c.snaps q).receivedAt := by
  unfold PodCache.takeRef
  dsimp only
  rw [Function.update_apply]
  split
  · rename_i hq
    rw [hq]
    exact ⟨rfl, rfl, rfl⟩
  · exact ⟨rfl, rfl, rfl⟩

theorem takeRef_snapLive (q : Nat) : (c.takeRef t r).snapLive q = c.snapLive q := by
  unfold PodCache.snapLive
  rw [(takeRef_snaps q).1]
  rfl

theorem takeRef_touchSnap (q : Nat) :
    (c.takeRef t r).touchSnap q = (c.touchSnap q).takeRef t r := by
  unfold PodCache.touchSnap
  rw [takeRef_snapLive]
  rfl

theorem takeRef_podListFree (l : Nat) :
    (c.takeRef t r).podListFree l = (c.podListFree l).takeRef t r := rfl

theorem takeRef_touchPods (q : Nat) :
    (c.takeRef t r).touchPods q = (c.touchPods q).takeRef t r := by
  unfold PodCache.touchPods
  rw [takeRef_snapLive, (takeRef_snaps q).2.1]
  rfl

/-- A snapshot is freed, and its counter or another's goes up: in either order. -/
theorem takeRef_freeSnapshot (q : Nat) :
    (c.takeRef t r).freeSnapshot q = (c.freeSnapshot q).takeRef t r := by
  unfold PodCache.freeSnapshot
  rw [takeRef_touchSnap, (takeRef_snaps q).2.1, takeRef_podListFree]
  have hsnaps : Function.update ((c.takeRef t r).snaps) q
      { (c.takeRef t r).snaps q with frees := ((c.takeRef t r).snaps q).frees + 1 } =
      Function.update (Function.update c.snaps q { c.snaps q with frees := (c.snaps q).frees + 1 }) r
        { Function.update c.snaps q { c.snaps q with frees := (c.snaps q).frees + 1 } r with
          refs := (Function.update c.snaps q
            { c.snaps q with frees := (c.snaps q).frees + 1 } r).refs + 1 } := by
    funext x
    simp only [PodCache.takeRef, Function.update_apply]
    by_cases hxq : x = q <;> by_cases hxr : x = r <;> by_cases hqr : q = r <;>
      simp_all
  exact congrArg (fun sn => { ((c.touchSnap q).podListFree (c.snaps q).pods).takeRef t r with
    snaps := sn }) hsnaps

theorem takeRef_afterFetch (th : Refresher) (pods : Option Nat) (error : Text) :
    (c.takeRef t r).afterFetch th pods error = (c.afterFetch th pods error).takeRef t r := by
  have hcl : (c.takeRef t r).closing = c.closing := rfl
  have hlists : (c.takeRef t r).lists = c.lists := rfl
  unfold PodCache.afterFetch
  cases pods with
  | none =>
    dsimp only
    rw [hcl]
    split <;> rfl
  | some l =>
    dsimp only
    rw [hcl, hlists]
    split
    · rfl
    · split <;> rfl

/-- A failure that is not logged. -/
theorem endFailure_quiet {th : Refresher} {now : Int} {expired : Bool}
    (hrep : ¬ th.reports now expired = true) (error : Text) :
    c.endFailure th error now expired =
      c.goto { th with expiryReported := expired, failures := th.failures + 1 }
        (.sleeping (c.clock + nextDelay th.refresh (th.failures + 1) * nsPerSecond)) := by
  simp only [Refresher.reports, decide_eq_true_eq, not_or] at hrep
  unfold PodCache.endFailure
  dsimp only
  rw [if_neg hrep.1, if_neg (not_or.mpr hrep.2)]

theorem takeRef_refresherStep {th : Refresher} (hth : c.refresher = some th)
    (hno : c.enters .refresher = none) (hst : c.refresherStep th = some c') :
    (c.takeRef t r).refresherStep th = some (c'.takeRef t r) := by
  unfold PodCache.refresherStep at hst ⊢
  simp only [PodCache.enters, hth] at hno
  cases hpc : th.pc with
  | check =>
    simp only [hpc] at hst ⊢
    split at hst
    · rename_i hcl
      rw [if_pos (show (c.takeRef t r).closing = true from hcl)]
      exact congrArg (Option.map (·.takeRef t r)) hst
    · rename_i hcl
      rw [if_neg (show ¬ (c.takeRef t r).closing = true from hcl)]
      exact congrArg (Option.map (·.takeRef t r)) hst
  | fetching startedAt =>
    simp only [hpc] at hst
    exact absurd hst (by simp)
  | fetched pods error =>
    simp only [hpc] at hst ⊢
    rw [← Option.some.inj hst, takeRef_afterFetch]
  | publishing l =>
    simp only [hpc] at hst
    exact absurd hst (by simp)
  | swapping receivedAt pods =>
    simp only [hpc] at hno
    exact absurd hno (by simp)
  | releasing previous =>
    cases previous with
    | none =>
      simp only [hpc] at hst ⊢
      exact congrArg (Option.map (·.takeRef t r)) hst
    | some q =>
      simp only [hpc] at hno
      exact absurd hno (by simp)
  | freeing q =>
    simp only [hpc] at hst ⊢
    rw [takeRef_freeSnapshot]
    exact congrArg (Option.map (·.takeRef t r)) hst
  | succeeded =>
    simp only [hpc] at hst ⊢
    exact congrArg (Option.map (·.takeRef t r)) hst
  | failed error =>
    simp only [hpc] at hst ⊢
    exact congrArg (Option.map (·.takeRef t r)) hst
  | judging error now =>
    simp only [hpc] at hst hno ⊢
    split at hno
    · exact absurd hno (by simp)
    · rename_i hage
      have hfresh : c.isExpired = (c, false) := if_neg hage
      have hfresh' : (c.takeRef t r).isExpired = (c.takeRef t r, false) := if_neg hage
      rw [hfresh] at hst
      rw [hfresh']
      exact congrArg (Option.map (·.takeRef t r)) hst
  | reporting error now expired =>
    simp only [hpc] at hst hno ⊢
    split at hno
    · exact absurd hno (by simp)
    · rename_i hrep
      rw [endFailure_quiet hrep] at hst ⊢
      exact congrArg (Option.map (·.takeRef t r)) hst
  | sleeping deadline =>
    simp only [hpc] at hst ⊢
    split at hst
    · rename_i hend
      rw [if_pos (show (c.takeRef t r).closing = true ∨ deadline ≤ (c.takeRef t r).clock from hend)]
      exact congrArg (Option.map (·.takeRef t r)) hst
    · exact absurd hst (by simp)
  | exited =>
    simp only [hpc] at hst
    exact absurd hst (by simp)

theorem takeRef_stopStep (hno : c.enters .stop = none) (hst : c.stopStep = some c') :
    (c.takeRef t r).stopStep = some (c'.takeRef t r) := by
  have hs : (c.takeRef t r).stopper = c.stopper := rfl
  have hrun : (c.takeRef t r).refresherRunning = c.refresherRunning := rfl
  have hth : (c.takeRef t r).refresher = c.refresher := rfl
  simp only [PodCache.enters] at hno
  unfold PodCache.stopStep PodCache.joinRefresher at hst ⊢
  rw [hs, hrun, hth]
  cases hpc : c.stopper with
  | idle =>
    simp only [hpc] at hst ⊢
    split at hst
    · rename_i hr
      rw [if_pos hr]
      split at hst
      · split at hst
        · exact congrArg (Option.map (·.takeRef t r)) hst
        · exact absurd hst (by simp)
      · exact absurd hst (by simp)
    · rename_i hr
      rw [if_neg hr]
      exact congrArg (Option.map (·.takeRef t r)) hst
  | destroy =>
    simp only [hpc] at hst ⊢
    have hdestroy : (c.takeRef t r).podListClientDestroy =
        c.podListClientDestroy.takeRef t r := by
      have hcl : (c.takeRef t r).client = c.client := rfl
      unfold PodCache.podListClientDestroy
      rw [hcl]
      split <;> rfl
    rw [hdestroy]
    exact congrArg (Option.map (·.takeRef t r)) hst
  | detach =>
    simp only [hpc] at hno
    exact absurd hno (by simp)
  | release previous =>
    cases previous with
    | none =>
      simp only [hpc] at hst ⊢
      exact congrArg (Option.map (·.takeRef t r)) hst
    | some q =>
      simp only [hpc] at hno
      exact absurd hno (by simp)
  | free q =>
    simp only [hpc] at hst ⊢
    rw [takeRef_freeSnapshot]
    exact congrArg (Option.map (·.takeRef t r)) hst

theorem takeRef_reader {u : Nat} (hne : u ≠ t) :
    (c.takeRef t r).readers[u]? = c.readers[u]? :=
  List.getElem?_modify_ne _ _ hne.symm

/-- **The rest of `pod_cache_acquire` is moved past the steps of the others.** -/
theorem takeRef_step {b : CacheAct} (ht : t < c.readers.length) (hno : c.enters b = none)
    (hb : b.thread ≠ some (.reader t)) (hst : c.step b = some c') :
    (c.takeRef t r).step b = some (c'.takeRef t r) := by
  cases b with
  | tick ns => exact congrArg (Option.map (·.takeRef t r)) hst
  | closingReset => exact congrArg (Option.map (·.takeRef t r)) hst
  | closingBegin => exact congrArg (Option.map (·.takeRef t r)) hst
  | start clientOk threadOk =>
    have hstart : ((c.takeRef t r).podCacheStart clientOk threadOk).1 =
        (c.podCacheStart clientOk threadOk).1.takeRef t r := by
      have hrun : (c.takeRef t r).refresherRunning = c.refresherRunning := rfl
      unfold PodCache.podCacheStart
      rw [hrun]
      split
      · rfl
      · cases clientOk with
        | false => rfl
        | true => cases threadOk <;> rfl
    have hstop : (c.takeRef t r).stopper = c.stopper := rfl
    simp only [PodCache.step, hstop, hstart] at hst ⊢
    split at hst
    · exact congrArg (Option.map (·.takeRef t r)) hst
    · exact absurd hst (by simp)
  | stop => exact takeRef_stopStep hno hst
  | spawnReader =>
    obtain rfl := Option.some.inj hst
    refine congrArg some ?_
    have happ := List.modify_concat (x := (⟨none, none, []⟩ : Reader))
      (fun rd => ⟨some r, rd.freeing, r :: rd.acquired⟩) ht
    exact congrArg (fun rds => { c.takeRef t r with readers := rds }) happ.symm
  | acquire u =>
    simp only [PodCache.enters] at hno
    simp only [PodCache.step, PodCache.acquireStep] at hst
    split at hst
    · rename_i acquired hrd
      rw [hrd] at hno
      exact absurd hno (by simp)
    · exact absurd hst (by simp)
  | read u =>
    have hne : u ≠ t := fun h => hb (by rw [h]; rfl)
    simp only [PodCache.step, PodCache.readStep, takeRef_reader hne] at hst ⊢
    split at hst
    · rename_i q acquired hrd
      rw [takeRef_touchPods]
      exact congrArg (Option.map (·.takeRef t r)) hst
    · exact absurd hst (by simp)
  | release u =>
    simp only [PodCache.enters] at hno
    simp only [PodCache.step, PodCache.releaseStep] at hst
    split at hst
    · rename_i q acquired hrd
      rw [hrd] at hno
      exact absurd hno (by simp)
    · exact absurd hst (by simp)
  | free u =>
    have hne : u ≠ t := fun h => hb (by rw [h]; rfl)
    simp only [PodCache.step, PodCache.freeStep, takeRef_reader hne] at hst ⊢
    split at hst
    · rename_i q acquired hrd
      rw [takeRef_freeSnapshot]
      obtain rfl := Option.some.inj hst
      have hset := List.modify_set (l := c.readers) (x := (⟨none, none, acquired⟩ : Reader))
        (fun rd => ⟨some r, rd.freeing, r :: rd.acquired⟩) hne
      exact congrArg (fun rds => some { (c.freeSnapshot q).takeRef t r with readers := rds })
        hset.symm
    · exact absurd hst (by simp)
  | refresher =>
    obtain ⟨th, hth, hst⟩ := Option.bind_eq_some_iff.mp hst
    exact Option.bind_eq_some_iff.mpr ⟨th, hth, takeRef_refresherStep hth hno hst⟩
  | fetchEnds a =>
    have hth : (c.takeRef t r).refresher = c.refresher := rfl
    simp only [PodCache.step, PodCache.fetchEnds, hth] at hst ⊢
    split at hst
    · rename_i th hth'
      split at hst
      · rename_i startedAt hpc
        split at hst
        · rename_i ips hok
          have hok' : (podListFetch (c.takeRef t r).environ.deploymentEnv a).list = .ok ips := hok
          rw [hok']
          exact congrArg (Option.map (·.takeRef t r)) hst
        · rename_i error hno'
          have hno'' : (podListFetch (c.takeRef t r).environ.deploymentEnv a).list = .error error :=
            hno'
          rw [hno'']
          exact congrArg (Option.map (·.takeRef t r)) hst
      · exact absurd hst (by simp)
    · exact absurd hst (by simp)
  | publishAlloc ok =>
    have hth : (c.takeRef t r).refresher = c.refresher := rfl
    simp only [PodCache.step, PodCache.publishAlloc, hth] at hst ⊢
    split at hst
    · split at hst
      · cases ok <;> exact congrArg (Option.map (·.takeRef t r)) hst
      · exact absurd hst (by simp)
    · exact absurd hst (by simp)

/-- The test and the count together are `pod_cache_acquire`. -/
theorem CacheInv.takeRef_acquires (h : CacheInv c)
    (hin : c.enters (.acquire t) = some (.acquireLoad t)) (hcur : c.current = some r)
    (hfresh : ¬ (c.maxAge > 0 ∧ c.nowSeconds - (c.snaps r).receivedAt > c.maxAge)) :
    c.step (.acquire t) = some (c.takeRef t r) := by
  simp only [PodCache.enters] at hin
  split at hin
  · rename_i acquired hrd
    have hacq : c.podCacheAcquire = (c.setRefs r ((c.snaps r).refs + 1), some r) := by
      unfold PodCache.podCacheAcquire
      split
      · rename_i hnone
        rw [hcur] at hnone
        exact absurd hnone (by simp)
      · rename_i q hq
        obtain rfl : r = q := Option.some.inj (hcur.symm.trans hq)
        rw [PodCache.touchSnap_of_live (h.owned (mem_owners_of_current hcur))]
        exact if_neg hfresh
    simp only [PodCache.step, PodCache.acquireStep, hrd, hacq]
    refine congrArg some ?_
    unfold PodCache.takeRef
    rw [List.modify_eq_set_of_getElem? _ hrd]
    rfl
  · exact absurd hin (by simp)

end TakeRef

/-! ## 3. What the others leave alone -/

section Others

variable {c c' : PodCache} {b : CacheAct}

theorem CacheAct.main_of_ofMain (h : b.OfMain) : b.thread = some .main := by
  cases b <;> first | rfl | exact h.elim

/-- Nothing is published and nothing detached outside a section. -/
theorem CacheInv.current_out (h : CacheInv c) (hno : c.enters b = none)
    (hst : c.step b = some c') : c'.current = c.current := by
  rcases h.step_cases hst with hq | ⟨th, receivedAt, l, rfl, hth, hpc, -⟩ | ⟨rfl, hs, -⟩
  · exact hq.current
  · simp only [PodCache.enters, hth, hpc] at hno
    exact absurd hno (by simp)
  · simp only [PodCache.enters, hs] at hno
    exact absurd hno (by simp)

/-- What a reader holds is its own. -/
theorem CacheInv.reader_out (h : CacheInv c) {t : Nat} (ht : t < c.readers.length)
    (hb : b.thread ≠ some (.reader t)) (hst : c.step b = some c') :
    c'.readers[t]? = c.readers[t]? := by
  have hreader : ∀ {u : Nat}, b.OfReader u → u ≠ t → c'.readers[t]? = c.readers[t]? := by
    intro u hu hne
    obtain ⟨-, -, -, -, rfl | ⟨rd, hrd⟩⟩ := h.reader_step hu hst
    · rfl
    · rw [hrd, List.getElem?_set_ne hne]
  have hne : ∀ {u : Nat}, b.thread = some (.reader u) → u ≠ t := by
    rintro u hu rfl
    exact hb hu
  cases b with
  | acquire u => exact hreader (u := u) rfl (hne rfl)
  | read u => exact hreader (u := u) rfl (hne rfl)
  | release u => exact hreader (u := u) rfl (hne rfl)
  | free u => exact hreader (u := u) rfl (hne rfl)
  | refresher => rw [(h.refresher_step (a := .refresher) trivial hst).2.1]
  | fetchEnds a => rw [(h.refresher_step (a := .fetchEnds a) trivial hst).2.1]
  | publishAlloc ok => rw [(h.refresher_step (a := .publishAlloc ok) trivial hst).2.1]
  | start clientOk threadOk =>
    cases h.move_of_step hst with
    | start hs hmv => rw [hmv.frame.1]
  | stop => rw [(h.stopMove hst).frame.1]
  | spawnReader =>
    obtain rfl := Option.some.inj hst
    exact List.getElem?_append_left ht
  | _ =>
    obtain rfl := Option.some.inj hst
    rfl

/-- Where the caller of `pod_cache_stop` stands is the main thread's. -/
theorem CacheInv.stopper_out (h : CacheInv c) (hb : b.thread ≠ some .main)
    (hst : c.step b = some c') : c'.stopper = c.stopper :=
  (h.thread_step (fun hm => hb (CacheAct.main_of_ofMain hm)) hst).2.2.1

/-- A refresher that has not ended is its own, and while it lives `max_age` stays. -/
theorem CacheInv.refresher_out (h : CacheInv c) {th : Refresher} (hth : c.refresher = some th)
    (hpc : th.pc ≠ .exited) (hb : b.thread ≠ some .refresher) (hst : c.step b = some c') :
    c'.refresher = c.refresher ∧ c'.maxAge = c.maxAge := by
  have hrun : c.refresherRunning ≠ false := by
    rw [h.running, hth]
    simp
  have hreader : ∀ {u : Nat}, b.OfReader u →
      c'.refresher = c.refresher ∧ c'.maxAge = c.maxAge := by
    intro u hu
    obtain ⟨-, hf, href, -⟩ := h.reader_step hu hst
    exact ⟨href, hf.maxAge⟩
  cases b with
  | acquire u => exact hreader (u := u) rfl
  | read u => exact hreader (u := u) rfl
  | release u => exact hreader (u := u) rfl
  | free u => exact hreader (u := u) rfl
  | refresher => exact absurd rfl hb
  | fetchEnds a => exact absurd rfl hb
  | publishAlloc ok => exact absurd rfl hb
  | start clientOk threadOk =>
    cases h.move_of_step hst with
    | start hs hmv =>
      cases hmv with
      | running hr => exact ⟨rfl, rfl⟩
      | noClient hr => exact absurd hr hrun
      | noThread hr => exact absurd hr hrun
      | started hr => exact absurd hr hrun
  | stop =>
    cases h.stopMove hst with
    | join hs hr hth' hexit =>
      rw [hth] at hth'
      exact absurd (Option.some.inj hth' ▸ hexit) hpc
    | noRefresher hs hr => exact absurd hr hrun
    | _ => exact ⟨rfl, rfl⟩
  | _ =>
    obtain rfl := Option.some.inj hst
    exact ⟨rfl, rfl⟩

/-- **The five sections**, by the step that begins them. -/
theorem enters_cases {a : CacheAct} {k : SectionPc} (hin : c.enters a = some k) :
    (∃ t, a = .acquire t ∧ k = .acquireLoad t) ∨
    (∃ thread, a.thread = some thread ∧ k = .releaseDrop a thread) ∨
    (a = .stop ∧ c.stopper = .detach ∧ k = .stopLoad) ∨
    (a = .refresher ∧ (∃ th receivedAt pods, c.refresher = some th ∧
      th.pc = .swapping receivedAt pods) ∧ k = .publishLoad) ∨
    (a = .refresher ∧ k = .describeLoad) := by
  unfold PodCache.enters at hin
  cases a with
  | acquire t =>
    dsimp only at hin
    split at hin
    · exact Or.inl ⟨t, rfl, (Option.some.inj hin).symm⟩
    · exact absurd hin (by simp)
  | release t =>
    dsimp only at hin
    split at hin
    · exact Or.inr (Or.inl ⟨.reader t, rfl, (Option.some.inj hin).symm⟩)
    · exact absurd hin (by simp)
  | stop =>
    dsimp only at hin
    split at hin
    · rename_i hs
      exact Or.inr (Or.inr (Or.inl ⟨rfl, hs, (Option.some.inj hin).symm⟩))
    · exact Or.inr (Or.inl ⟨.main, rfl, (Option.some.inj hin).symm⟩)
    · exact absurd hin (by simp)
  | refresher =>
    have hdescribe : ∀ {p : Prop} [Decidable p],
        (if p then some SectionPc.describeLoad else none) = some k → k = .describeLoad := by
      intro p _ hif
      split at hif
      · exact (Option.some.inj hif).symm
      · exact absurd hif (by simp)
    dsimp only at hin
    split at hin
    · exact absurd hin (by simp)
    · rename_i th hth
      split at hin
      · rename_i receivedAt pods hpc
        exact Or.inr (Or.inr (Or.inr (Or.inl ⟨rfl, ⟨th, receivedAt, pods, hth, hpc⟩,
          (Option.some.inj hin).symm⟩)))
      · exact Or.inr (Or.inl ⟨.refresher, rfl, (Option.some.inj hin).symm⟩)
      · exact Or.inr (Or.inr (Or.inr (Or.inr ⟨rfl, hdescribe hin⟩)))
      · exact Or.inr (Or.inr (Or.inr (Or.inr ⟨rfl, hdescribe hin⟩)))
      · exact absurd hin (by simp)
  | _ => exact absurd hin (by simp)

/-- Whoever begins a section by `a`. -/
theorem enters_thread {a : CacheAct} {k : SectionPc} (hin : c.enters a = some k) :
    a.thread = some k.thread := by
  rcases enters_cases hin with ⟨t, rfl, rfl⟩ | ⟨thread, ha, rfl⟩ | ⟨rfl, -, rfl⟩ |
    ⟨rfl, -, rfl⟩ | ⟨rfl, rfl⟩
  · rfl
  · exact ha
  · rfl
  · rfl
  · rfl

/-- **A section that a thread is about to begin stays so while others move.** -/
theorem CacheInv.enters_out (h : CacheInv c) {a : CacheAct} {k : SectionPc}
    (hin : c.enters a = some k) (hb : b.thread ≠ a.thread) (hst : c.step b = some c') :
    c'.enters a = some k := by
  have hrefresh : ∀ {th : Refresher}, c.refresher = some th → th.pc ≠ .exited →
      a = .refresher → c'.enters a = some k := by
    rintro th hth hpc rfl
    obtain ⟨href, hage⟩ := h.refresher_out hth hpc hb hst
    simp only [PodCache.enters, href, hage] at hin ⊢
    exact hin
  have hreader : ∀ {t : Nat} {rd : Reader}, c.readers[t]? = some rd →
      a.thread = some (.reader t) → c'.readers[t]? = c.readers[t]? := by
    intro t rd hrd ha
    exact h.reader_out (List.getElem?_eq_some_iff.mp hrd).1 (ha ▸ hb) hst
  cases a with
  | acquire t =>
    have hin' := hin
    simp only [PodCache.enters] at hin'
    split at hin'
    · rename_i acquired hrd
      simp only [PodCache.enters, hreader hrd rfl]
      exact hin
    · exact absurd hin' (by simp)
  | release t =>
    have hin' := hin
    simp only [PodCache.enters] at hin'
    split at hin'
    · rename_i q acquired hrd
      simp only [PodCache.enters, hreader hrd rfl]
      exact hin
    · exact absurd hin' (by simp)
  | stop =>
    simp only [PodCache.enters, h.stopper_out hb hst] at hin ⊢
    exact hin
  | refresher =>
    have hin' := hin
    simp only [PodCache.enters] at hin'
    split at hin'
    · exact absurd hin' (by simp)
    · rename_i th hth
      refine hrefresh hth (fun hpc => ?_) rfl
      simp [hpc] at hin'
  | _ => exact absurd hin (by simp [PodCache.enters])

end Others

end Unicaster
