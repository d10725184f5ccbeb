/-
# Twin caches

Two processes run the same code, and one of them has more behind it: snapshots, lists and threads
of earlier loads, another time on its clock, a longer log.  `Offset` says by how much, and `Twin`
that the two caches are the same but for that.  A cache and its twin can take the same steps and
stay twins (`Twin.step`), so nothing the cache does depends on how its cells and threads are
numbered, on what `CLOCK_MONOTONIC` started from, or on what is left of earlier loads.

There is one lemma for each function of `pod_cache.c`, in the order of `PodCache`.
-/
import Unicaster.CacheSteps

namespace Unicaster

open CLib

/-! ## 1. Twins -/

/-- What the second process has behind it: so many snapshots, lists and threads, so many seconds
more on its clock, and this log; and whether the two log the same datagrams. -/
structure Offset where
  snap : Nat
  list : Nat
  thread : Nat
  seconds : Int
  log : List LogEntry
  sameLevel : Bool

namespace Offset

variable (ρ : Offset)

def ns : Int := ρ.seconds * nsPerSecond

/-- The snapshot, as the second process numbers it. -/
def reSnap (r : Option Nat) : Option Nat := r.map (ρ.snap + ·)

def reList (l : Option Nat) : Option Nat := l.map (ρ.list + ·)

def snapshot (x : PodSnapshot) : PodSnapshot :=
  { x with receivedAt := x.receivedAt + ρ.seconds, pods := ρ.list + x.pods }

def reader (rd : Reader) : Reader where
  held := ρ.reSnap rd.held
  freeing := ρ.reSnap rd.freeing
  acquired := rd.acquired.map (ρ.snap + ·)

def stopPc : StopPc → StopPc
  | .idle => .idle
  | .destroy => .destroy
  | .detach => .detach
  | .release previous => .release (ρ.reSnap previous)
  | .free r => .free (ρ.snap + r)

def refresherPc : RefresherPc → RefresherPc
  | .check => .check
  | .fetching startedAt => .fetching (startedAt + ρ.ns)
  | .fetched pods error => .fetched (ρ.reList pods) error
  | .publishing l => .publishing (ρ.list + l)
  | .swapping receivedAt l => .swapping (receivedAt + ρ.seconds) (ρ.list + l)
  | .releasing previous => .releasing (ρ.reSnap previous)
  | .freeing r => .freeing (ρ.snap + r)
  | .succeeded => .succeeded
  | .failed error => .failed error
  | .judging error now => .judging error (now + ρ.seconds)
  | .reporting error now expired => .reporting error (now + ρ.seconds) expired
  | .sleeping deadline => .sleeping (deadline + ρ.ns)
  | .exited => .exited

end Offset

/-- The refresher of a twin.  `failing_since` and `last_reminder` are of a streak of failures;
where there is none they are not read. -/
structure TwinRefresher (ρ : Offset) (th th' : Refresher) : Prop where
  pc : th'.pc = ρ.refresherPc th.pc
  refresh : th'.refresh = th.refresh
  failures : th'.failures = th.failures
  lastCount : th'.lastCount = th.lastCount
  expiryReported : th'.expiryReported = th.expiryReported
  count : th'.count = th.count
  streak : th.failures ≠ 0 →
    th'.failingSince = th.failingSince + ρ.seconds ∧ th'.lastReminder = th.lastReminder + ρ.seconds

/-- The cache `c'` is the twin of `c`.  A `max_age` is read only while there is a refresher or a
list; before, it may be that of an earlier load. -/
structure Twin (ρ : Offset) (c c' : PodCache) : Prop where
  environ : c'.environ = c.environ
  clock : c'.clock = c.clock + ρ.ns
  closing : c'.closing = c.closing
  current : c'.current = ρ.reSnap c.current
  maxAge : c.refresherRunning = true ∨ c.current ≠ none → c'.maxAge = c.maxAge
  running : c'.refresherRunning = c.refresherRunning
  refresher : Option.Rel (TwinRefresher ρ) c.refresher c'.refresher
  stopper : c'.stopper = ρ.stopPc c.stopper
  threads : c'.readers.length = ρ.thread + c.readers.length
  readers : ∀ t, c'.readers[ρ.thread + t]? = c.readers[t]?.map ρ.reader
  nextSnap : c'.nextSnap = ρ.snap + c.nextSnap
  snaps : ∀ r < c.nextSnap, c'.snaps (ρ.snap + r) = ρ.snapshot (c.snaps r)
  nextList : c'.nextList = ρ.list + c.nextList
  lists : ∀ l < c.nextList, c'.lists (ρ.list + l) = c.lists l
  log : c'.log = ρ.log ++ c.log

/-- The actions of the second process that correspond to those of the first. -/
def Offset.cacheAct (ρ : Offset) : CacheAct → CacheAct
  | .acquire t => .acquire (ρ.thread + t)
  | .read t => .read (ρ.thread + t)
  | .release t => .release (ρ.thread + t)
  | .free t => .free (ρ.thread + t)
  | a => a

section Twins

variable {ρ : Offset} {c c' : PodCache} {th th' : Refresher}

/-! ## 2. What a twin keeps and what it changes -/

/-- `fault` is for the proofs, and it is low in both. -/
theorem Twin.faults (h : Twin ρ c c') (x x' : Bool) :
    Twin ρ { c with fault := x } { c' with fault := x' } :=
  { h with }

theorem Twin.toRefresher (h : Twin ρ c c') (hth : TwinRefresher ρ th th') :
    Twin ρ { c with refresher := some th } { c' with refresher := some th' } :=
  { h with refresher := Option.Rel.some hth }

/-- A step of reader `t`. -/
theorem Twin.toReader (h : Twin ρ c c') (t : Nat) (rd : Reader) :
    Twin ρ { c with readers := c.readers.set t rd }
      { c' with readers := c'.readers.set (ρ.thread + t) (ρ.reader rd) } := by
  refine { h with threads := ?_, readers := ?_ }
  · simp only [List.length_set]
    exact h.threads
  · intro u
    simp only [List.getElem?_set, h.readers u, h.threads, Nat.add_left_cancel_iff,
      Nat.add_lt_add_iff_left]
    split
    · split <;> rfl
    · rfl

/-- A snapshot is written. -/
theorem Twin.toSnap (h : Twin ρ c c') (r : Nat) (x : PodSnapshot) :
    Twin ρ { c with snaps := Function.update c.snaps r x }
      { c' with snaps := Function.update c'.snaps (ρ.snap + r) (ρ.snapshot x) } := by
  refine { h with snaps := ?_ }
  intro q hq
  by_cases hqr : q = r
  · subst hqr
    simp only [Function.update_self]
  · simp only [Function.update_of_ne hqr, ne_eq, Nat.add_left_cancel_iff, hqr, not_false_eq_true,
      Function.update_of_ne]
    exact h.snaps q hq

/-- A snapshot changes in what is not renumbered. -/
theorem Twin.onSnap (h : Twin ρ c c') {r : Nat} (hr : r < c.nextSnap)
    (f : PodSnapshot → PodSnapshot) (hf : ∀ x, ρ.snapshot (f x) = f (ρ.snapshot x)) :
    Twin ρ { c with snaps := Function.update c.snaps r (f (c.snaps r)) }
      { c' with snaps := Function.update c'.snaps (ρ.snap + r) (f (c'.snaps (ρ.snap + r))) } := by
  have hsnap := h.toSnap r (f (c.snaps r))
  rwa [hf, ← h.snaps r hr] at hsnap

theorem Twin.toList (h : Twin ρ c c') (l : Nat) (x : PodListCell) :
    Twin ρ { c with lists := Function.update c.lists l x }
      { c' with lists := Function.update c'.lists (ρ.list + l) x } := by
  refine { h with lists := ?_ }
  intro q hq
  by_cases hql : q = l
  · subst hql
    simp only [Function.update_self]
  · simp only [Function.update_of_ne hql, ne_eq, Nat.add_left_cancel_iff, hql, not_false_eq_true,
      Function.update_of_ne]
    exact h.lists q hq

theorem Twin.toLog (h : Twin ρ c c') (log : List LogEntry) :
    Twin ρ { c with log := c.log ++ log } { c' with log := c'.log ++ log } := by
  refine { h with log := ?_ }
  simp only [h.log, List.append_assoc]

/-! ## 3. The functions -/

/-- Whole seconds go through the truncation. -/
theorem Twin.nowSeconds (h : Twin ρ c c') : c'.nowSeconds = c.nowSeconds + ρ.seconds := by
  have hpos : nsPerSecond ≠ 0 := by decide
  unfold PodCache.nowSeconds
  rw [h.clock, Offset.ns, Int.add_mul_ediv_right _ _ hpos]

theorem Twin.podsOf (h : Twin ρ c c') (hi : CacheInv c) {r : Nat} (hr : r < c.nextSnap) :
    c'.podsOf (ρ.snap + r) = c.podsOf r := by
  unfold PodCache.podsOf
  rw [h.snaps r hr]
  change (c'.lists (ρ.list + (c.snaps r).pods)).ips = _
  rw [h.lists _ (hi.podsLt r hr)]

theorem Twin.podListFree (h : Twin ρ c c') {l : Nat} (hl : l < c.nextList) :
    Twin ρ (c.podListFree l) (c'.podListFree (ρ.list + l)) := by
  unfold PodCache.podListFree
  rw [h.lists l hl]
  exact (h.toList l _).faults _ _

theorem Twin.freeSnapshot (h : Twin ρ c c') (hi : CacheInv c) {r : Nat} (hr : r < c.nextSnap) :
    Twin ρ (c.freeSnapshot r) (c'.freeSnapshot (ρ.snap + r)) := by
  have hpods : (c'.snaps (ρ.snap + r)).pods = ρ.list + (c.snaps r).pods := by
    rw [h.snaps r hr]
    rfl
  have hlist := (h.faults (c.fault || !c.snapLive r)
    (c'.fault || !c'.snapLive (ρ.snap + r))).podListFree (hi.podsLt r hr)
  rw [← hpods] at hlist
  exact hlist.onSnap hr (fun x => { x with frees := x.frees + 1 }) fun _ => rfl

theorem Twin.dropRef (h : Twin ρ c c') {r : Nat} (hr : r < c.nextSnap) :
    Twin ρ (c.dropRef r).1 (c'.dropRef (ρ.snap + r)).1 ∧
      (c'.dropRef (ρ.snap + r)).2 = (c.dropRef r).2 := by
  have htouch := h.faults (c.fault || !c.snapLive r) (c'.fault || !c'.snapLive (ρ.snap + r))
  refine ⟨htouch.onSnap hr (fun x => { x with refs := x.refs - 1 }) fun _ => rfl, ?_⟩
  change (c'.snaps (ρ.snap + r)).refs - 1 = (c.snaps r).refs - 1
  rw [h.snaps r hr]
  rfl

/-- The age of the current list. -/
theorem Twin.age (h : Twin ρ c c') {r : Nat} (hr : r < c.nextSnap) :
    c'.nowSeconds - (c'.snaps (ρ.snap + r)).receivedAt =
      c.nowSeconds - (c.snaps r).receivedAt := by
  rw [h.nowSeconds, h.snaps r hr]
  change c.nowSeconds + ρ.seconds - ((c.snaps r).receivedAt + ρ.seconds) = _
  omega

theorem CacheInv.current_lt (hi : CacheInv c) {r : Nat} (hcur : c.current = some r) :
    r < c.nextSnap :=
  (hi.owned (mem_owners_of_current hcur)).1

theorem Twin.podCacheAcquire (h : Twin ρ c c') (hi : CacheInv c) :
    Twin ρ c.podCacheAcquire.1 c'.podCacheAcquire.1 ∧
      c'.podCacheAcquire.2 = ρ.reSnap c.podCacheAcquire.2 := by
  unfold PodCache.podCacheAcquire
  have hcur := h.current
  cases hc : c.current with
  | none =>
    rw [hc] at hcur
    rw [hcur]
    exact ⟨h, rfl⟩
  | some r =>
    have hr := hi.current_lt hc
    have hmax := h.maxAge (Or.inr (by simp [hc]))
    have hage := h.age hr
    have htouch := h.faults (c.fault || !c.snapLive r) (c'.fault || !c'.snapLive (ρ.snap + r))
    rw [hc] at hcur
    rw [hcur]
    simp only [Offset.reSnap, Option.map_some]
    have hiff : (c'.touchSnap (ρ.snap + r)).maxAge > 0 ∧
        (c'.touchSnap (ρ.snap + r)).nowSeconds -
          ((c'.touchSnap (ρ.snap + r)).snaps (ρ.snap + r)).receivedAt >
            (c'.touchSnap (ρ.snap + r)).maxAge ↔
        (c.touchSnap r).maxAge > 0 ∧ (c.touchSnap r).nowSeconds -
          ((c.touchSnap r).snaps r).receivedAt > (c.touchSnap r).maxAge := by
      change c'.maxAge > 0 ∧ c'.nowSeconds - (c'.snaps (ρ.snap + r)).receivedAt > c'.maxAge ↔
        c.maxAge > 0 ∧ c.nowSeconds - (c.snaps r).receivedAt > c.maxAge
      rw [hmax, hage]
    by_cases hold : (c.touchSnap r).maxAge > 0 ∧ (c.touchSnap r).nowSeconds -
        ((c.touchSnap r).snaps r).receivedAt > (c.touchSnap r).maxAge
    · rw [if_pos hold, if_pos (hiff.mpr hold)]
      exact ⟨htouch, rfl⟩
    · rw [if_neg hold, if_neg fun hn => hold (hiff.mp hn)]
      exact ⟨htouch.onSnap hr (fun x => { x with refs := x.refs + 1 }) fun _ => rfl, rfl⟩

theorem Twin.describeCurrent (h : Twin ρ c c') (hi : CacheInv c) :
    Twin ρ c.describeCurrent.1 c'.describeCurrent.1 ∧
      c'.describeCurrent.2.1 = c.describeCurrent.2.1 ∧
      c'.describeCurrent.2.2 = c.describeCurrent.2.2 := by
  unfold PodCache.describeCurrent
  have hcur := h.current
  cases hc : c.current with
  | none =>
    rw [hc] at hcur
    rw [hcur]
    exact ⟨h, rfl, rfl⟩
  | some r =>
    have hr := hi.current_lt hc
    rw [hc] at hcur
    rw [hcur]
    refine ⟨h.faults _ _, ?_, h.age hr⟩
    exact congrArg (fun ips : List Text => (ips.length : Int)) (h.podsOf hi hr)

theorem Twin.isExpired (h : Twin ρ c c') (hi : CacheInv c) (hrun : c.refresherRunning = true) :
    Twin ρ c.isExpired.1 c'.isExpired.1 ∧ c'.isExpired.2 = c.isExpired.2 := by
  obtain ⟨hd, hcount, hage⟩ := h.describeCurrent hi
  have hmax := h.maxAge (Or.inl hrun)
  have hfst := hi.describeCurrent_fst
  unfold PodCache.isExpired
  rw [hmax]
  split
  · refine ⟨hd, ?_⟩
    have hmax' := hd.maxAge (Or.inl (by rw [hfst]; exact hrun))
    dsimp only
    rw [hcount, hage, hmax']
  · exact ⟨h, rfl⟩

theorem Twin.logFailure (h : Twin ρ c c') (hi : CacheInv c) (hrun : c.refresherRunning = true)
    (reason : Text) (failingFor : Int) :
    Twin ρ (c.logFailure reason failingFor) (c'.logFailure reason failingFor) := by
  obtain ⟨hd, hcount, hage⟩ := h.describeCurrent hi
  have hmax := hd.maxAge (Or.inl (by rw [hi.describeCurrent_fst]; exact hrun))
  unfold PodCache.logFailure
  dsimp only
  rw [hcount, hage, hmax]
  exact { hd.toLog _ with maxAge := fun _ => rfl }

/-! ## 4. The refresher -/

theorem TwinRefresher.counted (h : TwinRefresher ρ th th') (count : Int) :
    TwinRefresher ρ { th with count := count } { th' with count := count } :=
  { h with count := rfl }

theorem Twin.goto (h : Twin ρ c c') (hth : TwinRefresher ρ th th') (pc : RefresherPc) :
    Twin ρ (c.goto th pc) (c'.goto th' (ρ.refresherPc pc)) :=
  h.toRefresher { hth with pc := rfl }

theorem Twin.logSuccess (h : Twin ρ c c') (hth : TwinRefresher ρ th th') :
    c'.logSuccess th' = c.logSuccess th := by
  unfold PodCache.logSuccess
  rw [hth.failures, hth.count, hth.lastCount, h.nowSeconds]
  by_cases hf : th.failures = 0
  · rw [if_neg (not_not.mpr hf), if_neg (not_not.mpr hf)]
  · rw [if_pos hf, if_pos hf, (hth.streak hf).1]
    have hsub : c.nowSeconds + ρ.seconds - (th.failingSince + ρ.seconds) =
        c.nowSeconds - th.failingSince := by omega
    rw [hsub]

theorem Twin.endSuccess (h : Twin ρ c c') (hth : TwinRefresher ρ th th') :
    Twin ρ (c.endSuccess th) (c'.endSuccess th') := by
  unfold PodCache.endSuccess
  rw [h.logSuccess hth]
  refine (h.toLog _).toRefresher ?_
  refine ⟨?_, hth.refresh, rfl, hth.count, rfl, hth.count, fun hf => absurd rfl hf⟩
  rw [hth.refresh, h.clock]
  exact congrArg RefresherPc.sleeping (Int.add_right_comm _ _ _)

theorem Twin.endFailure (h : Twin ρ c c') (hi : CacheInv c) (hrun : c.refresherRunning = true)
    (hth : TwinRefresher ρ th th') (error : Text) (now : Int) (expired : Bool) :
    Twin ρ (c.endFailure th error now expired)
      (c'.endFailure th' error (now + ρ.seconds) expired) := by
  have hpc : RefresherPc.sleeping
        (c'.clock + nextDelay th'.refresh (th'.failures + 1) * nsPerSecond) =
      ρ.refresherPc
        (.sleeping (c.clock + nextDelay th.refresh (th.failures + 1) * nsPerSecond)) := by
    rw [hth.refresh, hth.failures, h.clock]
    exact congrArg RefresherPc.sleeping (Int.add_right_comm _ _ _)
  have hfail : th'.failures + 1 = th.failures + 1 := by rw [hth.failures]
  unfold PodCache.endFailure
  dsimp only
  rw [hpc, hth.failures, hth.expiryReported]
  by_cases hf : th.failures = 0
  · -- the first failure of a streak
    rw [if_pos hf, if_pos hf]
    refine (h.logFailure hi hrun error 0).goto ?_ _
    exact ⟨hth.pc, hth.refresh, rfl, hth.lastCount, rfl, hth.count, fun _ => ⟨rfl, rfl⟩⟩
  · obtain ⟨hsince, hlast⟩ := hth.streak hf
    rw [if_neg hf, if_neg hf, hlast, hsince]
    have hremind : now + ρ.seconds - (th.lastReminder + ρ.seconds) = now - th.lastReminder := by
      omega
    have hfor : now + ρ.seconds - (th.failingSince + ρ.seconds) = now - th.failingSince := by
      omega
    rw [hremind, hfor]
    split
    · refine (h.logFailure hi hrun error _).goto ?_ _
      exact ⟨hth.pc, hth.refresh, rfl, hth.lastCount, rfl, hth.count, fun _ => ⟨rfl, rfl⟩⟩
    · refine h.goto ?_ _
      exact ⟨hth.pc, hth.refresh, rfl, hth.lastCount, rfl, hth.count, fun _ => ⟨rfl, rfl⟩⟩

theorem Twin.afterFetch (h : Twin ρ c c') (hth : TwinRefresher ρ th th') {pods : Option Nat}
    (hpods : ∀ l, pods = some l → l < c.nextList) (error : Text) :
    Twin ρ (c.afterFetch th pods error) (c'.afterFetch th' (ρ.reList pods) error) := by
  unfold PodCache.afterFetch
  cases pods with
  | none =>
    dsimp only [Offset.reList, Option.map_none]
    rw [h.closing]
    split
    · exact h.goto hth .exited
    · exact h.goto (hth.counted _) (.failed error)
  | some l =>
    have hl := hpods l rfl
    dsimp only [Offset.reList, Option.map_some]
    rw [h.closing, h.lists l hl]
    split
    · exact (h.podListFree hl).goto hth .exited
    · split
      · exact (h.podListFree hl).goto (hth.counted _) (.failed _)
      · exact h.goto (hth.counted _) (.publishing l)

theorem Twin.swap (h : Twin ρ c c') (hrun : c.refresherRunning = true)
    (hth : TwinRefresher ρ th th') (receivedAt : Int) (l : Nat) :
    Twin ρ (c.swap th receivedAt l) (c'.swap th' (receivedAt + ρ.seconds) (ρ.list + l)) := by
  have hsnap := h.toSnap c.nextSnap ⟨1, receivedAt, l, 0⟩
  unfold PodCache.swap
  rw [h.nextSnap]
  refine { hsnap with current := rfl, maxAge := ?_, refresher := ?_, nextSnap := ?_, snaps := ?_ }
  · exact fun _ => h.maxAge (Or.inl hrun)
  · exact Option.Rel.some { hth with pc := congrArg RefresherPc.releasing h.current }
  · exact Nat.add_assoc _ _ _
  · intro r hr
    rcases Nat.lt_succ_iff_lt_or_eq.mp hr with hlt | rfl
    · exact hsnap.snaps r hlt
    · simp only [Function.update_self]
      rfl

theorem CacheInv.refresher_running (hi : CacheInv c) (hth : c.refresher = some th) :
    c.refresherRunning = true := by
  rw [hi.running, hth]
  rfl

/-- A step that gives up a reference, and goes on according to what is left of it. -/
theorem Twin.dropThen (h : Twin ρ c c') {r : Nat} (hr : r < c.nextSnap)
    {f g f' g' : PodCache → PodCache} (hf : ∀ d d', Twin ρ d d' → Twin ρ (f d) (f' d'))
    (hg : ∀ d d', Twin ρ d d' → Twin ρ (g d) (g' d')) :
    Option.Rel (Twin ρ)
      (if (c.dropRef r).2 = 0 then some (f (c.dropRef r).1) else some (g (c.dropRef r).1))
      (if (c'.dropRef (ρ.snap + r)).2 = 0 then some (f' (c'.dropRef (ρ.snap + r)).1)
        else some (g' (c'.dropRef (ρ.snap + r)).1)) := by
  obtain ⟨hdrop, hrefs⟩ := h.dropRef hr
  rw [hrefs]
  split
  · exact Option.Rel.some (hf _ _ hdrop)
  · exact Option.Rel.some (hg _ _ hdrop)

/-- **The refreshers of twins go on together.** -/
theorem Twin.refresherStep (h : Twin ρ c c') (hi : CacheInv c) (hth : c.refresher = some th)
    (htw : TwinRefresher ρ th th') :
    Option.Rel (Twin ρ) (c.refresherStep th) (c'.refresherStep th') := by
  have hrun := hi.refresher_running hth
  have hpc' := htw.pc
  unfold PodCache.refresherStep
  cases hpc : th.pc with
  | check =>
    simp only [hpc', hpc, Offset.refresherPc, h.closing, h.clock]
    split
    · exact Option.Rel.some (h.goto htw .exited)
    · exact Option.Rel.some (h.toRefresher { htw with pc := rfl })
  | fetching startedAt =>
    simp only [hpc', hpc, Offset.refresherPc]
    exact Option.Rel.none
  | fetched pods error =>
    simp only [hpc', hpc, Offset.refresherPc]
    refine Option.Rel.some (h.afterFetch htw (fun l hl => ?_) error)
    exact (hi.carried_live hth (by rw [hpc]; exact hl)).1
  | publishing l =>
    simp only [hpc', hpc, Offset.refresherPc]
    exact Option.Rel.none
  | swapping receivedAt l =>
    simp only [hpc', hpc, Offset.refresherPc]
    exact Option.Rel.some (h.swap hrun htw receivedAt l)
  | releasing previous =>
    cases previous with
    | none =>
      simp only [hpc', hpc, Offset.refresherPc, Offset.reSnap, Option.map_none]
      exact Option.Rel.some (h.goto htw .succeeded)
    | some r =>
      simp only [hpc', hpc, Offset.refresherPc, Offset.reSnap, Option.map_some]
      exact h.dropThen (hi.owned (mem_owners_of_refresher hth hpc)).1
        (fun d d' hd => hd.goto htw (.freeing r)) (fun d d' hd => hd.goto htw .succeeded)
  | freeing r =>
    simp only [hpc', hpc, Offset.refresherPc]
    have hfree := h.freeSnapshot hi (hi.dies (mem_dying_of_refresher hth hpc)).1
    exact Option.Rel.some (hfree.goto htw .succeeded)
  | succeeded =>
    simp only [hpc', hpc, Offset.refresherPc]
    exact Option.Rel.some (h.endSuccess htw)
  | failed error =>
    simp only [hpc', hpc, Offset.refresherPc, h.nowSeconds]
    exact Option.Rel.some (h.goto htw (.judging error c.nowSeconds))
  | judging error now =>
    obtain ⟨hex, hval⟩ := h.isExpired hi hrun
    simp only [hpc', hpc, Offset.refresherPc, hval]
    exact Option.Rel.some (hex.goto htw (.reporting error now c.isExpired.2))
  | reporting error now expired =>
    simp only [hpc', hpc, Offset.refresherPc]
    exact Option.Rel.some (h.endFailure hi hrun htw error now expired)
  | sleeping deadline =>
    simp only [hpc', hpc, Offset.refresherPc, h.closing, h.clock, Int.add_le_add_iff_right]
    split
    · exact Option.Rel.some (h.goto htw .check)
    · exact Option.Rel.none
  | exited =>
    simp only [hpc', hpc, Offset.refresherPc]
    exact Option.Rel.none

theorem Twin.fetchEnds (h : Twin ρ c c') (a : Answer) :
    Option.Rel (Twin ρ) (c.fetchEnds a) (c'.fetchEnds a) := by
  unfold PodCache.fetchEnds
  have hrel := h.refresher
  have hlist : (podListFetch c'.environ.deploymentEnv a).list =
      (podListFetch c.environ.deploymentEnv a).list := by rw [h.environ]
  generalize hx : c.refresher = x, hx' : c'.refresher = x' at hrel
  cases hrel with
  | none => exact Option.Rel.none
  | @some th th' htw =>
    dsimp only
    have hpc' := htw.pc
    cases hpc : th.pc with
    | fetching startedAt =>
      simp only [hpc', hpc, Offset.refresherPc]
      have hc := h.faults (c.fault || c.client.isNone) (c'.fault || c'.client.isNone)
      have ht : TwinRefresher ρ { th with answer := some a } { th' with answer := some a } :=
        { htw with }
      rw [hlist]
      cases (podListFetch c.environ.deploymentEnv a).list with
      | ok ips =>
        refine Option.Rel.some ?_
        have hl := hc.toList c.nextList ⟨ips, 0⟩
        rw [h.nextList]
        have hnew : Twin ρ
            { c with
              fault := c.fault || c.client.isNone
              lists := Function.update c.lists c.nextList ⟨ips, 0⟩
              nextList := c.nextList + 1 }
            { c' with
              fault := c'.fault || c'.client.isNone
              lists := Function.update c'.lists (ρ.list + c.nextList) ⟨ips, 0⟩
              nextList := ρ.list + c.nextList + 1 } := by
          refine { hl with nextList := Nat.add_assoc _ _ _, lists := ?_ }
          intro l hlt
          rcases Nat.lt_succ_iff_lt_or_eq.mp hlt with hlt | rfl
          · exact hl.lists l hlt
          · simp only [Function.update_self]
        exact hnew.goto ht (.fetched (some c.nextList) [])
      | error error => exact Option.Rel.some (hc.goto ht (.fetched none error))
    | _ =>
      simp only [hpc', hpc, Offset.refresherPc]
      exact Option.Rel.none

theorem Twin.publishAlloc (h : Twin ρ c c') (hi : CacheInv c) (ok : Bool) :
    Option.Rel (Twin ρ) (c.publishAlloc ok) (c'.publishAlloc ok) := by
  unfold PodCache.publishAlloc
  have hrel := h.refresher
  generalize hx : c.refresher = x, hx' : c'.refresher = x' at hrel
  cases hrel with
  | none => exact Option.Rel.none
  | @some th th' htw =>
    dsimp only
    have hpc' := htw.pc
    cases hpc : th.pc with
    | publishing l =>
      simp only [hpc', hpc, Offset.refresherPc, h.nowSeconds]
      split
      · exact Option.Rel.some (h.goto htw (.swapping c.nowSeconds l))
      · have hl : l < c.nextList := (hi.carried_live hx (by rw [hpc]; rfl)).1
        exact Option.Rel.some ((h.podListFree hl).goto htw (.failed _))
    | _ =>
      simp only [hpc', hpc, Offset.refresherPc]
      exact Option.Rel.none

/-! ## 5. Starting and stopping -/

theorem Twin.podCacheStart (h : Twin ρ c c') (clientOk threadOk : Bool) :
    Twin ρ (c.podCacheStart clientOk threadOk).1 (c'.podCacheStart clientOk threadOk).1 ∧
      (c'.podCacheStart clientOk threadOk).2 = (c.podCacheStart clientOk threadOk).2 := by
  have hmax : c'.environ.getPodsMaxAge = c.environ.getPodsMaxAge := by rw [h.environ]
  unfold PodCache.podCacheStart
  rw [h.running]
  split
  · exact ⟨h, rfl⟩
  · split
    · split
      · refine ⟨?_, rfl⟩
        have hnew : TwinRefresher ρ (Refresher.create c.environ) (Refresher.create c'.environ) := by
          rw [h.environ]
          exact ⟨rfl, rfl, rfl, rfl, rfl, rfl, fun hf => absurd rfl hf⟩
        exact { h with maxAge := fun _ => hmax, running := rfl, refresher := Option.Rel.some hnew }
      · exact ⟨{ h with maxAge := fun _ => hmax, running := rfl }, rfl⟩
    · exact ⟨{ h with maxAge := fun _ => hmax, running := rfl }, rfl⟩

theorem Twin.podListClientDestroy (h : Twin ρ c c') :
    Twin ρ c.podListClientDestroy c'.podListClientDestroy := by
  unfold PodCache.podListClientDestroy
  cases c.client <;> cases c'.client <;> exact { h with }

theorem Twin.toStopper (h : Twin ρ c c') (pc : StopPc) :
    Twin ρ { c with stopper := pc } { c' with stopper := ρ.stopPc pc } :=
  { h with stopper := rfl }

theorem Twin.joinRefresher (h : Twin ρ c c') :
    Option.Rel (Twin ρ) c.joinRefresher c'.joinRefresher := by
  unfold PodCache.joinRefresher
  have hrel := h.refresher
  generalize hx : c.refresher = x, hx' : c'.refresher = x' at hrel
  cases hrel with
  | none => exact Option.Rel.none
  | @some th th' htw =>
    dsimp only
    have hpc' := htw.pc
    cases hpc : th.pc with
    | exited =>
      simp only [hpc', hpc, Offset.refresherPc]
      refine Option.Rel.some { h with maxAge := ?_, running := rfl, refresher := Option.Rel.none }
      rintro (hrun | hcur)
      · exact absurd hrun (by simp)
      · exact h.maxAge (Or.inr hcur)
    | _ =>
      simp only [hpc', hpc, Offset.refresherPc]
      exact Option.Rel.none

/-- **The callers of `pod_cache_stop` go on together.** -/
theorem Twin.stopStep (h : Twin ρ c c') (hi : CacheInv c) :
    Option.Rel (Twin ρ) c.stopStep c'.stopStep := by
  have hs' := h.stopper
  unfold PodCache.stopStep
  cases hs : c.stopper with
  | idle =>
    simp only [hs', hs, Offset.stopPc, h.running]
    split
    · have hjoin := h.joinRefresher
      generalize c.joinRefresher = x, c'.joinRefresher = x' at hjoin
      cases hjoin with
      | some hd => exact Option.Rel.some (hd.toStopper .destroy)
      | none => exact Option.Rel.none
    · exact Option.Rel.some { h with running := rfl, stopper := rfl }
  | destroy =>
    simp only [hs', hs, Offset.stopPc]
    exact Option.Rel.some { h.podListClientDestroy with stopper := rfl }
  | detach =>
    simp only [hs', hs, Offset.stopPc]
    refine Option.Rel.some { h with current := rfl, maxAge := ?_, stopper := ?_ }
    · rintro (hrun | hcur)
      · exact h.maxAge (Or.inl hrun)
      · exact absurd rfl hcur
    · exact congrArg StopPc.release h.current
  | release previous =>
    cases previous with
    | none =>
      simp only [hs', hs, Offset.stopPc, Offset.reSnap, Option.map_none]
      exact Option.Rel.some (h.toStopper .idle)
    | some r =>
      simp only [hs', hs, Offset.stopPc, Offset.reSnap, Option.map_some]
      exact h.dropThen (hi.owned (mem_owners_of_stopper hs)).1
        (fun d d' hd => hd.toStopper (.free r)) (fun d d' hd => hd.toStopper .idle)
  | free r =>
    simp only [hs', hs, Offset.stopPc]
    have hfree := h.freeSnapshot hi (hi.dies (mem_dying_of_stopper hs)).1
    exact Option.Rel.some (hfree.toStopper .idle)

/-! ## 6. The readers -/

theorem Twin.acquireStep (h : Twin ρ c c') (hi : CacheInv c) (t : Nat) :
    Option.Rel (Twin ρ) (c.acquireStep t) (c'.acquireStep (ρ.thread + t)) := by
  obtain ⟨hacq, hval⟩ := h.podCacheAcquire hi
  unfold PodCache.acquireStep
  rw [h.readers t]
  rcases hrd : c.readers[t]? with _ | ⟨_ | r, _ | q, acquired⟩
  · exact Option.Rel.none
  · simp only [Option.map_some, Offset.reader, Offset.reSnap, Option.map_none]
    rcases hc : c.podCacheAcquire with ⟨d, _ | r⟩ <;>
      rcases hc' : c'.podCacheAcquire with ⟨d', _ | r'⟩ <;> rw [hc, hc'] at hacq hval
    · exact Option.Rel.some hacq
    · exact absurd hval (by simp [Offset.reSnap])
    · exact absurd hval (by simp [Offset.reSnap])
    · obtain rfl : r' = ρ.snap + r := Option.some.inj hval
      exact Option.Rel.some (hacq.toReader t ⟨some r, none, r :: acquired⟩)
  all_goals exact Option.Rel.none

theorem Twin.readStep (h : Twin ρ c c') (t : Nat) :
    Option.Rel (Twin ρ) (c.readStep t) (c'.readStep (ρ.thread + t)) := by
  unfold PodCache.readStep
  rw [h.readers t]
  rcases hrd : c.readers[t]? with _ | ⟨_ | r, _ | q, acquired⟩
  case some.some.none => exact Option.Rel.some (h.faults _ _)
  all_goals exact Option.Rel.none

theorem Twin.releaseStep (h : Twin ρ c c') (hi : CacheInv c) (t : Nat) :
    Option.Rel (Twin ρ) (c.releaseStep t) (c'.releaseStep (ρ.thread + t)) := by
  unfold PodCache.releaseStep
  rw [h.readers t]
  rcases hrd : c.readers[t]? with _ | ⟨_ | r, _ | q, acquired⟩
  case some.some.none =>
    have hr := (hi.owned (mem_owners_of_reader (List.mem_of_getElem? hrd) rfl)).1
    simp only [Option.map_some, Offset.reader, Offset.reSnap, Option.map_none]
    exact h.dropThen hr (fun d d' hd => hd.toReader t ⟨none, some r, acquired⟩)
      (fun d d' hd => hd.toReader t ⟨none, none, acquired⟩)
  all_goals exact Option.Rel.none

theorem Twin.freeStep (h : Twin ρ c c') (hi : CacheInv c) (t : Nat) :
    Option.Rel (Twin ρ) (c.freeStep t) (c'.freeStep (ρ.thread + t)) := by
  unfold PodCache.freeStep
  rw [h.readers t]
  rcases hrd : c.readers[t]? with _ | ⟨_ | r, _ | q, acquired⟩
  case some.none.some =>
    have hr := (hi.dies (mem_dying_of_reader (List.mem_of_getElem? hrd) rfl)).1
    exact Option.Rel.some ((h.freeSnapshot hi hr).toReader t ⟨none, none, acquired⟩)
  all_goals exact Option.Rel.none

/-- A new reader is the next one in both. -/
theorem Twin.spawnReader (h : Twin ρ c c') :
    Twin ρ { c with readers := c.readers ++ [⟨none, none, []⟩] }
      { c' with readers := c'.readers ++ [⟨none, none, []⟩] } := by
  refine { h with threads := ?_, readers := ?_ }
  · simp only [List.length_append, h.threads, Nat.add_assoc]
  · intro t
    simp only [List.getElem?_append, h.threads, Nat.add_lt_add_iff_left]
    split
    · exact h.readers t
    · rw [Nat.add_sub_add_left]
      cases t - c.readers.length <;> rfl

/-! ## 7. The system -/

/-- **Twins stay twins.**  What the one can do the other can do, and they are twins behind it. -/
theorem Twin.step (h : Twin ρ c c') (hi : CacheInv c) (a : CacheAct) :
    Option.Rel (Twin ρ) (c.step a) (c'.step (ρ.cacheAct a)) := by
  cases a with
  | tick ns =>
    refine Option.Rel.some { h with clock := ?_ }
    change c'.clock + ns = c.clock + ns + ρ.ns
    rw [h.clock, Int.add_right_comm]
  | closingReset => exact Option.Rel.some { h with closing := rfl }
  | closingBegin => exact Option.Rel.some { h with closing := rfl }
  | start clientOk threadOk =>
    have hs' := h.stopper
    simp only [PodCache.step, Offset.cacheAct]
    cases hs : c.stopper with
    | idle =>
      simp only [hs', hs, Offset.stopPc]
      exact Option.Rel.some (h.podCacheStart clientOk threadOk).1
    | _ =>
      simp only [hs', hs, Offset.stopPc]
      exact Option.Rel.none
  | stop => exact h.stopStep hi
  | spawnReader => exact Option.Rel.some h.spawnReader
  | acquire t => exact h.acquireStep hi t
  | read t => exact h.readStep t
  | release t => exact h.releaseStep hi t
  | free t => exact h.freeStep hi t
  | refresher =>
    simp only [PodCache.step, Offset.cacheAct]
    have hrel := h.refresher
    generalize hx : c.refresher = x, hx' : c'.refresher = x' at hrel
    cases hrel with
    | none => exact Option.Rel.none
    | some htw => exact h.refresherStep hi hx htw
  | fetchEnds a => exact h.fetchEnds a
  | publishAlloc ok => exact h.publishAlloc hi ok

end Twins

end Unicaster
