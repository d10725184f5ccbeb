/-
# The pod list shared by the threads (`pod_cache.c`, with the flag of `closing.c`)

The state is the file-scope variables of `pod_cache.c`, the heap cells they lead to, the
closing flag, the clock, and where each thread stands in the code that uses them: the
refresher in `refresh_pods`, any number of readers between `pod_cache_acquire` and
`pod_cache_release`, and the one caller of `pod_cache_stop`.

**Granularity.**  A section held under `cache_mutex` is one step, and so is every stretch
of code that touches nothing shared.  What lies between two such stretches is a place of its
own: the release of the old snapshot in `publish` is a later step than the swap, and the
`free` of a snapshot is a later step than the decrement that found zero.

**Heap.**  Snapshots and pod lists are numbered in the order in which they come into being;
a cell is never reused, and `frees` counts how often it was handed to `free`.  A snapshot
enters the heap when `publish` makes it current: until then no other thread can see it, so
its number is also its place in the order of publication.  `fault` is raised by any use of a
cell that was freed, by a second `free` and by a request on a destroyed client; it is never
lowered.

`closing_sleep` is taken here for what it does to its caller: it returns when the flag is
set or its deadline has come.
-/
import Unicaster.Settings
import Unicaster.PodList
import Unicaster.Lib.Lts

namespace Unicaster

open CLib

def maxRetryDelay : Int := 30
def failureReminder : Int := 60

/-- Nanoseconds in a second. -/
def nsPerSecond : Int := 1000000000

/-! ## 1. The state -/

/-- A `PodList` in the heap. -/
structure PodListCell where
  ips : List Text
  frees : Nat

/-- A `PodSnapshot` in the heap. -/
structure PodSnapshot where
  refs : Int
  receivedAt : Int
  pods : Nat
  frees : Nat

/-- What `log_failure` says about the announcements. -/
inductive Verdict where
  | noList
  | expired (age : Int)
  | stillAnnouncing (count age : Int)
  deriving DecidableEq

/-- The lines `refresh_pods` logs. -/
inductive LogEntry where
  | recovered (failedFor count : Int)
  | announcing (count : Int)
  | countChanged (count : Int)
  | failure (failingFor : Int) (reason : Text) (verdict : Verdict)
  deriving DecidableEq

/-- Where the refresher stands in `refresh_pods`. -/
inductive RefresherPc where
  /-- at `while (!is_closing())` -/
  | check
  /-- inside `pod_list_fetch`, entered at this moment -/
  | fetching (startedAt : Int)
  /-- `pod_list_fetch` has returned -/
  | fetched (pods : Option Nat) (error : Text)
  /-- at the `malloc` of `publish` -/
  | publishing (pods : Nat)
  /-- the snapshot is filled in, `publish` is about to take the lock -/
  | swapping (receivedAt : Int) (pods : Nat)
  /-- `publish` is about to release what was current before -/
  | releasing (previous : Option Nat)
  /-- ... and found that it was the last owner -/
  | freeing (previous : Nat)
  /-- `publish` has returned 1 -/
  | succeeded
  /-- the round has no list -/
  | failed (error : Text)
  /-- `now` is read, about to ask `is_expired` -/
  | judging (error : Text) (now : Int)
  /-- about to log and to count the failure -/
  | reporting (error : Text) (now : Int) (expired : Bool)
  /-- in `closing_sleep` -/
  | sleeping (deadline : Int)
  | exited

/-- The refresher thread: its place, the locals of `refresh_pods`, and (for the proofs) the
answer its current round got. -/
structure Refresher where
  pc : RefresherPc
  refresh : Int
  timeout : Int
  failures : Int
  lastCount : Int
  expiryReported : Bool
  failingSince : Int
  lastReminder : Int
  count : Int
  answer : Option Answer

/-- Where the caller of `pod_cache_stop` stands. -/
inductive StopPc where
  /-- not in it, or waiting for the refresher in `pthread_join` -/
  | idle
  | destroy
  | detach
  | release (previous : Option Nat)
  | free (previous : Nat)
  deriving DecidableEq

/-- A thread that uses `pod_cache_acquire`: the snapshot it has not given back, the one whose
count it brought to zero and is about to free, and all it ever acquired, the latest first. -/
structure Reader where
  held : Option Nat
  freeing : Option Nat
  acquired : List Nat

structure PodCache where
  environ : Environ
  /-- `CLOCK_MONOTONIC`, in nanoseconds -/
  clock : Int
  closing : Bool
  current : Option Nat
  maxAge : Int
  client : Option Nat
  refresherRunning : Bool
  refresher : Option Refresher
  stopper : StopPc
  readers : List Reader
  snaps : Nat → PodSnapshot
  nextSnap : Nat
  lists : Nat → PodListCell
  nextList : Nat
  /-- how often each client ever created was destroyed -/
  clients : List Nat
  /-- how often each refresher thread ever created was joined -/
  refreshers : List Nat
  log : List LogEntry
  fault : Bool

/-- A process that has not loaded the module. -/
def PodCache.init (environ : Environ) (clock : Int) : PodCache where
  environ := environ
  clock := clock
  closing := false
  current := none
  maxAge := 0
  client := none
  refresherRunning := false
  refresher := none
  stopper := .idle
  readers := []
  snaps := fun _ => ⟨0, 0, 0, 0⟩
  nextSnap := 0
  lists := fun _ => ⟨[], 0⟩
  nextList := 0
  clients := []
  refreshers := []
  log := []
  fault := false

/-! ## 2. The functions -/

namespace PodCache

variable (c : PodCache)

/-- `now_seconds`. -/
def nowSeconds : Int := c.clock / nsPerSecond

/-- The cell is allocated and not freed. -/
def snapLive (r : Nat) : Bool := r < c.nextSnap ∧ (c.snaps r).frees = 0

def listLive (l : Nat) : Bool := l < c.nextList ∧ (c.lists l).frees = 0

/-- A use of a snapshot. -/
def touchSnap (r : Nat) : PodCache := { c with fault := c.fault || !c.snapLive r }

/-- The addresses of a snapshot. -/
def podsOf (r : Nat) : List Text := (c.lists (c.snaps r).pods).ips

/-- A use of `snapshot->pods`. -/
def touchPods (r : Nat) : PodCache :=
  { c with fault := c.fault || !c.snapLive r || !c.listLive (c.snaps r).pods }

/-- `pod_list_free`. -/
def podListFree (l : Nat) : PodCache :=
  { c with
    fault := c.fault || !c.listLive l
    lists := Function.update c.lists l { c.lists l with frees := (c.lists l).frees + 1 } }

/-- `free_snapshot`. -/
def freeSnapshot (r : Nat) : PodCache :=
  let c := (c.touchSnap r).podListFree (c.snaps r).pods
  { c with snaps := Function.update c.snaps r { c.snaps r with frees := (c.snaps r).frees + 1 } }

/-- The part of `pod_cache_release` held under the lock, and the count it found. -/
def dropRef (r : Nat) : PodCache × Int :=
  let refs := (c.snaps r).refs - 1
  let c := c.touchSnap r
  ({ c with snaps := Function.update c.snaps r { c.snaps r with refs := refs } }, refs)

/-- `pod_cache_acquire`. -/
def podCacheAcquire : PodCache × Option Nat :=
  match c.current with
  | none => (c, none)
  | some r =>
    let c := c.touchSnap r
    if c.maxAge > 0 ∧ c.nowSeconds - (c.snaps r).receivedAt > c.maxAge then (c, none)
    else
      ({ c with snaps := Function.update c.snaps r { c.snaps r with refs := (c.snaps r).refs + 1 } },
        some r)

/-- `describe_current`: the count, and the age where there is a list. -/
def describeCurrent : PodCache × Int × Int :=
  match c.current with
  | none => (c, 0, 0)
  | some r => (c.touchPods r, (c.podsOf r).length, c.nowSeconds - (c.snaps r).receivedAt)

/-- `is_expired`. -/
def isExpired : PodCache × Bool :=
  if c.maxAge > 0 then
    let (c, count, age) := c.describeCurrent
    (c, count ≠ 0 ∧ age > c.maxAge)
  else (c, false)

/-- `log_failure`. -/
def logFailure (reason : Text) (failingFor : Int) : PodCache :=
  let (c, count, age) := c.describeCurrent
  let verdict : Verdict :=
    if count = 0 then .noList
    else if c.maxAge > 0 ∧ age > c.maxAge then .expired age
    else .stillAnnouncing count age
  { c with log := c.log ++ [.failure failingFor reason verdict] }

end PodCache

/-- The loop of `next_delay`: at most `n` doublings, none at or above the cap. -/
def doubling (cap : Int) : Nat → Int → Int
  | 0, delay => delay
  | n + 1, delay => if delay < cap then doubling cap n (delay * 2) else delay

/-- `next_delay`. -/
def nextDelay (refresh failures : Int) : Int :=
  let cap := if refresh > maxRetryDelay then refresh else maxRetryDelay
  let delay := doubling cap (failures - 1).toNat refresh
  if delay < cap then delay else cap

/-! ## 3. The refresher -/

/-- The thread `pod_cache_start` creates, at the head of its loop. -/
def Refresher.create (e : Environ) : Refresher where
  pc := .check
  refresh := e.getPodsRefresh
  timeout := e.getPodsTimeout
  failures := 0
  lastCount := 0
  expiryReported := false
  failingSince := 0
  lastReminder := 0
  count := 0
  answer := none

namespace PodCache

variable (c : PodCache)

/-- The refresher goes on to `pc`. -/
def goto (th : Refresher) (pc : RefresherPc) : PodCache :=
  { c with refresher := some { th with pc := pc } }

/-- What a successful round logs. -/
def logSuccess (th : Refresher) : List LogEntry :=
  if th.failures ≠ 0 then [.recovered (c.nowSeconds - th.failingSince) th.count]
  else if th.lastCount = 0 then [.announcing th.count]
  else if th.count ≠ th.lastCount then [.countChanged th.count]
  else []

/-- The end of a successful round, and the sleep behind it. -/
def endSuccess (th : Refresher) : PodCache :=
  { c with
    log := c.log ++ c.logSuccess th
    refresher := some
      { th with
        failures := 0
        expiryReported := false
        lastCount := th.count
        pc := .sleeping (c.clock + th.refresh * nsPerSecond) } }

/-- The end of a failed round: what is logged, the bookkeeping, and the sleep behind it. -/
def endFailure (th : Refresher) (error : Text) (now : Int) (expired : Bool) : PodCache :=
  let th' := { th with expiryReported := expired, failures := th.failures + 1 }
  let pc := RefresherPc.sleeping (c.clock + nextDelay th.refresh (th.failures + 1) * nsPerSecond)
  if th.failures = 0 then
    (c.logFailure error 0).goto { th' with failingSince := now, lastReminder := now } pc
  else if now - th.lastReminder ≥ failureReminder ∨ expired = true ∧ th.expiryReported = false then
    (c.logFailure error (now - th.failingSince)).goto { th' with lastReminder := now } pc
  else c.goto th' pc

/-- Behind `pod_list_fetch`: the closing test, and the check for an empty list. -/
def afterFetch (th : Refresher) (pods : Option Nat) (error : Text) : PodCache :=
  match pods with
  | none => if c.closing then c.goto th .exited else c.goto { th with count := 0 } (.failed error)
  | some l =>
    if c.closing then (c.podListFree l).goto th .exited
    else if (c.lists l).ips.length = 0 then
      (c.podListFree l).goto { th with count := 0 }
        (.failed (snprintf errorSize (ascii "the API listed no pod with an IPv4 address")))
    else c.goto { th with count := (c.lists l).ips.length } (.publishing l)

/-- The swap in `publish`: the snapshot enters the heap as the current one. -/
def swap (th : Refresher) (receivedAt : Int) (pods : Nat) : PodCache :=
  { c with
    snaps := Function.update c.snaps c.nextSnap ⟨1, receivedAt, pods, 0⟩
    nextSnap := c.nextSnap + 1
    current := some c.nextSnap
    refresher := some { th with pc := .releasing c.current } }

/-- The next step of the refresher, where it does not depend on the outside. -/
def refresherStep (th : Refresher) : Option PodCache :=
  match th.pc with
  | .check =>
    if c.closing then some (c.goto th .exited)
    else some (c.goto { th with answer := none } (.fetching c.clock))
  | .fetching _ => none
  | .fetched pods error => some (c.afterFetch th pods error)
  | .publishing _ => none
  | .swapping receivedAt pods => some (c.swap th receivedAt pods)
  | .releasing none => some (c.goto th .succeeded)
  | .releasing (some r) =>
    let (c, refs) := c.dropRef r
    if refs = 0 then some (c.goto th (.freeing r)) else some (c.goto th .succeeded)
  | .freeing r => some ((c.freeSnapshot r).goto th .succeeded)
  | .succeeded => some (c.endSuccess th)
  | .failed error => some (c.goto th (.judging error c.nowSeconds))
  | .judging error now =>
    let (c, expired) := c.isExpired
    some (c.goto th (.reporting error now expired))
  | .reporting error now expired => some (c.endFailure th error now expired)
  | .sleeping deadline =>
    if c.closing ∨ deadline ≤ c.clock then some (c.goto th .check) else none
  | .exited => none

/-- The request in progress ends with the answer `a`. -/
def fetchEnds (a : Answer) : Option PodCache :=
  match c.refresher with
  | some th =>
    match th.pc with
    | .fetching _ =>
      let th := { th with answer := some a }
      -- the client of the request must not have been destroyed
      let c := { c with fault := c.fault || c.client.isNone }
      match (podListFetch c.environ.deploymentEnv a).list with
      | .ok ips =>
        let c' :=
          { c with
            lists := Function.update c.lists c.nextList ⟨ips, 0⟩
            nextList := c.nextList + 1 }
        some (c'.goto th (.fetched (some c.nextList) []))
      | .error error => some (c.goto th (.fetched none error))
    | _ => none
  | none => none

/-- The `malloc` of `publish` succeeds or fails. -/
def publishAlloc (ok : Bool) : Option PodCache :=
  match c.refresher with
  | some th =>
    match th.pc with
    | .publishing l =>
      if ok then some (c.goto th (.swapping c.nowSeconds l))
      else some ((c.podListFree l).goto th (.failed (snprintf errorSize (ascii "out of memory"))))
    | _ => none
  | none => none

/-! ## 4. Starting and stopping -/

/-- `pod_list_client_destroy`. -/
def podListClientDestroy : PodCache :=
  match c.client with
  | none => c
  | some k => { c with clients := c.clients.set k (c.clients.getD k 0 + 1) }

/-- `pod_cache_start`, and whether it returned 1. -/
def podCacheStart (clientOk threadOk : Bool) : PodCache × Bool :=
  if c.refresherRunning then (c, true)
  else
    let c := { c with maxAge := c.environ.getPodsMaxAge }
    if clientOk then
      let c := { c with client := some c.clients.length, clients := c.clients ++ [0] }
      if threadOk then
        ({ c with
            refresher := some (Refresher.create c.environ)
            refreshers := c.refreshers ++ [0]
            refresherRunning := true }, true)
      else ({ c.podListClientDestroy with client := none }, false)
    else (c, false)

/-- `pthread_join(refresher)`: possible once the thread has ended. -/
def joinRefresher : Option PodCache :=
  match c.refresher with
  | some th =>
    match th.pc with
    | .exited =>
      let k := c.refreshers.length - 1
      some
        { c with
          refresher := none
          refresherRunning := false
          refreshers := c.refreshers.set k (c.refreshers.getD k 0 + 1) }
    | _ => none
  | none => none

/-- The next step of `pod_cache_stop`; from `idle` it is entered. -/
def stopStep : Option PodCache :=
  match c.stopper with
  | .idle =>
    if c.refresherRunning then (c.joinRefresher).map fun c => { c with stopper := .destroy }
    else some { c with stopper := .destroy }
  | .destroy => some { c.podListClientDestroy with client := none, stopper := .detach }
  | .detach => some { c with current := none, stopper := .release c.current }
  | .release none => some { c with stopper := .idle }
  | .release (some r) =>
    let (c, refs) := c.dropRef r
    if refs = 0 then some { c with stopper := .free r } else some { c with stopper := .idle }
  | .free r => some { c.freeSnapshot r with stopper := .idle }

/-! ## 5. The readers -/

/-- Reader `t` calls `pod_cache_acquire`; it holds nothing. -/
def acquireStep (t : Nat) : Option PodCache :=
  match c.readers[t]? with
  | some ⟨none, none, acquired⟩ =>
    match c.podCacheAcquire with
    | (c, none) => some c
    | (c, some r) => some { c with readers := c.readers.set t ⟨some r, none, r :: acquired⟩ }
  | _ => none

/-- Reader `t` reads the pods of the snapshot it holds. -/
def readStep (t : Nat) : Option PodCache :=
  match c.readers[t]? with
  | some ⟨some r, none, _⟩ => some (c.touchPods r)
  | _ => none

/-- Reader `t` calls `pod_cache_release`. -/
def releaseStep (t : Nat) : Option PodCache :=
  match c.readers[t]? with
  | some ⟨some r, none, acquired⟩ =>
    let (c, refs) := c.dropRef r
    if refs = 0 then some { c with readers := c.readers.set t ⟨none, some r, acquired⟩ }
    else some { c with readers := c.readers.set t ⟨none, none, acquired⟩ }
  | _ => none

/-- Reader `t` frees the snapshot whose count it brought to zero. -/
def freeStep (t : Nat) : Option PodCache :=
  match c.readers[t]? with
  | some ⟨none, some r, acquired⟩ =>
    let c := c.freeSnapshot r
    some { c with readers := c.readers.set t ⟨none, none, acquired⟩ }
  | _ => none

end PodCache

/-! ## 6. The system -/

/-- One step of some thread, of the clock, or of the outside. -/
inductive CacheAct where
  | tick (ns : Nat)
  | closingReset
  | closingBegin
  | start (clientOk threadOk : Bool)
  | stop
  | spawnReader
  | acquire (t : Nat)
  | read (t : Nat)
  | release (t : Nat)
  | free (t : Nat)
  | refresher
  | fetchEnds (a : Answer)
  | publishAlloc (ok : Bool)

namespace PodCache

/-- What an action does, or `none` where it is not possible. -/
def step (c : PodCache) : CacheAct → Option PodCache
  | .tick ns => some { c with clock := c.clock + ns }
  | .closingReset => some { c with closing := false }
  | .closingBegin => some { c with closing := true }
  | .start clientOk threadOk =>
    match c.stopper with
    | .idle => some (c.podCacheStart clientOk threadOk).1
    | _ => none
  | .stop => c.stopStep
  | .spawnReader => some { c with readers := c.readers ++ [⟨none, none, []⟩] }
  | .acquire t => c.acquireStep t
  | .read t => c.readStep t
  | .release t => c.releaseStep t
  | .free t => c.freeStep t
  | .refresher => c.refresher.bind c.refresherStep
  | .fetchEnds a => c.fetchEnds a
  | .publishAlloc ok => c.publishAlloc ok

/-- The states before anything has happened. -/
def Initial (c : PodCache) : Prop := ∃ environ clock, c = init environ clock

abbrev Reachable (c : PodCache) : Prop := Lts.Reachable step Initial c

end PodCache

end Unicaster
