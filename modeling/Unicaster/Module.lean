/-
# The module in its process (`unicaster.c`, with the threads)

The state is the pod cache, the sender threads, the file-scope variables of `unicaster.c`,
where the main thread stands, and what the server knows of the module.  Actions are the
callbacks the server makes, the next step of each thread, and what the outside does.

**The main thread.**  Redis makes its callbacks one at a time, so a callback is possible only
where the main thread is idle.  What `RedisModule_OnLoad` and `start_broadcasting` do before the
loop of `send_udp_message` touches nothing that another thread uses at that time and is one
step.  The loop, the joins of `cleanup_threads` and `pod_cache_stop` are taken step by step.

**A sender** is reader number `t` of the cache: it acquires, reads and releases by the actions
of `PodCache`, so what is proved there for any number of readers holds of the senders.

**The host.**  A module that is loaded has its name, so a second load of it finds the name
busy.  Reading a `NULL` that `strdup` returned is undefined behaviour; the process then takes
no further step.

`History` and `Sender.passes` are for the proofs; no function of the source reads them.
-/
import Unicaster.CacheHistory
import Unicaster.Announce

namespace Unicaster

open CLib

/-! ## 1. The senders -/

/-- The locals of one round of the loop of `unicast_thread`. -/
structure PassLocals where
  closing : Bool
  snapshot : Option Nat
  i : Nat
  failed : Nat
  lastErrno : Int
  lastFailedIp : Option Text

/-- Where a sender stands in `unicast_thread`. -/
inductive SenderPc where
  /-- created, before its first line -/
  | start
  /-- at `is_closing()` -/
  | check
  /-- at `pod_cache_acquire` -/
  | acquiring (closing : Bool)
  /-- at the head of the loop over the pods -/
  | sending (p : PassLocals)
  /-- behind that loop, before what it says about failures -/
  | reporting (p : PassLocals)
  /-- at `pod_cache_release` -/
  | releasing (p : PassLocals)
  /-- in it, about to free the snapshot -/
  | freeing (closing : Bool)
  /-- in `closing_sleep` -/
  | sleeping (deadline : Int)
  | exited

/-- What a sender logs. -/
inductive SenderLog where
  | sent (ip message : Text)
  | failing (failed count : Nat) (lastFailedIp : Option Text) (lastErrno : Int)
  | deliveredAgain

/-- One round of the loop: which datagram it sends, the configuration in force when it began,
what `pod_cache_acquire` returned, the addresses of that snapshot, and those attempted. -/
structure Pass where
  up : Bool
  message : Text
  config : Config
  snapshot : Option Nat
  ips : List Text
  attempts : List Text

/-- A sender thread: its task, its place, the locals of `unicast_thread`; how often it was
joined, and its passes, the latest first. -/
structure Sender where
  task : BroadcastTask
  pc : SenderPc
  broadcastName : Text
  broadcastInterval : Int
  upMessage : Text
  downMessage : Text
  destinationPort : Int
  wasFailing : Bool
  log : List SenderLog
  joined : Nat
  passes : List Pass

/-- The thread `pthread_create` makes of a task. -/
def Sender.create (task : BroadcastTask) : Sender where
  task := task
  pc := .start
  broadcastName := []
  broadcastInterval := 0
  upMessage := []
  downMessage := []
  destinationPort := 0
  wasFailing := false
  log := []
  joined := 0
  passes := []

namespace Sender

variable (th : Sender)

/-- The lines of `unicast_thread` before its loop. -/
def prepare (e : Environ) (guid : Text) : Sender :=
  { th with
    broadcastName := e.getServiceName
    broadcastInterval := e.getInterval
    downMessage := Unicaster.downMessage e.getServiceName guid th.task
    upMessage := Unicaster.upMessage e.getServiceName guid th.task e.getInterval
    destinationPort := e.getPort
    wasFailing := false
    pc := .check }

/-- The pass that is going on, changed by `f`. -/
def onPass (f : Pass → Pass) : Sender :=
  { th with passes := match th.passes with | [] => [] | p :: ps => f p :: ps }

/-- A round begins with the value of the flag. -/
def beginPass (closing : Bool) (config : Config) : Sender :=
  { th with
    passes := ⟨!closing, if closing then th.downMessage else th.upMessage, config, none, [], []⟩
      :: th.passes
    pc := .acquiring closing }

/-- What `pod_cache_acquire` returned. -/
def acquired (closing : Bool) (snapshot : Option Nat) (ips : List Text) : Sender :=
  { th.onPass fun p => { p with snapshot := snapshot, ips := ips } with
    pc := .sending ⟨closing, snapshot, 0, 0, 0, none⟩ }

/-- One send, and what is kept of its failure. -/
def sendTo (p : PassLocals) (ip : Text) (enableLogging : Bool) (o : SendOutcome) : Sender :=
  let message := if p.closing then th.downMessage else th.upMessage
  let th := th.onPass fun q => { q with attempts := q.attempts ++ [ip] }
  match sendUnicastMessage ip o with
  | some errno =>
    { th with
      pc := .sending
        { p with i := p.i + 1, failed := p.failed + 1, lastErrno := errno, lastFailedIp := some ip } }
  | none =>
    { th with
      pc := .sending { p with i := p.i + 1 }
      log := if enableLogging then th.log ++ [.sent ip message] else th.log }

/-- What is said when sends start failing and when they stop; `count` is the length of the
list. -/
def report (p : PassLocals) (count : Nat) : Sender :=
  { th with
    pc := .releasing p
    log :=
      if p.failed ≠ 0 ∧ th.wasFailing = false then
        th.log ++ [.failing p.failed count p.lastFailedIp p.lastErrno]
      else if p.failed = 0 ∧ th.wasFailing = true ∧ p.snapshot.isSome = true then
        th.log ++ [.deliveredAgain]
      else th.log
    wasFailing := if p.snapshot.isSome = true then decide (p.failed > 0) else th.wasFailing }

/-- The end of a round: the thread ends, or it sleeps. -/
def endPass (closing : Bool) (clock : Int) : Sender :=
  if closing then { th with pc := .exited }
  else { th with pc := .sleeping (clock + th.broadcastInterval * nsPerSecond) }

/-- The next step of sender `t`: the cache and the sender afterwards. -/
def step (c : PodCache) (guid : Text) (enableLogging : Bool) (config : Config) (t : Nat)
    (o : SendOutcome) : Option (PodCache × Sender) :=
  match th.pc with
  | .start => some (c, th.prepare c.environ guid)
  | .check => some (c, th.beginPass c.closing config)
  | .acquiring closing =>
    (c.step (.acquire t)).map fun c =>
      let snapshot := c.readers[t]?.bind (·.held)
      (c, th.acquired closing snapshot ((snapshot.map c.podsOf).getD []))
  | .sending p =>
    match p.snapshot with
    | none => some (c, { th with pc := .reporting p })
    | some r =>
      (c.step (.read t)).map fun c =>
        match (c.podsOf r)[p.i]? with
        | none => (c, { th with pc := .reporting p })
        | some ip => (c, th.sendTo p ip enableLogging o)
  | .reporting p =>
    match p.snapshot with
    | none => some (c, th.report p 0)
    | some r => (c.step (.read t)).map fun c => (c, th.report p (c.podsOf r).length)
  | .releasing p =>
    match p.snapshot with
    | none => some (c, th.endPass p.closing c.clock)
    | some _ =>
      (c.step (.release t)).map fun c =>
        match c.readers[t]?.bind (·.freeing) with
        | some _ => (c, { th with pc := .freeing p.closing })
        | none => (c, th.endPass p.closing c.clock)
  | .freeing closing => (c.step (.free t)).map fun c => (c, th.endPass closing c.clock)
  | .sleeping deadline =>
    if c.closing ∨ deadline ≤ c.clock then some (c, { th with pc := .check }) else none
  | .exited => none

end Sender

/-! ## 2. The state -/

/-- The file-scope variables of `unicaster.c`.  `redisBindIps` are the filled slots of
`redis_bind_ips`, and `ipPatterns` those of `ip_patterns`; the counts are their lengths. -/
structure Statics where
  enableLogging : Bool
  globalRedisPort : Int
  globalRedisTls : Bool
  redisGuid : Text
  redisBindIps : List Text
  allowAllInterfaces : Bool
  /-- the array of `thread_ids`; `none` is `NULL` -/
  threadIds : Option (List (Option Nat))
  threadCount : Nat
  ipPatterns : List (Option Text)
  announced : Bool

/-- Who called `cleanup_threads`. -/
inductive Caller where
  | shutdown
  | unload
  /-- `RedisModule_OnLoad`, its name being busy -/
  | refused
  deriving DecidableEq

/-- Where the main thread stands. -/
inductive MainPc where
  /-- outside the module -/
  | idle
  /-- in the loop of `send_udp_message`, before these interfaces -/
  | spawning (todo : List (Option InAddr))
  /-- in the loop of `cleanup_threads` -/
  | joining (i : Nat) (caller : Caller)
  /-- behind that loop, in `pod_cache_stop` -/
  | stopping (caller : Caller)
  deriving DecidableEq

/-- What the server knows of the module, and its configuration. -/
structure Host where
  loaded : Bool
  shutdownHook : Bool
  cronHook : Bool
  config : Config
  /-- whether the last `RedisModule_OnLoad` to return returned `REDISMODULE_OK` -/
  result : Option Bool

/-- Of the last load that was not refused: how often `start_broadcasting` ran, whether
`pod_cache_start` succeeded, the configuration it read, and the first snapshot number free at
that time. -/
structure History where
  starts : Nat
  cacheStarted : Bool
  loadConfig : Config
  base : Nat

structure System where
  cache : PodCache
  senders : List Sender
  statics : Statics
  main : MainPc
  host : Host
  history : History
  /-- undefined behaviour was reached -/
  undefined : Bool

/-- A server that has not loaded the module. -/
def System.init (e : Environ) (clock : Int) (config : Config) : System where
  cache := PodCache.init e clock
  senders := []
  statics := ⟨false, 6379, false, [], [], false, none, 0, [], false⟩
  main := .idle
  host := ⟨false, false, false, config, none⟩
  history := ⟨0, false, config, 0⟩
  undefined := false

/-! ## 3. Loading -/

/-- What one call of `RedisModule_OnLoad` meets. -/
structure LoadOutcome where
  guid : Guid
  /-- another module has the name -/
  nameBusy : Bool
  curlOk : Bool
  shutdownOk : Bool
  cronOk : Bool

namespace System

variable (s : System)

/-- `cleanup_threads`, up to its loop. -/
def cleanupThreads (caller : Caller) : System :=
  { s with cache := { s.cache with closing := true }, main := .joining 0 caller }

/-- The lines of `RedisModule_OnLoad` from `closing_reset` to `load_redis_bind_ips`. -/
def resetForLoad : System :=
  let bound := loadRedisBindIps s.host.config.bind
  { s with
    cache := { s.cache with closing := false }
    statics :=
      { s.statics with
        announced := false
        redisBindIps := bound.1
        allowAllInterfaces := bound.2 }
    history := ⟨0, false, s.host.config, s.cache.nextSnap⟩ }

/-- The rest of `RedisModule_OnLoad`, behind `curl_global_init`. -/
def completeLoad (shutdownOk cronOk : Bool) : System :=
  let resolved := resolveAnnouncedPort s.cache.environ s.host.config
  { s with
    statics :=
      { s.statics with
        enableLogging := s.statics.enableLogging || isVerbose s.host.config.loglevel
        globalRedisPort := resolved.1
        globalRedisTls := resolved.2 }
    host :=
      { s.host with
        loaded := true
        shutdownHook := shutdownOk
        cronHook := if resolved.1 ≤ 0 then false else cronOk
        result := some true } }

/-- `RedisModule_OnLoad`. -/
def redisModuleOnLoad (o : LoadOutcome) : System :=
  let s := { s with statics := { s.statics with redisGuid := o.guid.bytes } }
  if s.host.loaded ∨ o.nameBusy then s.cleanupThreads .refused
  else
    let s := s.resetForLoad
    if o.curlOk then s.completeLoad o.shutdownOk o.cronOk
    else { s with host := { s.host with result := some false } }

/-! ## 4. Starting -/

/-- What one call of `start_broadcasting` meets. -/
structure StartOutcome where
  clientOk : Bool
  threadOk : Bool
  /-- `getifaddrs`: the IPv4 address of each interface that has one; `none` when it fails -/
  ifaddrs : Option (List (Option InAddr))
  /-- the `malloc` of the thread array -/
  idsOk : Bool
  /-- the `strdup` of the whole of SELECTED_INTERFACES, and of each pattern -/
  copyOk : Bool
  dupOk : Nat → Bool

/-- `send_udp_message`, up to its loop. -/
def sendUdpMessage (o : StartOutcome) : System :=
  let s := { s with statics := { s.statics with threadCount := 0 } }
  match o.ifaddrs with
  | none => s
  | some ifaddr =>
    let maxThreads := ifaddr.countP (·.isSome)
    if maxThreads = 0 then s
    else if o.idsOk then
      match initIpPatterns s.cache.environ o.copyOk o.dupOk s.statics.ipPatterns with
      | none => { s with undefined := true }
      | some patterns =>
        { s with
          statics :=
            { s.statics with
              threadIds := some (List.replicate maxThreads none)
              ipPatterns := patterns }
          main := .spawning ifaddr }
    else { s with statics := { s.statics with threadIds := none } }

/-- `start_broadcasting`, from `cron_broadcast_once`. -/
def startBroadcasting (o : StartOutcome) : Option System :=
  let s :=
    { s with
      statics := { s.statics with announced := true }
      history := { s.history with starts := s.history.starts + 1 } }
  (s.cache.step (.start o.clientOk o.threadOk)).map fun c =>
    if (s.cache.podCacheStart o.clientOk o.threadOk).2 then
      { s with cache := c, history := { s.history with cacheStarted := true } }.sendUdpMessage o
    else { s with cache := c }

/-- `cron_broadcast_once`. -/
def cronBroadcastOnce (o : StartOutcome) : Option System :=
  if s.statics.announced ∨ s.cache.closing then some s else s.startBroadcasting o

/-- What one round of the loop of `send_udp_message` meets. -/
structure SpawnOutcome where
  taskOk : Bool
  createOk : Bool

/-- `thread_ids[thread_count++] = tid`, behind a `pthread_create` that succeeded. -/
def spawn (a : InAddr) : System :=
  let task := BroadcastTask.create (inetNtop a) s.statics.globalRedisPort s.statics.globalRedisTls
  match s.statics.threadIds with
  | none => { s with undefined := true }
  | some slots =>
    if s.statics.threadCount < slots.length then
      { s with
        cache := { s.cache with readers := s.cache.readers ++ [⟨none, none, []⟩] }
        senders := s.senders ++ [Sender.create task]
        statics :=
          { s.statics with
            threadIds := some (slots.set s.statics.threadCount (some s.senders.length))
            threadCount := s.statics.threadCount + 1 } }
    else { s with undefined := true }

/-- One round of the loop of `send_udp_message`. -/
def spawnStep (ifa : Option InAddr) (o : SpawnOutcome) : System :=
  match ifa with
  | none => s
  | some a =>
    match ipMatchesPattern (inetNtop a) s.statics.ipPatterns with
    | none => { s with undefined := true }
    | some false => s
    | some true => if o.taskOk ∧ o.createOk then s.spawn a else s

/-! ## 5. Cleaning up -/

/-- `pthread_join(thread_ids[i])`: possible once that thread has ended. -/
def joinStep (i : Nat) : Option System :=
  match s.statics.threadIds.bind (·[i]?.join) with
  | none => some { s with undefined := true }
  | some t =>
    match s.senders[t]? with
    | none => some { s with undefined := true }
    | some th =>
      match th.pc with
      | .exited => some { s with senders := s.senders.set t { th with joined := th.joined + 1 } }
      | _ => none

/-- Behind `cleanup_threads`, back to the server. -/
def returnTo (caller : Caller) : System :=
  let s := { s with statics := { s.statics with ipPatterns := [] }, main := .idle }
  match caller with
  | .shutdown => s
  | .unload =>
    { s with host := { s.host with loaded := false, shutdownHook := false, cronHook := false } }
  | .refused => { s with host := { s.host with result := some false } }

/-- The next step of the main thread inside the module. -/
def mainStep (o : SpawnOutcome) : Option System :=
  match s.main with
  | .idle => none
  | .spawning [] => some { s with main := .idle }
  | .spawning (ifa :: todo) => some { s.spawnStep ifa o with main := .spawning todo }
  | .joining i caller =>
    if i < s.statics.threadCount then
      (s.joinStep i).map fun s => { s with main := .joining (i + 1) caller }
    else
      some
        { s with
          statics := { s.statics with threadIds := none, threadCount := 0 }
          main := .stopping caller }
  | .stopping caller =>
    (s.cache.step .stop).map fun c =>
      let s := { s with cache := c }
      if c.stopper = .idle then s.returnTo caller else s

/-! ## 6. The system -/

/-- A step of the cache that moves nothing else. -/
def cacheStep (a : CacheAct) : Option System := (s.cache.step a).map fun c => { s with cache := c }

/-- The next step of sender `t`. -/
def senderStep (t : Nat) (o : SendOutcome) : Option System :=
  s.senders[t]?.bind fun th =>
    (th.step s.cache s.statics.redisGuid s.statics.enableLogging s.host.config t o).map fun r =>
      { s with cache := r.1, senders := s.senders.set t r.2 }

end System

inductive Act where
  | tick (ns : Nat)
  | configSet (config : Config)
  | load (o : LoadOutcome)
  | cron (o : System.StartOutcome)
  | shutdown
  | unload
  | main (o : System.SpawnOutcome)
  | refresher
  | fetchEnds (a : Answer)
  | publishAlloc (ok : Bool)
  | sender (t : Nat) (o : SendOutcome)

namespace System

/-- What an action does, or `none` where it is not possible. -/
def step (s : System) (a : Act) : Option System :=
  if s.undefined then none
  else
    match a with
    | .tick ns => s.cacheStep (.tick ns)
    | .configSet config =>
      if s.main = .idle then some { s with host := { s.host with config := config } } else none
    | .load o => if s.main = .idle then some (s.redisModuleOnLoad o) else none
    | .cron o =>
      if s.main = .idle ∧ s.host.loaded ∧ s.host.cronHook then s.cronBroadcastOnce o else none
    | .shutdown =>
      if s.main = .idle ∧ s.host.loaded ∧ s.host.shutdownHook then
        some (s.cleanupThreads .shutdown)
      else none
    | .unload =>
      if s.main = .idle ∧ s.host.loaded then some (s.cleanupThreads .unload) else none
    | .main o => s.mainStep o
    | .refresher => s.cacheStep .refresher
    | .fetchEnds a => s.cacheStep (.fetchEnds a)
    | .publishAlloc ok => s.cacheStep (.publishAlloc ok)
    | .sender t o => s.senderStep t o

/-- The states before the module is loaded. -/
def Initial (s : System) : Prop := ∃ e clock config, s = init e clock config

abbrev Reachable (s : System) : Prop := Lts.Reachable step Initial s

end System

/-! ## 7. A small deployment

One interface and one pod, and nothing fails. -/

/-- A configuration with these two ports. -/
def portsConfig (port tlsPort : Text) : Config :=
  ⟨.string port, .string tlsPort, .missing, .missing⟩

def plainLoad : Act := .load ⟨zeroGuid, false, true, true, true⟩

def oneInterface : Act :=
  .cron ⟨true, true, some [some ⟨10, 0, 0, 1⟩], true, true, fun _ => true⟩

/-- The main thread goes on, and nothing fails. -/
def mainOk : Act := .main ⟨true, true⟩

/-- Sender 0 goes on, and nothing fails. -/
def senderOk : Act := .sender 0 ⟨true, true, 0⟩

/-- The module is loaded, and the first cron tick starts its one sender. -/
def startUp : List Act := [plainLoad, oneInterface, mainOk, mainOk]

/-- A round of the refresher, up to its sleep. -/
def refreshRound : List Act :=
  [.refresher, .fetchEnds (onePod (some (ascii "prod"))), .refresher, .publishAlloc true,
    .refresher, .refresher, .refresher]

/-- A pass over a list of one pod, from the check of the flag to the end of the round. -/
def passOverOne : List Act := List.replicate 6 senderOk

/-- `shutdown_callback`, and what the threads do until it returns: the `down` pass, the join, the
end of the refresher, `pod_cache_stop`. -/
def shutDown : List Act :=
  .shutdown :: senderOk :: passOverOne ++ [mainOk, mainOk, .refresher, .refresher]
    ++ List.replicate 5 mainOk

end Unicaster
