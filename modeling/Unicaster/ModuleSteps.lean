/-
# What one step of the module can do

Said once, for every later module: a step of a sender (`SenderMove`), of `send_udp_message` and
`cleanup_threads`, of `cron_broadcast_once`, and of the whole system (`Move`).  A step of the
system takes at most one step of the cache, so what is proved of the cache alone holds of the
cache inside the module (`System.Reachable.cache`).
-/
import Unicaster.Module

namespace Unicaster

open CLib

section Steps

variable {s s' : System} {c c' : PodCache} {th th' : Sender}

/-! ## 1. A sender -/

/-- **What a step of sender `t` can do.** -/
inductive SenderMove (c : PodCache) (guid : Text) (enableLogging : Bool) (config : Config)
    (t : Nat) (o : SendOutcome) (th : Sender) : PodCache → Sender → Prop where
  | prepare (hpc : th.pc = .start) :
      SenderMove c guid enableLogging config t o th c (th.prepare c.environ guid)
  | beginPass (hpc : th.pc = .check) :
      SenderMove c guid enableLogging config t o th c (th.beginPass c.closing config)
  | acquired {closing : Bool} {c' : PodCache} (hpc : th.pc = .acquiring closing)
      (hc : c.step (.acquire t) = some c') :
      SenderMove c guid enableLogging config t o th c'
        (th.acquired closing (c'.readers[t]?.bind (·.held))
          (((c'.readers[t]?.bind (·.held)).map c'.podsOf).getD []))
  | sent {p : PassLocals} {r : Nat} {ip : Text} {c' : PodCache} (hpc : th.pc = .sending p)
      (hs : p.snapshot = some r) (hc : c.step (.read t) = some c')
      (hip : (c'.podsOf r)[p.i]? = some ip) :
      SenderMove c guid enableLogging config t o th c' (th.sendTo p ip enableLogging o)
  | sendsEnd {p : PassLocals} {c' : PodCache} (hpc : th.pc = .sending p)
      (hc : p.snapshot = none ∧ c' = c ∨
        ∃ r, p.snapshot = some r ∧ c.step (.read t) = some c' ∧ (c'.podsOf r)[p.i]? = none) :
      SenderMove c guid enableLogging config t o th c' { th with pc := .reporting p }
  | reported {p : PassLocals} {count : Nat} {c' : PodCache} (hpc : th.pc = .reporting p)
      (hc : p.snapshot = none ∧ c' = c ∨
        ∃ r, p.snapshot = some r ∧ c.step (.read t) = some c') :
      SenderMove c guid enableLogging config t o th c' (th.report p count)
  | toFree {p : PassLocals} {r q : Nat} {c' : PodCache} (hpc : th.pc = .releasing p)
      (hs : p.snapshot = some r) (hc : c.step (.release t) = some c')
      (hf : c'.readers[t]?.bind (·.freeing) = some q) :
      SenderMove c guid enableLogging config t o th c' { th with pc := .freeing p.closing }
  | released {p : PassLocals} {c' : PodCache} (hpc : th.pc = .releasing p)
      (hc : p.snapshot = none ∧ c' = c ∨ ∃ r, p.snapshot = some r ∧
        c.step (.release t) = some c' ∧ c'.readers[t]?.bind (·.freeing) = none) :
      SenderMove c guid enableLogging config t o th c' (th.endPass p.closing c'.clock)
  | freed {closing : Bool} {c' : PodCache} (hpc : th.pc = .freeing closing)
      (hc : c.step (.free t) = some c') :
      SenderMove c guid enableLogging config t o th c' (th.endPass closing c'.clock)
  | woken {deadline : Int} (hpc : th.pc = .sleeping deadline)
      (hw : c.closing = true ∨ deadline ≤ c.clock) :
      SenderMove c guid enableLogging config t o th c { th with pc := .check }

section SenderMoves

variable {guid : Text} {enableLogging : Bool} {config : Config} {t : Nat} {o : SendOutcome}

theorem Sender.move_of_step (hst : th.step c guid enableLogging config t o = some (c', th')) :
    SenderMove c guid enableLogging config t o th c' th' := by
  unfold Sender.step at hst
  split at hst
  · rename_i hpc
    obtain ⟨rfl, rfl⟩ := Prod.mk.inj (Option.some.inj hst)
    exact .prepare hpc
  · rename_i hpc
    obtain ⟨rfl, rfl⟩ := Prod.mk.inj (Option.some.inj hst)
    exact .beginPass hpc
  · rename_i closing hpc
    obtain ⟨c1, hc, heq⟩ := Option.map_eq_some_iff.mp hst
    obtain ⟨rfl, rfl⟩ := Prod.mk.inj heq
    exact .acquired hpc hc
  · rename_i p hpc
    split at hst
    · rename_i hs
      obtain ⟨rfl, rfl⟩ := Prod.mk.inj (Option.some.inj hst)
      exact .sendsEnd hpc (Or.inl ⟨hs, rfl⟩)
    · rename_i r hs
      obtain ⟨c1, hc, heq⟩ := Option.map_eq_some_iff.mp hst
      split at heq
      · rename_i hend
        obtain ⟨rfl, rfl⟩ := Prod.mk.inj heq
        exact .sendsEnd hpc (Or.inr ⟨r, hs, hc, hend⟩)
      · rename_i ip hip
        obtain ⟨rfl, rfl⟩ := Prod.mk.inj heq
        exact .sent hpc hs hc hip
  · rename_i p hpc
    split at hst
    · rename_i hs
      obtain ⟨rfl, rfl⟩ := Prod.mk.inj (Option.some.inj hst)
      exact .reported hpc (Or.inl ⟨hs, rfl⟩)
    · rename_i r hs
      obtain ⟨c1, hc, heq⟩ := Option.map_eq_some_iff.mp hst
      obtain ⟨rfl, rfl⟩ := Prod.mk.inj heq
      exact .reported hpc (Or.inr ⟨r, hs, hc⟩)
  · rename_i p hpc
    split at hst
    · rename_i hs
      obtain ⟨rfl, rfl⟩ := Prod.mk.inj (Option.some.inj hst)
      exact .released hpc (Or.inl ⟨hs, rfl⟩)
    · rename_i r hs
      obtain ⟨c1, hc, heq⟩ := Option.map_eq_some_iff.mp hst
      split at heq
      · rename_i q hf
        obtain ⟨rfl, rfl⟩ := Prod.mk.inj heq
        exact .toFree hpc hs hc hf
      · rename_i hf
        obtain ⟨rfl, rfl⟩ := Prod.mk.inj heq
        exact .released hpc (Or.inr ⟨r, hs, hc, hf⟩)
  · rename_i closing hpc
    obtain ⟨c1, hc, heq⟩ := Option.map_eq_some_iff.mp hst
    obtain ⟨rfl, rfl⟩ := Prod.mk.inj heq
    exact .freed hpc hc
  · rename_i deadline hpc
    split at hst
    · rename_i hw
      obtain ⟨rfl, rfl⟩ := Prod.mk.inj (Option.some.inj hst)
      exact .woken hpc hw
    · exact absurd hst (by simp)
  · exact absurd hst (by simp)

/-- A sender moves the cache as the reader of its number. -/
theorem SenderMove.cache (h : SenderMove c guid enableLogging config t o th c' th') :
    c' = c ∨ ∃ b, b.OfReader t ∧ c.step b = some c' := by
  cases h with
  | prepare hpc => exact Or.inl rfl
  | beginPass hpc => exact Or.inl rfl
  | acquired hpc hc => exact Or.inr ⟨.acquire t, rfl, hc⟩
  | sent hpc hs hc hip => exact Or.inr ⟨.read t, rfl, hc⟩
  | sendsEnd hpc hc =>
    rcases hc with ⟨-, rfl⟩ | ⟨r, -, hc, -⟩
    · exact Or.inl rfl
    · exact Or.inr ⟨.read t, rfl, hc⟩
  | reported hpc hc =>
    rcases hc with ⟨-, rfl⟩ | ⟨r, -, hc⟩
    · exact Or.inl rfl
    · exact Or.inr ⟨.read t, rfl, hc⟩
  | toFree hpc hs hc hf => exact Or.inr ⟨.release t, rfl, hc⟩
  | released hpc hc =>
    rcases hc with ⟨-, rfl⟩ | ⟨r, -, hc, -⟩
    · exact Or.inl rfl
    · exact Or.inr ⟨.release t, rfl, hc⟩
  | freed hpc hc => exact Or.inr ⟨.free t, rfl, hc⟩
  | woken hpc hw => exact Or.inl rfl

theorem endPass_fixed (th : Sender) (closing : Bool) (clock : Int) :
    (th.endPass closing clock).joined = th.joined ∧
      (th.endPass closing clock).task = th.task := by
  cases closing <;> exact ⟨rfl, rfl⟩

theorem sendTo_fixed (th : Sender) (p : PassLocals) (ip : Text) :
    (th.sendTo p ip enableLogging o).joined = th.joined ∧
      (th.sendTo p ip enableLogging o).task = th.task := by
  unfold Sender.sendTo
  dsimp only
  split <;> exact ⟨rfl, rfl⟩

/-- A sender keeps its task, is not joined by itself, and ends once. -/
theorem SenderMove.fixed (h : SenderMove c guid enableLogging config t o th c' th') :
    (th'.joined = th.joined ∧ th'.task = th.task) ∧ th.pc ≠ .exited := by
  cases h with
  | prepare hpc => exact ⟨⟨rfl, rfl⟩, by simp [hpc]⟩
  | beginPass hpc => exact ⟨⟨rfl, rfl⟩, by simp [hpc]⟩
  | acquired hpc hc => exact ⟨⟨rfl, rfl⟩, by simp [hpc]⟩
  | sent hpc hs hc hip => exact ⟨sendTo_fixed _ _ _, by simp [hpc]⟩
  | sendsEnd hpc hc => exact ⟨⟨rfl, rfl⟩, by simp [hpc]⟩
  | reported hpc hc => exact ⟨⟨rfl, rfl⟩, by simp [hpc]⟩
  | toFree hpc hs hc hf => exact ⟨⟨rfl, rfl⟩, by simp [hpc]⟩
  | released hpc hc => exact ⟨endPass_fixed _ _ _, by simp [hpc]⟩
  | freed hpc hc => exact ⟨endPass_fixed _ _ _, by simp [hpc]⟩
  | woken hpc hw => exact ⟨⟨rfl, rfl⟩, by simp [hpc]⟩

end SenderMoves

/-! ## 2. The main thread -/

/-- `send_udp_message`, up to its loop, is about `thread_ids` and the patterns. -/
theorem sendUdpMessage_eq (s : System) (o : System.StartOutcome) :
    s.sendUdpMessage o = { s with statics := { s.statics with threadCount := 0 } } ∨
    s.sendUdpMessage o =
      { s with statics := { s.statics with threadCount := 0 }, undefined := true } ∨
    s.sendUdpMessage o =
      { s with statics := { s.statics with threadCount := 0, threadIds := none } } ∨
    ∃ ifaddr patterns, s.sendUdpMessage o =
      { s with
        statics :=
          { s.statics with
            threadCount := 0
            threadIds := some (List.replicate (ifaddr.countP (·.isSome)) none)
            ipPatterns := patterns }
        main := .spawning ifaddr } := by
  unfold System.sendUdpMessage
  dsimp only
  split
  · exact Or.inl rfl
  · rename_i ifaddr hif
    split
    · exact Or.inl rfl
    · split
      · split
        · exact Or.inr (Or.inl rfl)
        · rename_i patterns hp
          exact Or.inr (Or.inr (Or.inr ⟨ifaddr, patterns, rfl⟩))
      · exact Or.inr (Or.inr (Or.inl rfl))

theorem sendUdpMessage_cache (s : System) (o : System.StartOutcome) :
    (s.sendUdpMessage o).cache = s.cache := by
  rcases sendUdpMessage_eq s o with h | h | h | ⟨ifaddr, patterns, h⟩ <;> rw [h]

/-- A cron tick does nothing, or it is the start of this load. -/
theorem cronBroadcastOnce_eq {o : System.StartOutcome} (hst : s.cronBroadcastOnce o = some s') :
    s' = s ∨ s.statics.announced = false ∧ s.cache.closing = false ∧
      ∃ c', s.cache.step (.start o.clientOk o.threadOk) = some c' ∧
        ((s.cache.podCacheStart o.clientOk o.threadOk).2 = false ∧
          s' = { s with
            cache := c'
            statics := { s.statics with announced := true }
            history := { s.history with starts := s.history.starts + 1 } } ∨
        (s.cache.podCacheStart o.clientOk o.threadOk).2 = true ∧
          s' = System.sendUdpMessage { s with
            cache := c'
            statics := { s.statics with announced := true }
            history :=
              { s.history with starts := s.history.starts + 1, cacheStarted := true } } o) := by
  unfold System.cronBroadcastOnce at hst
  split at hst
  · exact Or.inl (Option.some.inj hst).symm
  · rename_i hno
    rw [not_or, Bool.not_eq_true, Bool.not_eq_true] at hno
    refine Or.inr ⟨hno.1, hno.2, ?_⟩
    unfold System.startBroadcasting at hst
    dsimp only at hst
    obtain ⟨c', hc, heq⟩ := Option.map_eq_some_iff.mp hst
    refine ⟨c', hc, ?_⟩
    split at heq
    · rename_i hok
      exact Or.inr ⟨hok, heq.symm⟩
    · rename_i hok
      exact Or.inl ⟨Bool.eq_false_iff.mpr hok, heq.symm⟩

/-- What a cron tick leaves to others: the senders, the host, and what a load has set. -/
theorem cronBroadcastOnce_frame {o : System.StartOutcome}
    (hst : s.cronBroadcastOnce o = some s') :
    s'.senders = s.senders ∧ s'.host = s.host ∧
      s'.statics.redisGuid = s.statics.redisGuid ∧
      s'.statics.enableLogging = s.statics.enableLogging ∧
      s'.statics.globalRedisPort = s.statics.globalRedisPort ∧
      s'.statics.globalRedisTls = s.statics.globalRedisTls := by
  rcases cronBroadcastOnce_eq hst with rfl | ⟨-, -, c', -, ⟨-, rfl⟩ | ⟨-, rfl⟩⟩
  · exact ⟨rfl, rfl, rfl, rfl, rfl, rfl⟩
  · exact ⟨rfl, rfl, rfl, rfl, rfl, rfl⟩
  · rcases sendUdpMessage_eq { s with
        cache := c'
        statics := { s.statics with announced := true }
        history :=
          { s.history with starts := s.history.starts + 1, cacheStarted := true } } o with
      heq | heq | heq | ⟨ifaddr, patterns, heq⟩ <;> rw [heq] <;>
      exact ⟨rfl, rfl, rfl, rfl, rfl, rfl⟩

/-- One round of the loop of `send_udp_message` skips the interface, reaches undefined behaviour,
or creates a sender for it. -/
theorem spawnStep_eq (s : System) (ifa : Option InAddr) (o : System.SpawnOutcome) :
    s.spawnStep ifa o = s ∨ s.spawnStep ifa o = { s with undefined := true } ∨
    ∃ a slots, ifa = some a ∧ s.statics.threadIds = some slots ∧
      s.statics.threadCount < slots.length ∧
      s.spawnStep ifa o =
        { s with
          cache := { s.cache with readers := s.cache.readers ++ [⟨none, none, []⟩] }
          senders := s.senders ++ [Sender.create (BroadcastTask.create (inetNtop a)
            s.statics.globalRedisPort s.statics.globalRedisTls)]
          statics :=
            { s.statics with
              threadIds := some (slots.set s.statics.threadCount (some s.senders.length))
              threadCount := s.statics.threadCount + 1 } } := by
  unfold System.spawnStep
  cases ifa with
  | none => exact Or.inl rfl
  | some a =>
    dsimp only
    split
    · exact Or.inr (Or.inl rfl)
    · exact Or.inl rfl
    · split
      · unfold System.spawn
        dsimp only
        split
        · exact Or.inr (Or.inl rfl)
        · rename_i slots hslots
          split
          · rename_i hlt
            exact Or.inr (Or.inr ⟨a, slots, rfl, hslots, hlt, rfl⟩)
          · exact Or.inr (Or.inl rfl)
      · exact Or.inl rfl

/-- A join that returns: the slot names a sender that has ended, or no thread at all. -/
theorem joinStep_eq {i : Nat} (hst : s.joinStep i = some s') :
    s' = { s with undefined := true } ∧ (∀ t, s.statics.threadIds.bind (·[i]?.join) = some t →
      s.senders[t]? = none) ∨
    ∃ t th, s.statics.threadIds.bind (·[i]?.join) = some t ∧ s.senders[t]? = some th ∧
      th.pc = .exited ∧
      s' = { s with senders := s.senders.set t { th with joined := th.joined + 1 } } := by
  unfold System.joinStep at hst
  split at hst
  · rename_i hnone
    refine Or.inl ⟨(Option.some.inj hst).symm, fun t ht => ?_⟩
    rw [hnone] at ht
    exact absurd ht (by simp)
  · rename_i t ht
    split at hst
    · rename_i hth
      refine Or.inl ⟨(Option.some.inj hst).symm, fun u hu => ?_⟩
      rw [ht, Option.some.injEq] at hu
      exact hu ▸ hth
    · rename_i th hth
      split at hst
      · rename_i hpc
        exact Or.inr ⟨t, th, ht, hth, hpc, (Option.some.inj hst).symm⟩
      · exact absurd hst (by simp)

/-- What a step of the main thread inside the module is, place by place. -/
theorem mainStep_eq {o : System.SpawnOutcome} (hst : s.mainStep o = some s') :
    s.main = .spawning [] ∧ s' = { s with main := .idle } ∨
    (∃ ifa todo, s.main = .spawning (ifa :: todo) ∧
      s' = { s.spawnStep ifa o with main := .spawning todo }) ∨
    (∃ i caller s1, s.main = .joining i caller ∧ i < s.statics.threadCount ∧
      s.joinStep i = some s1 ∧ s' = { s1 with main := .joining (i + 1) caller }) ∨
    (∃ i caller, s.main = .joining i caller ∧ ¬ i < s.statics.threadCount ∧
      s' = { s with
        statics := { s.statics with threadIds := none, threadCount := 0 }
        main := .stopping caller }) ∨
    ∃ caller c', s.main = .stopping caller ∧ s.cache.step .stop = some c' ∧
      s' = if c'.stopper = .idle then System.returnTo { s with cache := c' } caller
        else { s with cache := c' } := by
  unfold System.mainStep at hst
  split at hst
  · exact absurd hst (by simp)
  · rename_i hm
    exact Or.inl ⟨hm, (Option.some.inj hst).symm⟩
  · rename_i ifa todo hm
    exact Or.inr (Or.inl ⟨ifa, todo, hm, (Option.some.inj hst).symm⟩)
  · rename_i i caller hm
    split at hst
    · rename_i hi
      obtain ⟨s1, hj, rfl⟩ := Option.map_eq_some_iff.mp hst
      exact Or.inr (Or.inr (Or.inl ⟨i, caller, s1, hm, hi, hj, rfl⟩))
    · rename_i hi
      exact Or.inr (Or.inr (Or.inr (Or.inl ⟨i, caller, hm, hi, (Option.some.inj hst).symm⟩)))
  · rename_i caller hm
    obtain ⟨c', hc, heq⟩ := Option.map_eq_some_iff.mp hst
    exact Or.inr (Or.inr (Or.inr (Or.inr ⟨caller, c', hm, hc, heq.symm⟩)))

theorem returnTo_cache (s : System) (caller : Caller) : (s.returnTo caller).cache = s.cache := by
  cases caller <;> rfl

theorem mainStep_projects {o : System.SpawnOutcome} (hst : s.mainStep o = some s') :
    s'.cache = s.cache ∨ ∃ b, s.cache.step b = some s'.cache := by
  rcases mainStep_eq hst with ⟨-, rfl⟩ | ⟨ifa, todo, -, rfl⟩ | ⟨i, caller, s1, -, -, hj, rfl⟩ |
    ⟨i, caller, -, -, rfl⟩ | ⟨caller, c', -, hc, rfl⟩
  · exact Or.inl rfl
  · rcases spawnStep_eq s ifa o with h | h | ⟨a, slots, -, -, -, h⟩
    · rw [h]
      exact Or.inl rfl
    · rw [h]
      exact Or.inl rfl
    · rw [h]
      exact Or.inr ⟨.spawnReader, rfl⟩
  · rcases joinStep_eq hj with ⟨rfl, -⟩ | ⟨t, th, -, -, -, rfl⟩ <;> exact Or.inl rfl
  · exact Or.inl rfl
  · refine Or.inr ⟨.stop, ?_⟩
    split
    · rw [returnTo_cache]
      exact hc
    · exact hc

/-! ## 3. The system -/

/-- What a step of sender `t` is. -/
theorem senderStep_eq {t : Nat} {o : SendOutcome} (hst : s.senderStep t o = some s') :
    ∃ th c' th', s.senders[t]? = some th ∧
      th.step s.cache s.statics.redisGuid s.statics.enableLogging s.host.config t o
        = some (c', th') ∧
      s' = { s with cache := c', senders := s.senders.set t th' } := by
  unfold System.senderStep at hst
  obtain ⟨th, hth, hmap⟩ := Option.bind_eq_some_iff.mp hst
  obtain ⟨⟨c', th'⟩, hown, rfl⟩ := Option.map_eq_some_iff.mp hmap
  exact ⟨th, c', th', hth, hown, rfl⟩

/-- What a step of the cache alone is. -/
theorem cacheStep_eq {a : CacheAct} (hst : s.cacheStep a = some s') :
    ∃ c', s.cache.step a = some c' ∧ s' = { s with cache := c' } := by
  unfold System.cacheStep at hst
  obtain ⟨c', hc, rfl⟩ := Option.map_eq_some_iff.mp hst
  exact ⟨c', hc, rfl⟩

/-- A step of the refresher, or the end of what it waits for. -/
def Act.OfRefresher : Act → Prop
  | .refresher => True
  | .fetchEnds _ => True
  | .publishAlloc _ => True
  | _ => False

/-- A callback that is `cleanup_threads`. -/
def Act.CleansUp : Act → Prop
  | .shutdown => True
  | .unload => True
  | _ => False

/-- **What a step of the system can do**, by who takes it. -/
inductive Move (s : System) : Act → System → Prop where
  | tick {ns : Nat} :
      Move s (.tick ns) { s with cache := { s.cache with clock := s.cache.clock + ns } }
  | refresher {a : Act} {b : CacheAct} {c' : PodCache} (hb : b.OfRefresher)
      (hc : s.cache.step b = some c') (ha : a.OfRefresher) : Move s a { s with cache := c' }
  | sender {t : Nat} {o : SendOutcome} {th : Sender} {c' : PodCache} {th' : Sender}
      (hth : s.senders[t]? = some th)
      (hst : SenderMove s.cache s.statics.redisGuid s.statics.enableLogging s.host.config t o th
        c' th') :
      Move s (.sender t o) { s with cache := c', senders := s.senders.set t th' }
  | configSet {config : Config} (hm : s.main = .idle) :
      Move s (.configSet config) { s with host := { s.host with config := config } }
  /-- the name is busy -/
  | refused {o : LoadOutcome} (hm : s.main = .idle) (hbusy : s.host.loaded ∨ o.nameBusy) :
      Move s (.load o) (System.cleanupThreads
        { s with statics := { s.statics with redisGuid := o.guid.bytes } } .refused)
  /-- `curl_global_init` fails -/
  | curlFails {o : LoadOutcome} (hm : s.main = .idle) (hloaded : s.host.loaded = false)
      (hbusy : o.nameBusy = false) (hcurl : o.curlOk = false) :
      Move s (.load o) { System.resetForLoad
        { s with statics := { s.statics with redisGuid := o.guid.bytes } } with
          host := { s.host with result := some false } }
  | load {o : LoadOutcome} (hm : s.main = .idle) (hloaded : s.host.loaded = false)
      (hbusy : o.nameBusy = false) (hcurl : o.curlOk = true) :
      Move s (.load o) (System.completeLoad (System.resetForLoad
        { s with statics := { s.statics with redisGuid := o.guid.bytes } }) o.shutdownOk o.cronOk)
  | cron {o : System.StartOutcome} {s' : System} (hm : s.main = .idle)
      (hhook : s.host.loaded = true ∧ s.host.cronHook = true)
      (hst : s.cronBroadcastOnce o = some s') : Move s (.cron o) s'
  | cleanup {a : Act} {caller : Caller} (hm : s.main = .idle) (hloaded : s.host.loaded = true)
      (ha : a.CleansUp) : Move s a (s.cleanupThreads caller)
  | main {o : System.SpawnOutcome} {s' : System} (hst : s.mainStep o = some s') :
      Move s (.main o) s'

theorem System.move_of_step {a : Act} (hst : s.step a = some s') :
    Move s a s' := by
  unfold System.step at hst
  split at hst
  · exact absurd hst (by simp)
  · cases a with
    | tick ns => exact Option.some.inj hst ▸ .tick
    | configSet config =>
      dsimp only at hst
      split at hst
      · rename_i hm
        exact Option.some.inj hst ▸ .configSet hm
      · exact absurd hst (by simp)
    | load o =>
      dsimp only at hst
      split at hst
      · rename_i hm
        rw [← Option.some.inj hst]
        unfold System.redisModuleOnLoad
        dsimp only
        split
        · rename_i hbusy
          exact .refused hm hbusy
        · rename_i hfree
          rw [not_or, Bool.not_eq_true, Bool.not_eq_true] at hfree
          split
          · rename_i hcurl
            exact .load hm hfree.1 hfree.2 hcurl
          · rename_i hcurl
            exact .curlFails hm hfree.1 hfree.2 (Bool.eq_false_iff.mpr hcurl)
      · exact absurd hst (by simp)
    | cron o =>
      dsimp only at hst
      split at hst
      · rename_i hm
        exact .cron hm.1 hm.2 hst
      · exact absurd hst (by simp)
    | shutdown =>
      dsimp only at hst
      split at hst
      · rename_i hm
        exact Option.some.inj hst ▸ .cleanup hm.1 hm.2.1 trivial
      · exact absurd hst (by simp)
    | unload =>
      dsimp only at hst
      split at hst
      · rename_i hm
        exact Option.some.inj hst ▸ .cleanup hm.1 hm.2 trivial
      · exact absurd hst (by simp)
    | main o => exact .main hst
    | refresher =>
      obtain ⟨c', hc, rfl⟩ := cacheStep_eq hst
      exact .refresher (b := .refresher) trivial hc trivial
    | fetchEnds b =>
      obtain ⟨c', hc, rfl⟩ := cacheStep_eq hst
      exact .refresher (b := .fetchEnds b) trivial hc trivial
    | publishAlloc ok =>
      obtain ⟨c', hc, rfl⟩ := cacheStep_eq hst
      exact .refresher (b := .publishAlloc ok) trivial hc trivial
    | sender t o =>
      obtain ⟨th, c', th', hth, hown, rfl⟩ := senderStep_eq hst
      exact .sender hth (Sender.move_of_step hown)

/-- The step of the cache in a move, if it takes one. -/
theorem Move.cache {a : Act} (h : Move s a s') :
    s'.cache = s.cache ∨ ∃ b, s.cache.step b = some s'.cache := by
  cases h with
  | @tick ns => exact Or.inr ⟨.tick ns, rfl⟩
  | refresher hb hc ha => exact Or.inr ⟨_, hc⟩
  | sender hth hst =>
    rcases hst.cache with rfl | ⟨b, -, hb⟩
    · exact Or.inl rfl
    · exact Or.inr ⟨b, hb⟩
  | configSet hm => exact Or.inl rfl
  | refused hm hbusy => exact Or.inr ⟨.closingBegin, rfl⟩
  | curlFails hm hloaded hbusy hcurl => exact Or.inr ⟨.closingReset, rfl⟩
  | load hm hloaded hbusy hcurl => exact Or.inr ⟨.closingReset, rfl⟩
  | cron hm hhook hst =>
    rcases cronBroadcastOnce_eq hst with rfl | ⟨-, -, c', hc, ⟨-, rfl⟩ | ⟨-, rfl⟩⟩
    · exact Or.inl rfl
    · exact Or.inr ⟨_, hc⟩
    · rw [sendUdpMessage_cache]
      exact Or.inr ⟨_, hc⟩
  | cleanup hm hloaded ha => exact Or.inr ⟨.closingBegin, rfl⟩
  | main hst => exact mainStep_projects hst

/-- The environment is that of the process. -/
theorem Move.environ (h : CacheInv s.cache) {a : Act} (hmv : Move s a s') :
    s'.cache.environ = s.cache.environ := by
  rcases hmv.cache with heq | ⟨b, hb⟩
  · rw [heq]
  · exact h.environ_step hb

/-- **The cache in the system is the cache alone**: what is reached in the system is reached
there. -/
theorem System.Reachable.cache (h : s.Reachable) : s.cache.Reachable := by
  refine Lts.Reachable.project h ?_ fun t a u ht hst => (System.move_of_step hst).cache
  rintro t ⟨e, clock, config, rfl⟩
  exact ⟨e, clock, rfl⟩

end Steps

end Unicaster
