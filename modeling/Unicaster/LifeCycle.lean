/-
# Load, announce, close

The invariant of the main thread's variables (`LifeInv`), and what follows from it for the life
cycle: who exists when, who was joined how often, and what `cleanup_threads` leaves behind.

Everything is read off the place where the main thread stands.  Senders are numbered in the
order of their creation and joined in that order, so the joined ones are the first `settled` of
them, and `thread_ids` names the others.
-/
import Unicaster.ModuleSteps
import Unicaster.CacheLife

namespace Unicaster

open CLib

/-! ## 1. The invariant of the main thread -/

namespace System

variable (s : System)

/-- How many senders were joined: those of earlier loads, and in `cleanup_threads` the first `i`
of this one. -/
def settled : Nat :=
  s.senders.length - s.statics.threadCount +
    match s.main with
    | .joining i _ => i
    | _ => 0

/-- The module is loaded and announcing. -/
def Live : Prop :=
  s.host.loaded = true ∧ s.statics.announced = true ∧ s.cache.closing = false

/-- Nothing of a start is left. -/
def Clean : Prop :=
  s.statics.threadIds = none ∧ s.statics.threadCount = 0 ∧ s.cache.refresherRunning = false ∧
    s.statics.ipPatterns = []

/-- What holds where the main thread stands. -/
def Place : MainPc → Prop
  | .idle => s.cache.stopper = .idle ∧ (¬ s.Live → s.Clean)
  | .spawning todo =>
    s.cache.stopper = .idle ∧ s.Live ∧ s.cache.refresherRunning = true ∧
      s.history.cacheStarted = true ∧
      ∃ slots, s.statics.threadIds = some slots ∧
        s.statics.threadCount + todo.countP (·.isSome) ≤ slots.length
  | .joining i _ =>
    s.cache.stopper = .idle ∧ s.cache.closing = true ∧ i ≤ s.statics.threadCount
  | .stopping _ =>
    s.cache.closing = true ∧ s.statics.threadIds = none ∧ s.statics.threadCount = 0

end System

structure LifeInv (s : System) : Prop where
  count_le : s.statics.threadCount ≤ s.senders.length
  /-- `thread_ids` names the senders that are not joined, and behind them those being joined -/
  slots : ∀ j < s.statics.threadCount, s.statics.threadIds.bind (·[j]?.join)
    = some (s.senders.length - s.statics.threadCount + j)
  joined : ∀ t th, s.senders[t]? = some th → t < s.settled → th.joined = 1 ∧ th.pc = .exited
  fresh : ∀ t th, s.senders[t]? = some th → s.settled ≤ t → th.joined = 0
  place : s.Place s.main
  running : 0 < s.statics.threadCount →
    s.cache.refresherRunning = true ∧ s.history.cacheStarted = true
  starts : s.history.starts ≤ 1
  starts_zero : s.statics.announced = false → s.history.starts = 0
  /-- no list is there only as long as none was published in this load -/
  unpublished : s.cache.refresherRunning = true ∨ s.cache.closing = false →
    s.cache.current = none → s.cache.nextSnap = s.history.base

section Life

variable {s s' : System}

/-- The main thread stays where it is, and what it writes stays as it is. -/
structure Aside (s s' : System) : Prop where
  statics : s'.statics = s.statics
  main : s'.main = s.main
  loaded : s'.host.loaded = s.host.loaded
  history : s'.history = s.history
  closing : s'.cache.closing = s.cache.closing
  running : s'.cache.refresherRunning = s.cache.refresherRunning
  stopper : s'.cache.stopper = s.cache.stopper
  length : s'.senders.length = s.senders.length
  senders : ∀ (t : Nat) (th' : Sender), s'.senders[t]? = some th' →
    ∃ th : Sender, s.senders[t]? = some th ∧ th'.joined = th.joined ∧
      (th.pc = .exited → th'.pc = .exited)
  published : s'.cache.current = none →
    s.cache.current = none ∧ s'.cache.nextSnap = s.cache.nextSnap

theorem Aside.settled (h : Aside s s') : s'.settled = s.settled := by
  simp only [System.settled, h.length, h.statics, h.main]

theorem Aside.live (h : Aside s s') : s'.Live ↔ s.Live := by
  simp only [System.Live, h.loaded, h.statics, h.closing]

theorem Aside.clean (h : Aside s s') : s'.Clean ↔ s.Clean := by
  simp only [System.Clean, h.statics, h.running]

theorem LifeInv.aside (h : LifeInv s) (ha : Aside s s') : LifeInv s' where
  count_le := by
    rw [ha.statics, ha.length]
    exact h.count_le
  slots := by
    rw [ha.statics, ha.length]
    exact h.slots
  joined := by
    intro t th' hth' ht
    obtain ⟨th, hth, hj, hpc⟩ := ha.senders t th' hth'
    obtain ⟨h1, h2⟩ := h.joined t th hth (ha.settled ▸ ht)
    exact ⟨hj.trans h1, hpc h2⟩
  fresh := by
    intro t th' hth' ht
    obtain ⟨th, hth, hj, -⟩ := ha.senders t th' hth'
    exact hj.trans (h.fresh t th hth (ha.settled ▸ ht))
  place := by
    have hp := h.place
    rw [ha.main]
    cases hm : s.main <;> rw [hm] at hp <;>
      simpa only [System.Place, ha.stopper, ha.live, ha.clean, ha.running, ha.history, ha.statics,
        ha.closing] using hp
  running := by
    rw [ha.statics, ha.running, ha.history]
    exact h.running
  starts := by
    rw [ha.history]
    exact h.starts
  starts_zero := by
    rw [ha.statics, ha.history]
    exact h.starts_zero
  unpublished := by
    intro hor hcur
    obtain ⟨hcur', hns⟩ := ha.published hcur
    rw [ha.running, ha.closing] at hor
    rw [hns, ha.history]
    exact h.unpublished hor hcur'

/-- A thread of the cache moves. -/
theorem Aside.thread (h : CacheInv s.cache) {b : CacheAct} {c' : PodCache} (hb : ¬ b.OfMain)
    (hc : s.cache.step b = some c') : Aside s { s with cache := c' } := by
  obtain ⟨h1, h2, h3, h4⟩ := h.thread_step hb hc
  exact ⟨rfl, rfl, rfl, rfl, h1, h2, h3, rfl, fun t th' hth' => ⟨th', hth', rfl, id⟩, h4⟩

/-- A sender moves. -/
theorem Aside.sender (h : CacheInv s.cache) {t : Nat} {o : SendOutcome} {th th' : Sender}
    {c' : PodCache} (hth : s.senders[t]? = some th)
    (hst : SenderMove s.cache s.statics.redisGuid s.statics.enableLogging s.host.config t o th
      c' th') :
    Aside s { s with cache := c', senders := s.senders.set t th' } := by
  have hcache : c'.closing = s.cache.closing ∧
      c'.refresherRunning = s.cache.refresherRunning ∧ c'.stopper = s.cache.stopper ∧
      (c'.current = none → s.cache.current = none ∧ c'.nextSnap = s.cache.nextSnap) := by
    rcases hst.cache with rfl | ⟨b, hb, hc⟩
    · exact ⟨rfl, rfl, rfl, fun hcur => ⟨hcur, rfl⟩⟩
    · exact h.thread_step hb.not_main hc
  obtain ⟨h1, h2, h3, h4⟩ := hcache
  obtain ⟨⟨hj, -⟩, hne⟩ := hst.fixed
  refine ⟨rfl, rfl, rfl, rfl, h1, h2, h3, List.length_set, fun u th1 hu => ?_, h4⟩
  rw [List.getElem?_set] at hu
  split at hu
  · rename_i htu
    split at hu
    · rw [← Option.some.inj hu]
      exact ⟨th, htu ▸ hth, hj, fun he => absurd he hne⟩
    · exact absurd hu (by simp)
  · exact ⟨th1, hu, rfl, id⟩

/-- No refresher runs behind the first step of `pod_cache_stop`. -/
theorem CacheBooks.stopped_running {c c' : PodCache} (h : CacheBooks c) (hmv : StopMove c c') :
    c'.closing = c.closing ∧ c'.refresherRunning = false := by
  have hp := h.place
  cases hmv with
  | join hs hrun hth hpc => exact ⟨rfl, rfl⟩
  | noRefresher hs hrun => exact ⟨rfl, hrun⟩
  | destroy hs hcl =>
    rw [hs] at hp
    exact ⟨rfl, hp⟩
  | detach hs =>
    rw [hs] at hp
    exact ⟨rfl, hp.1⟩
  | noList hs =>
    rw [hs] at hp
    exact ⟨rfl, hp.1⟩
  | dropLast hs h0 =>
    rw [hs] at hp
    exact ⟨rfl, hp.1⟩
  | drop hs h0 =>
    rw [hs] at hp
    exact ⟨rfl, hp.1⟩
  | free hs =>
    rw [hs] at hp
    exact ⟨rfl, hp.1⟩

/-! ## 2. Each callback keeps it -/

/-- An idle main thread with nothing announced has a clean desk. -/
theorem LifeInv.clean (h : LifeInv s) (hm : s.main = .idle) (hno : ¬ s.Live) : s.Clean := by
  have hp := h.place
  rw [hm] at hp
  exact hp.2 hno

theorem LifeInv.stopper_idle (h : LifeInv s) (hm : s.main = .idle) : s.cache.stopper = .idle := by
  have hp := h.place
  rw [hm] at hp
  exact hp.1

theorem settled_of_not_joining (h : ∀ i caller, s.main ≠ .joining i caller) :
    s.settled = s.senders.length - s.statics.threadCount := by
  unfold System.settled
  split
  · rename_i i caller hm
    exact absurd hm (h i caller)
  · rfl

theorem settled_of_joining {i : Nat} {caller : Caller} (h : s.main = .joining i caller) :
    s.settled = s.senders.length - s.statics.threadCount + i := by
  simp only [System.settled, h]

theorem LifeInv.guid (h : LifeInv s) (g : Text) :
    LifeInv { s with statics := { s.statics with redisGuid := g } } :=
  ⟨h.count_le, h.slots, h.joined, h.fresh, by
    have hp := h.place
    change System.Place _ s.main
    cases hm : s.main <;> rw [hm] at hp <;> exact hp, h.running, h.starts, h.starts_zero,
    h.unpublished⟩

/-- `cleanup_threads` is entered. -/
theorem LifeInv.cleanupThreads (h : LifeInv s) (hm : s.main = .idle) (caller : Caller) :
    LifeInv (s.cleanupThreads caller) where
  count_le := h.count_le
  slots := h.slots
  joined := by
    have hset := settled_of_not_joining (s := s) (by simp [hm])
    have hset' : (s.cleanupThreads caller).settled = s.settled := by
      rw [hset]
      rfl
    intro t th hth ht
    exact h.joined t th hth (hset' ▸ ht)
  fresh := by
    have hset := settled_of_not_joining (s := s) (by simp [hm])
    have hset' : (s.cleanupThreads caller).settled = s.settled := by
      rw [hset]
      rfl
    intro t th hth ht
    exact h.fresh t th hth (hset' ▸ ht)
  place := ⟨h.stopper_idle hm, rfl, Nat.zero_le _⟩
  running := h.running
  starts := h.starts
  starts_zero := h.starts_zero
  unpublished := by
    rintro (hrun | hno)
    · exact h.unpublished (Or.inl hrun)
    · exact absurd hno (by simp [System.cleanupThreads])

/-- A load that is not refused starts on a clean desk. -/
theorem LifeInv.load (h : LifeInv s) (hm : s.main = .idle) (hloaded : s.host.loaded = false)
    (statics : Statics) (host : Host)
    (hst : statics.threadIds = s.statics.threadIds ∧
      statics.threadCount = s.statics.threadCount ∧ statics.ipPatterns = s.statics.ipPatterns ∧
      statics.announced = false) (config : Config) :
    LifeInv
      { s with
        cache := { s.cache with closing := false }
        statics := statics
        host := host
        history := ⟨0, false, config, s.cache.nextSnap⟩ } := by
  obtain ⟨h1, h2, h3, h4⟩ := hst
  have hclean := h.clean hm (fun hl => by rw [hl.1] at hloaded; exact absurd hloaded (by simp))
  obtain ⟨hc1, hc2, hc3, hc4⟩ := hclean
  have hset := settled_of_not_joining (s := s) (by simp [hm])
  refine ⟨?_, ?_, ?_, ?_, ?_, ?_, Nat.zero_le _, fun _ => rfl, fun _ _ => rfl⟩
  · change statics.threadCount ≤ s.senders.length
    rw [h2]
    exact h.count_le
  · change ∀ j < statics.threadCount, _
    rw [h2, hc2]
    exact fun j hj => absurd hj (Nat.not_lt_zero j)
  · intro t th hth ht
    refine h.joined t th hth ?_
    simp only [System.settled, h2, hm] at ht ⊢
    exact ht
  · intro t th hth ht
    refine h.fresh t th hth ?_
    simp only [System.settled, h2, hm] at ht ⊢
    exact ht
  · change System.Place _ s.main
    rw [hm]
    exact ⟨h.stopper_idle hm, fun _ => ⟨h1.trans hc1, h2.trans hc2, hc3, h3.trans hc4⟩⟩
  · change 0 < statics.threadCount → _
    rw [h2, hc2]
    exact fun hlt => absurd hlt (Nat.lt_irrefl 0)

/-- `start_broadcasting` ran, and no sender exists yet; the main thread is idle or about to walk
the interfaces. -/
theorem LifeInv.started (h : LifeInv s) (hm : s.main = .idle) (hloaded : s.host.loaded = true)
    (hno : s.statics.announced = false) {c' : PodCache} {o : System.StartOutcome}
    (hclosing : s.cache.closing = false)
    (hc : s.cache.step (.start o.clientOk o.threadOk) = some c')
    (statics : Statics) (main : MainPc) (cacheStarted undefined : Bool)
    (hst : statics.threadCount = 0 ∧ statics.announced = true)
    (hmain : main = .idle ∨ c'.refresherRunning = true ∧ cacheStarted = true ∧
      ∃ todo slots, main = .spawning todo ∧ statics.threadIds = some slots ∧
        todo.countP (·.isSome) ≤ slots.length) :
    LifeInv
      { s with
        cache := c'
        statics := statics
        main := main
        history :=
          { s.history with starts := s.history.starts + 1, cacheStarted := cacheStarted }
        undefined := undefined } := by
  obtain ⟨h2, h4⟩ := hst
  have hidle := h.stopper_idle hm
  simp only [PodCache.step, hidle, Option.some.injEq] at hc
  subst hc
  obtain ⟨-, hc2, hc3, -⟩ := h.clean hm (fun hl => by
    rw [hl.2.1] at hno
    exact absurd hno (by simp))
  have hmv := s.cache.startMove o.clientOk o.threadOk
  have hq := hmv.quiet
  obtain ⟨-, hstop, hcl, -, -⟩ := hmv.frame
  have hset := settled_of_not_joining (s := s) (by simp [hm])
  have hset' : ∀ t, t < System.settled
      { s with
        cache := (s.cache.podCacheStart o.clientOk o.threadOk).1
        statics := statics
        main := main
        history :=
          { s.history with starts := s.history.starts + 1, cacheStarted := cacheStarted }
        undefined := undefined } ↔ t < s.settled := by
    intro t
    rw [hset, hc2, settled_of_not_joining, h2]
    rcases hmain with rfl | ⟨-, -, todo, slots, rfl, -⟩
    · simp
    · simp
  refine ⟨?_, ?_, ?_, ?_, ?_, ?_, ?_, ?_, ?_⟩
  · change statics.threadCount ≤ _
    rw [h2]
    exact Nat.zero_le _
  · change ∀ j < statics.threadCount, _
    rw [h2]
    exact fun j hj => absurd hj (Nat.not_lt_zero j)
  · intro t th hth ht
    exact h.joined t th hth ((hset' t).mp ht)
  · intro t th hth ht
    exact h.fresh t th hth (Nat.le_of_not_lt fun hlt => Nat.not_lt.mpr ht ((hset' t).mpr hlt))
  · have hlive : s.host.loaded = true ∧ statics.announced = true ∧
        (s.cache.podCacheStart o.clientOk o.threadOk).1.closing = false :=
      ⟨hloaded, h4, hcl.trans hclosing⟩
    rcases hmain with rfl | ⟨hrun, hcs, todo, slots, rfl, hslots, hle⟩
    · exact ⟨hstop.trans hidle, fun hn => absurd hlive hn⟩
    · refine ⟨hstop.trans hidle, hlive, hrun, hcs, slots, hslots, ?_⟩
      change statics.threadCount + _ ≤ _
      rw [h2, Nat.zero_add]
      exact hle
  · change 0 < statics.threadCount → _
    rw [h2]
    exact fun hlt => absurd hlt (Nat.lt_irrefl 0)
  · change s.history.starts + 1 ≤ 1
    rw [h.starts_zero hno]
  · change statics.announced = false → _
    rw [h4]
    exact fun hno => absurd hno (by simp)
  · intro _ hcur
    change (s.cache.podCacheStart o.clientOk o.threadOk).1.nextSnap = s.history.base
    rw [hq.nextSnap]
    exact h.unpublished (Or.inr hclosing) (hq.current ▸ hcur)

theorem LifeInv.cron (h : LifeInv s) (hm : s.main = .idle) (hloaded : s.host.loaded = true)
    {o : System.StartOutcome} (hst : s.cronBroadcastOnce o = some s') : LifeInv s' := by
  rcases cronBroadcastOnce_eq hst with rfl | ⟨hno, hclosing, c', hc, ⟨-, rfl⟩ | ⟨hok, rfl⟩⟩
  · exact h
  · obtain ⟨-, hc2, -⟩ := h.clean hm (fun hl => by
      rw [hl.2.1] at hno
      exact absurd hno (by simp))
    exact h.started hm hloaded hno hclosing hc { s.statics with announced := true } s.main
      s.history.cacheStarted s.undefined ⟨hc2, rfl⟩ (Or.inl hm)
  · have hidle := h.stopper_idle hm
    have hrun : c'.refresherRunning = true := by
      have hc' := hc
      simp only [PodCache.step, hidle, Option.some.injEq] at hc'
      obtain ⟨-, -, -, -, hrun⟩ := (s.cache.startMove o.clientOk o.threadOk).frame
      exact hc' ▸ hrun hok
    have hs := h.started hm hloaded hno hclosing hc
    rcases sendUdpMessage_eq { s with
        cache := c'
        statics := { s.statics with announced := true }
        history :=
          { s.history with starts := s.history.starts + 1, cacheStarted := true } } o with
      heq | heq | heq | ⟨ifaddr, patterns, heq⟩ <;> rw [heq]
    · exact hs { s.statics with announced := true, threadCount := 0 } s.main true s.undefined
        ⟨rfl, rfl⟩ (Or.inl hm)
    · exact hs { s.statics with announced := true, threadCount := 0 } s.main true true
        ⟨rfl, rfl⟩ (Or.inl hm)
    · exact hs { s.statics with announced := true, threadCount := 0, threadIds := none } s.main
        true s.undefined ⟨rfl, rfl⟩ (Or.inl hm)
    · refine hs { s.statics with
          announced := true
          threadCount := 0
          threadIds := some (List.replicate (ifaddr.countP (·.isSome)) none)
          ipPatterns := patterns } (.spawning ifaddr) true s.undefined
        ⟨rfl, rfl⟩ (Or.inr ⟨hrun, rfl, ifaddr, _, rfl, rfl, ?_⟩)
      rw [List.length_replicate]

/-- The loop of `send_udp_message` goes on to the next interface, or ends. -/
theorem LifeInv.walk (h : LifeInv s) {todo : List (Option InAddr)} {main : MainPc}
    (hm : s.main = .spawning todo) (undefined : Bool)
    (hmain : main = .idle ∨ ∃ todo', main = .spawning todo' ∧
      todo'.countP (·.isSome) ≤ todo.countP (·.isSome)) :
    LifeInv { s with main := main, undefined := undefined } := by
  have hset := settled_of_not_joining (s := s) (by simp [hm])
  have hset' : System.settled { s with main := main, undefined := undefined } = s.settled := by
    rw [hset, settled_of_not_joining]
    rcases hmain with rfl | ⟨todo', rfl, -⟩ <;> simp
  have hp := h.place
  rw [hm] at hp
  obtain ⟨hidle, hlive, hrun, hcs, slots, hslots, hle⟩ := hp
  refine ⟨h.count_le, h.slots, ?_, ?_, ?_, h.running, h.starts, h.starts_zero, h.unpublished⟩
  · rw [hset']
    exact h.joined
  · rw [hset']
    exact h.fresh
  · rcases hmain with rfl | ⟨todo', rfl, hle'⟩
    · exact ⟨hidle, fun hn => absurd hlive hn⟩
    · exact ⟨hidle, hlive, hrun, hcs, slots, hslots, by
        change s.statics.threadCount + _ ≤ _
        omega⟩

/-- One more sender, and its slot. -/
theorem LifeInv.spawned (h : LifeInv s) {a : InAddr} {todo : List (Option InAddr)}
    {slots : List (Option Nat)} (hm : s.main = .spawning (some a :: todo))
    (hslots : s.statics.threadIds = some slots) (hlt : s.statics.threadCount < slots.length)
    (readers : List Reader) (task : BroadcastTask) :
    LifeInv
      { s with
        cache := { s.cache with readers := readers }
        senders := s.senders ++ [Sender.create task]
        statics :=
          { s.statics with
            threadIds := some (slots.set s.statics.threadCount (some s.senders.length))
            threadCount := s.statics.threadCount + 1 }
        main := .spawning todo } := by
  have hset := settled_of_not_joining (s := s) (by simp [hm])
  have hle := h.count_le
  have hset' : (s.senders ++ [Sender.create task]).length - (s.statics.threadCount + 1) + 0
      = s.settled := by
    rw [hset, List.length_append, List.length_singleton]
    omega
  have hp := h.place
  rw [hm] at hp
  obtain ⟨hidle, hlive, hrun, hcs, slots', hslots', hroom⟩ := hp
  obtain rfl : slots' = slots := Option.some.inj (hslots'.symm.trans hslots)
  refine ⟨?_, ?_, ?_, ?_, ?_, fun _ => ⟨hrun, hcs⟩, h.starts, h.starts_zero, h.unpublished⟩
  · change s.statics.threadCount + 1 ≤ (s.senders ++ [Sender.create task]).length
    rw [List.length_append, List.length_singleton]
    omega
  · intro j hj
    have hj' : j < s.statics.threadCount + 1 := hj
    change (slots'.set s.statics.threadCount (some s.senders.length))[j]?.join
      = some ((s.senders ++ [Sender.create task]).length - (s.statics.threadCount + 1) + j)
    rw [List.length_append, List.length_singleton]
    by_cases hjk : j = s.statics.threadCount
    · subst hjk
      rw [List.getElem?_set_self hlt, Option.join_some]
      congr 1
      omega
    · have hold := h.slots j (by omega)
      rw [hslots, Option.bind_some] at hold
      rw [List.getElem?_set_ne (Ne.symm hjk), hold]
      congr 1
      omega
  · intro t th hth ht
    have ht' : t < s.settled := hset' ▸ ht
    rcases List.getElem?_concat_cases hth with ⟨-, hth⟩ | ⟨rfl, -⟩
    · exact h.joined t th hth ht'
    · omega
  · intro t th hth ht
    have ht' : s.settled ≤ t := hset' ▸ ht
    rcases List.getElem?_concat_cases hth with ⟨-, hth⟩ | ⟨-, rfl⟩
    · exact h.fresh t th hth ht'
    · rfl
  · refine ⟨hidle, hlive, hrun, hcs, _, rfl, ?_⟩
    change s.statics.threadCount + 1 + _ ≤ _
    rw [List.length_set]
    rw [List.countP_cons_of_pos (by rfl)] at hroom
    omega

/-- The next sender is joined. -/
theorem LifeInv.joinNext (h : LifeInv s) {i : Nat} {caller : Caller}
    (hm : s.main = .joining i caller) (hi : i < s.statics.threadCount) {s1 : System}
    (hj : s.joinStep i = some s1) :
    LifeInv { s1 with main := .joining (i + 1) caller } := by
  have hle := h.count_le
  have hset := settled_of_joining hm
  have hslot := h.slots i hi
  have hlt : s.settled < s.senders.length := by omega
  rw [← hset] at hslot
  rcases joinStep_eq hj with ⟨-, hnone⟩ | ⟨t, th, ht, hth, hpc, rfl⟩
  · exact absurd (hnone _ hslot) (by rw [List.getElem?_eq_getElem hlt]; simp)
  · obtain rfl : t = s.settled := Option.some.inj (ht.symm.trans hslot)
    have hset' : System.settled
        { s with
          senders := s.senders.set s.settled { th with joined := th.joined + 1 }
          main := .joining (i + 1) caller } = s.settled + 1 := by
      rw [settled_of_joining rfl]
      change (s.senders.set _ _).length - s.statics.threadCount + (i + 1) = s.settled + 1
      rw [List.length_set]
      omega
    have hp := h.place
    rw [hm] at hp
    obtain ⟨hidle, hclosing, -⟩ := hp
    refine ⟨?_, ?_, ?_, ?_, ⟨hidle, hclosing, hi⟩, h.running, h.starts, h.starts_zero,
      h.unpublished⟩
    · change s.statics.threadCount ≤ (s.senders.set _ _).length
      rw [List.length_set]
      exact hle
    · intro j hj
      change _ = some ((s.senders.set _ _).length - s.statics.threadCount + j)
      rw [List.length_set]
      exact h.slots j hj
    · intro u thu hu hlt'
      rw [hset'] at hlt'
      rcases List.getElem?_set_cases hu with ⟨hne, hu⟩ | ⟨-, rfl, -⟩
      · exact h.joined u thu hu (by omega)
      · exact ⟨by rw [h.fresh _ _ hth (Nat.le_refl _)], hpc⟩
    · intro u thu hu hge
      rw [hset'] at hge
      rcases List.getElem?_set_cases hu with ⟨hne, hu⟩ | ⟨rfl, -, -⟩
      · exact h.fresh u thu hu (by omega)
      · omega

/-- The loop of `cleanup_threads` is over: no sender is left. -/
theorem LifeInv.allJoined (h : LifeInv s) {i : Nat} {caller : Caller}
    (hm : s.main = .joining i caller) (hi : ¬ i < s.statics.threadCount) :
    LifeInv
      { s with
        statics := { s.statics with threadIds := none, threadCount := 0 }
        main := .stopping caller } := by
  have hset := settled_of_joining hm
  have hle := h.count_le
  have hp := h.place
  rw [hm] at hp
  obtain ⟨hidle, hclosing, hik⟩ := hp
  have hall : s.settled = s.senders.length := by omega
  refine ⟨Nat.zero_le _, fun j hj => absurd hj (Nat.not_lt_zero j), ?_, ?_,
    ⟨hclosing, rfl, rfl⟩, fun hlt => absurd hlt (Nat.lt_irrefl 0), h.starts, h.starts_zero,
    h.unpublished⟩
  · intro t th hth ht
    exact h.joined t th hth (hall ▸ (List.getElem?_eq_some_iff.mp hth).1)
  · intro t th hth ht
    have hlt : t < s.senders.length := (List.getElem?_eq_some_iff.mp hth).1
    have hge : s.senders.length - 0 + 0 ≤ t := ht
    omega

/-- A step of `pod_cache_stop`, the last of which returns to the server. -/
theorem LifeInv.stopping (h : LifeInv s) (hi : CacheInv s.cache) (hb : CacheBooks s.cache)
    {caller : Caller} (hm : s.main = .stopping caller) {c' : PodCache}
    (hc : s.cache.step .stop = some c') :
    LifeInv (if c'.stopper = .idle then System.returnTo { s with cache := c' } caller
      else { s with cache := c' }) := by
  obtain ⟨hcl, hrun⟩ := hb.stopped_running (hi.stopMove hc)
  have hset := settled_of_not_joining (s := s) (by simp [hm])
  have hp := h.place
  rw [hm] at hp
  obtain ⟨hclosing, hids, hk⟩ := hp
  have hstays : c'.refresherRunning = true ∨ c'.closing = false → False := by
    rw [hrun, hcl, hclosing]
    simp
  split
  · rename_i hidle
    have hclean : System.Clean (System.returnTo { s with cache := c' } caller) := by
      cases caller <;> exact ⟨hids, hk, hrun, rfl⟩
    have hset' : System.settled (System.returnTo { s with cache := c' } caller) = s.settled := by
      rw [hset]
      cases caller <;> rfl
    refine ⟨?_, ?_, ?_, ?_, ?_, ?_, ?_, ?_, ?_⟩
    · cases caller <;> exact h.count_le
    · cases caller <;> exact h.slots
    · rw [hset']
      cases caller <;> exact h.joined
    · rw [hset']
      cases caller <;> exact h.fresh
    · cases caller <;> exact ⟨hidle, fun _ => hclean⟩
    · rw [hclean.2.1]
      exact fun hlt => absurd hlt (Nat.lt_irrefl 0)
    · cases caller <;> exact h.starts
    · cases caller <;> exact h.starts_zero
    · rw [returnTo_cache]
      exact fun hor => (hstays hor).elim
  · refine ⟨h.count_le, h.slots, h.joined, h.fresh, ?_, ?_, h.starts, h.starts_zero,
      fun hor => (hstays hor).elim⟩
    · change System.Place _ s.main
      rw [hm]
      exact ⟨hcl.trans hclosing, hids, hk⟩
    · change 0 < s.statics.threadCount → _
      rw [hk]
      exact fun hlt => absurd hlt (Nat.lt_irrefl 0)

theorem LifeInv.mainStep (h : LifeInv s) (hc : s.cache.Reachable) {o : System.SpawnOutcome}
    (hst : s.mainStep o = some s') : LifeInv s' := by
  rcases mainStep_eq hst with ⟨hm, rfl⟩ | ⟨ifa, todo, hm, rfl⟩ | ⟨i, caller, s1, hm, hi, hj, rfl⟩ |
    ⟨i, caller, hm, hi, rfl⟩ | ⟨caller, c', hm, hstop, rfl⟩
  · exact h.walk hm s.undefined (Or.inl rfl)
  · have hless : todo.countP (·.isSome) ≤ (ifa :: todo).countP (·.isSome) := by
      rw [List.countP_cons]
      exact Nat.le_add_right _ _
    rcases spawnStep_eq s ifa o with heq | heq | ⟨a, slots, rfl, hslots, hlt, heq⟩
    · rw [heq]
      exact h.walk hm s.undefined (Or.inr ⟨todo, rfl, hless⟩)
    · rw [heq]
      exact h.walk hm true (Or.inr ⟨todo, rfl, hless⟩)
    · rw [heq]
      exact h.spawned hm hslots hlt _ _
  · exact h.joinNext hm hi hj
  · exact h.allJoined hm hi
  · exact h.stopping hc.inv hc.books hm hstop

theorem LifeInv.move (h : LifeInv s) (hc : s.cache.Reachable) {a : Act} (hmv : Move s a s') :
    LifeInv s' := by
  cases hmv with
  | @tick ns => exact h.aside (Aside.thread hc.inv (b := .tick ns) id rfl)
  | refresher hb hst ha => exact h.aside (Aside.thread hc.inv hb.not_main hst)
  | sender hth hst => exact h.aside (Aside.sender hc.inv hth hst)
  | configSet hm =>
    exact h.aside ⟨rfl, rfl, rfl, rfl, rfl, rfl, rfl, rfl, fun t th hth => ⟨th, hth, rfl, id⟩,
      fun hcur => ⟨hcur, rfl⟩⟩
  | @refused o hm hbusy => exact (h.guid o.guid.bytes).cleanupThreads hm .refused
  | @curlFails o hm hloaded hbusy hcurl =>
    let r := System.resetForLoad { s with statics := { s.statics with redisGuid := o.guid.bytes } }
    exact (h.guid o.guid.bytes).load hm hloaded r.statics _ ⟨rfl, rfl, rfl, rfl⟩ _
  | @load o hm hloaded hbusy hcurl =>
    let r := (System.resetForLoad
      { s with statics := { s.statics with redisGuid := o.guid.bytes } }).completeLoad
        o.shutdownOk o.cronOk
    exact (h.guid o.guid.bytes).load hm hloaded r.statics r.host ⟨rfl, rfl, rfl, rfl⟩ _
  | cron hm hhook hst => exact h.cron hm hhook.1 hst
  | cleanup hm hloaded ha => exact h.cleanupThreads hm _
  | main hst => exact h.mainStep hc hst

theorem LifeInv.init (h : s.Initial) : LifeInv s := by
  obtain ⟨e, clock, config, rfl⟩ := h
  exact ⟨Nat.le_refl 0, fun j hj => absurd hj (Nat.not_lt_zero j),
    fun t th hth => absurd hth (by simp [System.init]),
    fun t th hth => absurd hth (by simp [System.init]), ⟨rfl, fun _ => ⟨rfl, rfl, rfl, rfl⟩⟩,
    fun hlt => absurd hlt (Nat.lt_irrefl 0), Nat.zero_le 1, fun _ => rfl, fun _ _ => rfl⟩

/-- **The life cycle's invariant holds in every reachable state.** -/
theorem System.Reachable.life (h : s.Reachable) : LifeInv s := by
  have hboth : s.cache.Reachable ∧ LifeInv s := by
    refine Lts.Reachable.invariant (I := fun t => t.cache.Reachable ∧ LifeInv t) h ?_ ?_
    · rintro t ⟨e, clock, config, rfl⟩
      exact ⟨Lts.Reachable.of_init ⟨e, clock, rfl⟩, LifeInv.init ⟨e, clock, config, rfl⟩⟩
    · intro t a u ht hst
      have hmv := System.move_of_step hst
      refine ⟨?_, ht.2.move ht.1 hmv⟩
      rcases hmv.cache with heq | ⟨b, hb⟩
      · exact heq ▸ ht.1
      · exact ht.1.next hb
  exact hboth.2

end Life

/-! ## 3. Within one load, and behind `cleanup_threads` -/

/-- The step is a load that gets past `RedisModule_Init`. -/
def NewLoad (s : System) (a : Act) : Prop :=
  ∃ o, a = .load o ∧ s.host.loaded = false ∧ o.nameBusy = false

/-- The side condition of the runs within one load. -/
def SameLoad (s : System) (a : Act) : Prop := ¬ NewLoad s a

/-- The side condition of the runs inside one callback. -/
def InCall (s : System) (_ : Act) : Prop := s.main ≠ .idle

/-- Nothing of the module is alive, and its variables are empty. -/
structure Closed (s : System) : Prop where
  senders : ∀ th ∈ s.senders, th.pc = .exited ∧ th.joined = 1
  refresher : s.cache.refresher = none
  refreshers : ∀ n ∈ s.cache.refreshers, n = 1
  clients : ∀ n ∈ s.cache.clients, n = 1
  threadIds : s.statics.threadIds = none
  threadCount : s.statics.threadCount = 0
  running : s.cache.refresherRunning = false
  client : s.cache.client = none
  current : s.cache.current = none
  patterns : s.statics.ipPatterns = []

section Results

variable {s s' : System}

/-- **A main thread that is idle and not announcing has left nothing behind.** -/
theorem System.Reachable.closed (h : s.Reachable) (hm : s.main = .idle) (hno : ¬ s.Live) :
    Closed s := by
  have hl := h.life
  have hb := h.cache.books
  obtain ⟨hids, hk, hrun, hpat⟩ := hl.clean hm hno
  have hset := settled_of_not_joining (s := s) (by simp [hm])
  have hidle := hl.stopper_idle hm
  have hp := hb.place
  rw [hidle] at hp
  obtain ⟨hclient, hcur⟩ := hp hrun
  refine ⟨fun th hth => ?_, ?_, fun n hn => ?_, fun n hn => ?_, hids, hk, hrun, hclient, hcur,
    hpat⟩
  · obtain ⟨t, ht⟩ := List.mem_iff_getElem?.mp hth
    have hlt : t < s.senders.length := (List.getElem?_eq_some_iff.mp ht).1
    obtain ⟨hj, hpc⟩ := hl.joined t th ht (by omega)
    exact ⟨hpc, hj⟩
  · have hr := h.cache.inv.running
    rw [hrun] at hr
    exact Option.not_isSome_iff_eq_none.mp (by rw [← hr]; simp)
  · obtain ⟨k, hk⟩ := List.mem_iff_getElem?.mp hn
    rw [hb.refreshers k n hk, hrun]
    simp
  · obtain ⟨k, hk⟩ := List.mem_iff_getElem?.mp hn
    rw [hb.clients k n hk, hclient]
    simp

/-- **Behind the closing signal**, within one load: the flag stays, nothing is started and no
sender is created. -/
theorem System.Reachable.closing_step (h : s.Reachable) (hcl : s.cache.closing = true) {a : Act}
    (hok : SameLoad s a) (hst : s.step a = some s') :
    s'.cache.closing = true ∧ s'.history = s.history ∧
      s'.senders.length = s.senders.length := by
  cases System.move_of_step hst with
  | tick => exact ⟨hcl, rfl, rfl⟩
  | refresher hb hc ha =>
    exact ⟨((h.cache.inv.refresher_step hb hc).2.2.closing).trans hcl, rfl, rfl⟩
  | sender hth hmv =>
    refine ⟨?_, rfl, List.length_set⟩
    rcases hmv.cache with rfl | ⟨b, hb, hc⟩
    · exact hcl
    · exact (h.cache.inv.thread_step hb.not_main hc).1.trans hcl
  | configSet hm => exact ⟨hcl, rfl, rfl⟩
  | refused hm hbusy => exact ⟨rfl, rfl, rfl⟩
  | curlFails hm hloaded hbusy hcurl => exact absurd ⟨_, rfl, hloaded, hbusy⟩ hok
  | load hm hloaded hbusy hcurl => exact absurd ⟨_, rfl, hloaded, hbusy⟩ hok
  | cron hm hhook hst =>
    rcases cronBroadcastOnce_eq hst with rfl | ⟨-, hno, -⟩
    · exact ⟨hcl, rfl, rfl⟩
    · rw [hcl] at hno
      exact absurd hno (by simp)
  | cleanup hm hloaded ha => exact ⟨rfl, rfl, rfl⟩
  | main hst =>
    have hp := h.life.place
    rcases mainStep_eq hst with ⟨hm, rfl⟩ | ⟨ifa, todo, hm, rfl⟩ |
      ⟨i, caller, s1, hm, hi, hj, rfl⟩ | ⟨i, caller, hm, hi, rfl⟩ | ⟨caller, c', hm, hc, rfl⟩
    · exact ⟨hcl, rfl, rfl⟩
    · rw [hm] at hp
      have hno : s.cache.closing = false := hp.2.1.2.2
      rw [hcl] at hno
      exact absurd hno (by simp)
    · rcases joinStep_eq hj with ⟨rfl, -⟩ | ⟨t, th, -, -, -, rfl⟩
      · exact ⟨hcl, rfl, rfl⟩
      · exact ⟨hcl, rfl, List.length_set⟩
    · exact ⟨hcl, rfl, rfl⟩
    · have hcl' : c'.closing = true :=
        (h.cache.books.stopped_running (h.cache.inv.stopMove hc)).1.trans hcl
      split
      · cases caller <;> exact ⟨hcl', rfl, rfl⟩
      · exact ⟨hcl', rfl, rfl⟩

theorem System.Reachable.closing_run (h : s.Reachable) (hcl : s.cache.closing = true)
    (hr : Lts.Run System.step SameLoad s s') :
    s'.cache.closing = true ∧ s'.history = s.history ∧
      s'.senders.length = s.senders.length := by
  have hall : s'.Reachable ∧ s'.cache.closing = true ∧ s'.history = s.history ∧
      s'.senders.length = s.senders.length := by
    refine hr.invariant (I := fun t => t.Reachable ∧ t.cache.closing = true ∧
      t.history = s.history ∧ t.senders.length = s.senders.length) ⟨h, hcl, rfl, rfl⟩ ?_
    rintro t a u ⟨ht, h1, h2, h3⟩ hok hst
    obtain ⟨h1', h2', h3'⟩ := ht.closing_step h1 hok hst
    exact ⟨ht.next hst, h1', h2'.trans h2, h3'.trans h3⟩
  exact hall.2

/-- Where `pod_cache_stop` goes from one place to the next, having nothing to stop. -/
def StopPc.next : StopPc → StopPc
  | .idle => .destroy
  | .destroy => .detach
  | .detach => .release none
  | .release _ => .idle
  | .free _ => .idle

/-- With no refresher, no client and no list, a step of `pod_cache_stop` only goes on. -/
theorem stopStep_empty {c c' : PodCache} (hrun : c.refresherRunning = false)
    (hclient : c.client = none) (hcur : c.current = none)
    (hplace : ∀ r, c.stopper ≠ .release (some r) ∧ c.stopper ≠ .free r)
    (hst : c.stopStep = some c') : c' = { c with stopper := c.stopper.next } := by
  unfold PodCache.stopStep at hst
  cases hpc : c.stopper with
  | idle =>
    simp only [hpc] at hst
    rw [if_neg (by simp [hrun])] at hst
    exact (Option.some.inj hst).symm
  | destroy =>
    have hsame : ({ c with client := none } : PodCache) = c := by rw [← hclient]
    simp only [hpc, PodCache.podListClientDestroy, hclient, Option.some.injEq] at hst
    rw [← hst]
    exact congrArg (fun d : PodCache => { d with stopper := .detach }) hsame
  | detach =>
    have hsame : ({ c with current := none } : PodCache) = c := by rw [← hcur]
    simp only [hpc, hcur, Option.some.injEq] at hst
    rw [← hst]
    exact congrArg (fun d : PodCache => { d with stopper := .release none }) hsame
  | release previous =>
    cases previous with
    | none =>
      simp only [hpc, Option.some.injEq] at hst
      exact hst.symm
    | some r => exact absurd hpc (hplace r).1
  | free r => exact absurd hpc (hplace r).2

/-- The state `s` at a moment of a `cleanup_threads` that finds nothing to clean up. -/
def System.idling (s : System) (clock : Int) (stopper : StopPc) (main : MainPc) : System :=
  { s with
    cache := { s.cache with closing := true, clock := clock, stopper := stopper }
    main := main }

/-- The moments of such a `cleanup_threads`, to its return. -/
def Idling (s : System) (caller : Caller) (t : System) : Prop :=
  (∃ clock, t = s.idling clock .idle (.joining 0 caller)) ∨
    (∃ clock stopper, (∀ r, stopper ≠ .release (some r) ∧ stopper ≠ .free r) ∧
      t = s.idling clock stopper (.stopping caller)) ∨
    ∃ clock, t = (s.idling clock .idle .idle).returnTo caller

/-- With every thread gone, only the clock and the main thread move inside a call. -/
theorem System.Reachable.call_step (h : s.Reachable) (hcall : s.main ≠ .idle)
    (href : s.cache.refresher = none) (hsend : ∀ th ∈ s.senders, th.pc = .exited) {a : Act}
    (hst : s.step a = some s') :
    (∃ ns : Nat, s' = { s with cache := { s.cache with clock := s.cache.clock + ns } }) ∨
      ∃ o, s.mainStep o = some s' := by
  cases System.move_of_step hst with
  | @tick ns => exact Or.inl ⟨ns, rfl⟩
  | refresher hb hstc ha => exact absurd href (h.cache.inv.refresher_step hb hstc).1
  | sender hth hmv => exact absurd (hsend _ (List.mem_of_getElem? hth)) hmv.fixed.2
  | configSet hm => exact absurd hm hcall
  | refused hm hbusy => exact absurd hm hcall
  | curlFails hm hloaded hbusy hcurl => exact absurd hm hcall
  | load hm hloaded hbusy hcurl => exact absurd hm hcall
  | cron hm hhook hst => exact absurd hm hcall
  | cleanup hm hloaded ha => exact absurd hm hcall
  | main hst => exact Or.inr ⟨_, hst⟩

theorem Idling.step (hc : Closed s) {caller : Caller} {t u : System} {a : Act}
    (ht : t.Reachable) (h : Idling s caller t) (hcall : t.main ≠ .idle)
    (hst : t.step a = some u) : Idling s caller u := by
  rcases h with ⟨clock, rfl⟩ | ⟨clock, stopper, hplace, rfl⟩ | ⟨clock, rfl⟩
  · rcases ht.call_step hcall hc.refresher (fun th hth => (hc.senders th hth).1) hst with
      ⟨ns, rfl⟩ | ⟨o, hmain⟩
    · exact Or.inl ⟨clock + ns, rfl⟩
    · have hsame : ({ s.statics with threadIds := none, threadCount := 0 } : Statics)
          = s.statics := by
        rw [← hc.threadIds, ← hc.threadCount]
      have hnone : ∀ i, ¬ i < s.statics.threadCount := by
        rw [hc.threadCount]
        exact Nat.not_lt_zero
      simp only [System.mainStep, System.idling, hnone, if_false, Option.some.injEq] at hmain
      rw [← hmain, hsame]
      exact Or.inr (Or.inl ⟨clock, .idle, by simp, rfl⟩)
  · rcases ht.call_step hcall hc.refresher (fun th hth => (hc.senders th hth).1) hst with
      ⟨ns, rfl⟩ | ⟨o, hmain⟩
    · exact Or.inr (Or.inl ⟨clock + ns, stopper, hplace, rfl⟩)
    · simp only [System.mainStep, System.idling, Option.map_eq_some_iff] at hmain
      obtain ⟨c', hstop, hu⟩ := hmain
      have hc' := stopStep_empty (c := (s.idling clock stopper (.stopping caller)).cache)
        hc.running hc.client hc.current hplace hstop
      split at hu
      · rename_i hn
        rw [hc'] at hn
        have hn' : stopper.next = .idle := hn
        refine Or.inr (Or.inr ⟨clock, ?_⟩)
        rw [← hu, hc']
        dsimp only [System.idling]
        rw [hn']
        cases caller <;> rfl
      · refine Or.inr (Or.inl ⟨clock, stopper.next, ?_, ?_⟩)
        · cases stopper <;> simp [StopPc.next]
        · rw [← hu, hc']
          rfl
  · exact absurd (by cases caller <;> rfl) hcall

/-- **A `cleanup_threads` that finds nothing to clean up changes nothing** but the flag it
raises; the clock goes on. -/
theorem System.Reachable.cleanup_idle (h : s.Reachable) (hc : Closed s) {caller : Caller}
    (hr : Lts.Run System.step InCall (s.cleanupThreads caller) s')
    (hent : (s.cleanupThreads caller).Reachable) (hm : s.main = .idle) (hm' : s'.main = .idle) :
    s' = (s.idling s'.cache.clock .idle .idle).returnTo caller := by
  have hidle := h.life.stopper_idle hm
  have hstart : Idling s caller (s.cleanupThreads caller) := by
    refine Or.inl ⟨s.cache.clock, ?_⟩
    simp only [System.idling, ← hidle]
    rfl
  have hall : s'.Reachable ∧ Idling s caller s' := by
    refine hr.invariant (I := fun t => t.Reachable ∧ Idling s caller t) ⟨hent, hstart⟩ ?_
    rintro t a u ⟨ht, hi⟩ hcall hst
    exact ⟨ht.next hst, hi.step hc ht hcall hst⟩
  rcases hall.2 with ⟨clock, rfl⟩ | ⟨clock, stopper, -, rfl⟩ | ⟨clock, rfl⟩
  · exact absurd hm' (by simp [System.idling])
  · exact absurd hm' (by simp [System.idling])
  · cases caller <;> rfl

end Results

end Unicaster
