/-
# A load behind other loads

Where `MODULE UNLOAD` leaves the object in the process, the file-scope variables of one load are
there in the next.  `RedisModule_OnLoad` assigns some of them, `closing_reset` one, and
`cleanup_threads` has emptied the others; `max_age` is written by `pod_cache_start` before a
thread exists that reads it.  `enable_logging` alone is only ever raised, so a load is as the
first one exactly when that makes no difference.
-/
import Unicaster.LifeCycle

namespace Unicaster

open CLib

/-! ## 1. The variables -/

/-- The file-scope variables that are read before they are written again: those of `unicaster.c`
but the GUID, which every load draws anew, the flag of `closing.c`, and those of `pod_cache.c`
but `max_age`. -/
structure FileScope where
  enableLogging : Bool
  globalRedisPort : Int
  globalRedisTls : Bool
  redisBindIps : List Text
  allowAllInterfaces : Bool
  threadIds : Option (List (Option Nat))
  threadCount : Nat
  ipPatterns : List (Option Text)
  announced : Bool
  closing : Bool
  current : Option Nat
  refresherRunning : Bool
  client : Option Nat

def System.fileScope (s : System) : FileScope where
  enableLogging := s.statics.enableLogging
  globalRedisPort := s.statics.globalRedisPort
  globalRedisTls := s.statics.globalRedisTls
  redisBindIps := s.statics.redisBindIps
  allowAllInterfaces := s.statics.allowAllInterfaces
  threadIds := s.statics.threadIds
  threadCount := s.statics.threadCount
  ipPatterns := s.statics.ipPatterns
  announced := s.statics.announced
  closing := s.cache.closing
  current := s.cache.current
  refresherRunning := s.cache.refresherRunning
  client := s.cache.client

/-- The step is a load that gets as far as the loglevel, and finds it verbose. -/
def verboseLoad (s : System) (a : Act) : Bool :=
  match a with
  | .load o =>
    !s.host.loaded && !o.nameBusy && o.curlOk && isVerbose s.host.config.loglevel
  | _ => false

/-- A step of the system, and whether there was such a load so far. -/
def System.verboseStep (x : System × Bool) (a : Act) : Option (System × Bool) :=
  (x.1.step a).map fun s' => (s', x.2 || verboseLoad x.1 a)

section Reload

variable {s s' : System}

/-! ## 2. `enable_logging` -/

/-- No callback but a load touches `enable_logging`. -/
theorem mainStep_enableLogging {o : System.SpawnOutcome} (hst : s.mainStep o = some s') :
    s'.statics.enableLogging = s.statics.enableLogging := by
  rcases mainStep_eq hst with ⟨-, rfl⟩ | ⟨ifa, todo, -, rfl⟩ | ⟨i, caller, s₁, -, -, hj, rfl⟩ |
    ⟨i, caller, -, -, rfl⟩ | ⟨caller, c', -, -, rfl⟩
  · rfl
  · rcases spawnStep_eq s ifa o with heq | heq | ⟨a, slots, -, -, -, heq⟩ <;> rw [heq]
  · rcases joinStep_eq hj with ⟨rfl, -⟩ | ⟨t, th, -, -, -, rfl⟩ <;> rfl
  · rfl
  · split
    · cases caller <;> rfl
    · rfl

/-- **What a step does to `enable_logging`**: a verbose load raises it. -/
theorem Move.enableLogging {a : Act} (h : Move s a s') :
    s'.statics.enableLogging = (s.statics.enableLogging || verboseLoad s a) := by
  cases h with
  | tick => exact (Bool.or_false _).symm
  | refresher hb hc ha =>
    cases a <;> first | exact ha.elim | exact (Bool.or_false _).symm
  | sender hth hst => exact (Bool.or_false _).symm
  | configSet hm => exact (Bool.or_false _).symm
  | @refused o hm hbusy =>
    have hno : verboseLoad s (.load o) = false := by
      rcases hbusy with hl | hb
      · simp [verboseLoad, hl]
      · simp [verboseLoad, hb]
    rw [hno, Bool.or_false]
    rfl
  | @curlFails o hm hloaded hbusy hcurl =>
    have hno : verboseLoad s (.load o) = false := by simp [verboseLoad, hcurl]
    rw [hno, Bool.or_false]
    rfl
  | @load o hm hloaded hbusy hcurl =>
    have hyes : verboseLoad s (.load o) = isVerbose s.host.config.loglevel := by
      simp [verboseLoad, hloaded, hbusy, hcurl]
    rw [hyes]
    rfl
  | @cron o s' hm hhook hst =>
    obtain ⟨-, -, -, hkeep, -⟩ := cronBroadcastOnce_frame hst
    rw [hkeep]
    exact (Bool.or_false _).symm
  | cleanup hm hloaded ha =>
    cases a <;> first | exact ha.elim | exact (Bool.or_false _).symm
  | main hst =>
    rw [mainStep_enableLogging hst]
    exact (Bool.or_false _).symm

/-- Along a run `enable_logging` says whether any load was verbose. -/
theorem enableLogging_run {e : Environ} {clock : Int} {config : Config} {verbose : Bool}
    (hr : Lts.Run System.verboseStep Lts.free (System.init e clock config, false) (s, verbose)) :
    s.Reachable ∧ s.cache.environ = e ∧ s.statics.enableLogging = verbose := by
  refine hr.invariant (I := fun x => x.1.Reachable ∧ x.1.cache.environ = e ∧
    x.1.statics.enableLogging = x.2)
    ⟨Lts.Reachable.of_init ⟨e, clock, config, rfl⟩, rfl, rfl⟩ ?_
  rintro ⟨t, v⟩ a x ⟨ht, hen, hv⟩ - hst
  obtain ⟨u, hu, rfl⟩ := Option.map_eq_some_iff.mp hst
  have hmv := System.move_of_step hu
  refine ⟨ht.next hu, (hmv.environ ht.cache.inv).trans hen, ?_⟩
  rw [hmv.enableLogging, hv]

/-! ## 3. `max_age` -/

/-- **No thread reads `max_age` before it is that of the environment.** -/
theorem System.Reachable.maxAge (h : s.Reachable)
    (halive : s.cache.refresher ≠ none ∨ ∃ th ∈ s.senders, th.pc ≠ .exited) :
    s.cache.maxAge = s.cache.environ.getPodsMaxAge := by
  refine h.cache.books.maxAge ?_
  rcases halive with href | ⟨th, hth, hpc⟩
  · rw [h.cache.inv.running]
    exact Option.isSome_iff_ne_none.mpr href
  · obtain ⟨t, ht⟩ := List.mem_iff_getElem?.mp hth
    have hlt := (List.getElem?_eq_some_iff.mp ht).1
    have hge : s.settled ≤ t := Nat.not_lt.mp fun hjoined => hpc (h.life.joined t th ht hjoined).2
    refine (h.life.running (Nat.pos_of_ne_zero fun h0 => ?_)).1
    unfold System.settled at hge
    omega

/-! ## 4. The load -/

/-- **A load is as a first one** in a process of its own **exactly when** no load before it was
verbose, or it is verbose itself.  Nothing of the loads before it is alive, and what later reads
`max_age` reads that of the environment. -/
theorem reload_as_first_iff (e : Environ) (clock : Int) (config : Config) (verbose : Bool)
    (hr : Lts.Run System.verboseStep Lts.free (System.init e clock config, false) (s, verbose))
    (o : LoadOutcome) (hnew : NewLoad s (.load o)) (hcurl : o.curlOk = true)
    (hst : s.step (.load o) = some s') :
    (s'.fileScope =
        ((System.init e s.cache.clock s.host.config).redisModuleOnLoad o).fileScope ↔
      verbose = false ∨ isVerbose s.host.config.loglevel = true) ∧
    ((∀ th ∈ s'.senders, th.pc = .exited) ∧ s'.cache.refresher = none) ∧
    ∀ u, Lts.Run System.step Lts.free s' u →
      (u.cache.refresher ≠ none ∨ ∃ th ∈ u.senders, th.pc ≠ .exited) →
        u.cache.maxAge = e.getPodsMaxAge := by
  obtain ⟨hreach, hen, hlog⟩ := enableLogging_run hr
  have hreach' : s'.Reachable := hreach.next hst
  have hen' := ((System.move_of_step hst).environ hreach.cache.inv).trans hen
  obtain ⟨o', ho, hloaded, hfree⟩ := hnew
  obtain rfl := Act.load.inj ho
  cases System.move_of_step hst with
  | refresher hb hc ha => exact ha.elim
  | refused hm hbusy => simp [hloaded, hfree] at hbusy
  | curlFails hm _ _ hfail =>
    rw [hcurl] at hfail
    exact absurd hfail (by simp)
  | cleanup hm hl ha => exact ha.elim
  | load hm _ _ _ =>
    have hclosed := hreach.closed hm fun hlive => by
      rw [hlive.1] at hloaded
      exact absurd hloaded (by simp)
    refine ⟨?_, ⟨fun th hth => (hclosed.senders th hth).1, hclosed.refresher⟩, ?_⟩
    · have hfirst : (System.init e s.cache.clock s.host.config).redisModuleOnLoad o =
          ((System.resetForLoad
            { System.init e s.cache.clock s.host.config with
              statics :=
                { (System.init e s.cache.clock s.host.config).statics with
                  redisGuid := o.guid.bytes } }).completeLoad o.shutdownOk o.cronOk) := by
        unfold System.redisModuleOnLoad
        dsimp only
        rw [if_neg (by simp [System.init, hfree]), if_pos hcurl]
      rw [hfirst]
      simp only [System.fileScope, System.completeLoad, System.resetForLoad, System.init,
        FileScope.mk.injEq, hclosed.threadIds, hclosed.threadCount, hclosed.patterns,
        hclosed.current, hclosed.running, hclosed.client, hen, hlog, PodCache.init, and_true,
        Bool.false_or]
      cases verbose <;> cases isVerbose s.host.config.loglevel <;> simp
    · intro u hu halive
      obtain ⟨hu', hue⟩ := hu.invariant (I := fun t => t.Reachable ∧ t.cache.environ = e)
        ⟨hreach', hen'⟩ fun t a v ht _ hv =>
          ⟨ht.1.next hv, ((System.move_of_step hv).environ ht.1.cache.inv).trans ht.2⟩
      rw [hu'.maxAge halive, hue]

/-- A plaintext server with this loglevel. -/
def logging (loglevel : Text) : Config :=
  { portsConfig (ascii "6379") (ascii "0") with loglevel := .string loglevel }

/-- `MODULE UNLOAD` of a module that has not announced. -/
def unloadUnused : List Act := .unload :: List.replicate 5 mainOk

/-- A load, an unload and a load again, at `notice` all the time. -/
theorem reload_as_first_notice :
    ∃ s s' : System, s.Reachable ∧ s.step plainLoad = some s' ∧
      s'.fileScope = ((System.init {} s.cache.clock s.host.config).redisModuleOnLoad
        ⟨zeroGuid, false, true, true, true⟩).fileScope := by
  have hview : (Lts.exec System.verboseStep
      (System.init {} 0 (logging (ascii "notice")), false) (plainLoad :: unloadUnused)).map
        (fun x => (x.1.host.loaded, x.2, (x.1.step plainLoad).isSome)) =
      some (false, false, true) := rfl
  obtain ⟨⟨s, verbose⟩, hs, heq⟩ := Option.map_eq_some_iff.mp hview
  obtain ⟨hloaded, hrest⟩ := Prod.mk.inj heq
  obtain ⟨hverbose, hstep⟩ := Prod.mk.inj hrest
  obtain ⟨s', hst⟩ := Option.isSome_iff_exists.mp hstep
  have hr := Lts.run_of_exec hs
  exact ⟨s, s', (enableLogging_run hr).1, hst,
    (reload_as_first_iff _ _ _ _ hr _ ⟨_, rfl, hloaded, rfl⟩ rfl hst).1.mpr (Or.inl hverbose)⟩

/-- The first load finds the loglevel verbose, the second one finds it at `notice`, and goes on
logging every datagram. -/
theorem reload_not_as_first :
    ∃ s s' : System, s.Reachable ∧ s.step plainLoad = some s' ∧
      s.host.loaded = false ∧ s'.host.result = some true ∧
      isVerbose s.host.config.loglevel = false ∧ s'.statics.enableLogging = true ∧
      s'.fileScope ≠ ((System.init {} s.cache.clock s.host.config).redisModuleOnLoad
        ⟨zeroGuid, false, true, true, true⟩).fileScope := by
  have hview : (Lts.exec System.step (System.init {} 0 (logging (ascii "verbose")))
      (plainLoad :: unloadUnused ++ [.configSet (logging (ascii "notice"))])).bind
        (fun s => (s.step plainLoad).map fun s' =>
          (s.host.loaded, s'.host.result, isVerbose s.host.config.loglevel,
            s'.fileScope.enableLogging,
            ((System.init {} s.cache.clock s.host.config).redisModuleOnLoad
              ⟨zeroGuid, false, true, true, true⟩).fileScope.enableLogging)) =
      some (false, some true, false, true, false) := rfl
  obtain ⟨s, hs, hmap⟩ := Option.bind_eq_some_iff.mp hview
  obtain ⟨s', hst, heq⟩ := Option.map_eq_some_iff.mp hmap
  simp only [Prod.mk.injEq] at heq
  obtain ⟨hloaded, hresult, hquiet, hlog, hfirst⟩ := heq
  refine ⟨s, s', Lts.reachable_of_exec ⟨_, _, _, rfl⟩ hs, hst, hloaded, hresult, hquiet, hlog,
    fun hsame => ?_⟩
  rw [hsame, hfirst] at hlog
  exact absurd hlog (by simp)

end Reload

end Unicaster
