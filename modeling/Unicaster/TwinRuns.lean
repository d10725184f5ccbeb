/-
# Pairs of runs

Three results about two runs of the module, each from a pair of states that are twins.  Neither
`bind` nor `loglevel` makes a difference to what is announced; nor does the reading of
`CLOCK_MONOTONIC` at which the process was started; and a module that is loaded behind any other
loads announces what one announces that is loaded for the first time (`reload_runs_as_first`).
-/
import Unicaster.Twins

namespace Unicaster

open CLib

section Pairs

variable {s s' : System}

/-- The processes before any load, the second one started so many seconds later. -/
theorem twinSystem_init (e : Environ) (clock seconds : Int) {config config' : Config}
    (h : SamePorts config config') (sameLevel : Bool)
    (hlevel : sameLevel = true → config'.loglevel = config.loglevel) :
    TwinSystem ⟨0, 0, 0, seconds, [], sameLevel⟩ (System.init e clock config)
      (System.init e (clock + seconds * nsPerSecond) config') where
  cache :=
    { environ := rfl
      clock := rfl
      closing := rfl
      current := rfl
      maxAge := fun _ => rfl
      running := rfl
      refresher := Option.Rel.none
      stopper := rfl
      threads := rfl
      readers := fun _ => rfl
      nextSnap := rfl
      snaps := fun r hr => absurd hr (Nat.not_lt_zero r)
      nextList := rfl
      lists := fun l hl => absurd hl (Nat.not_lt_zero l)
      log := rfl }
  threads := rfl
  senders := fun _ => Option.Rel.none
  statics := ⟨rfl, rfl, rfl, rfl, rfl, rfl, rfl, fun _ => rfl⟩
  main := rfl
  host := ⟨rfl, rfl, rfl, h, hlevel, rfl⟩
  undefined := rfl

theorem Act.after_zero (a : Act) : a.after 0 = a := by
  cases a with
  | sender t o => exact congrArg (Act.sender · o) (Nat.zero_add t)
  | _ => rfl

/-- Without senders before them the actions are the same. -/
theorem TwinAct.refl {ρ : Offset} (h : ρ.thread = 0) (a : Act) : TwinAct ρ a a := by
  have hsame : TwinAct ρ a (a.after ρ.thread) := TwinAct.same a
  rwa [h, Act.after_zero] at hsame

/-! ## 1. `bind` and `loglevel` -/

/-- The same is done, or a `CONFIG SET` that names the same ports. -/
inductive SamePortsAct : Act → Act → Prop where
  | same (a : Act) : SamePortsAct a a
  | configSet {config config' : Config} (h : SamePorts config config') :
      SamePortsAct (.configSet config) (.configSet config')

/-- **Neither `bind` nor `loglevel` makes a difference** to what is announced and to whom, nor to
what is said about failures, whatever they are changed to and whenever. -/
theorem bind_and_loglevel_inert (e : Environ) (clock : Int) (config config' : Config)
    (h : SamePorts config config') (as bs : List Act) (hab : List.Forall₂ SamePortsAct as bs) :
    Option.Rel (fun s s' => s'.outside 0 0 = s.outside 0 0 ∧ s'.host.result = s.host.result)
      (Lts.exec System.step (System.init e clock config) as)
      (Lts.exec System.step (System.init e clock config') bs) := by
  have htwin := twinSystem_init e clock 0 h false fun hno => Bool.noConfusion hno
  rw [Int.zero_mul, Int.add_zero] at htwin
  have hacts : List.Forall₂ (TwinAct ⟨0, 0, 0, 0, [], false⟩) as bs := by
    refine hab.imp fun a b hab => ?_
    cases hab with
    | same => exact TwinAct.refl rfl a
    | configSet hports => exact TwinAct.configSet hports fun hno => Bool.noConfusion hno
  refine Lts.rel_mono (htwin.exec (Lts.Reachable.of_init ⟨e, clock, config, rfl⟩) hacts) ?_
  exact fun u u' hu => ⟨hu.outside, hu.host.result⟩

/-- A server that listens on one address and logs every datagram. -/
def verboseConfig : Config :=
  ⟨.string (ascii "6379"), .string (ascii "0"), .string (ascii "10.0.0.1"),
    .string (ascii "verbose")⟩

/-- A pass over one pod, at a verbose loglevel and at another. -/
theorem bind_and_loglevel_inert_verbose :
    ∃ s s' : System,
      Lts.exec System.step (System.init {} 0 (portsConfig (ascii "6379") (ascii "0")))
        (.configSet verboseConfig :: startUp ++ refreshRound ++ senderOk :: passOverOne) = some s ∧
      Lts.exec System.step (System.init {} 0 verboseConfig)
        (.configSet (portsConfig (ascii "6379") (ascii "0")) :: startUp ++ refreshRound
          ++ senderOk :: passOverOne) = some s' ∧
      s'.outside 0 0 = s.outside 0 0 ∧ (s.outside 0 0).heard.map List.length = [1] := by
  have hports : SamePorts (portsConfig (ascii "6379") (ascii "0")) verboseConfig := ⟨rfl, rfl⟩
  have hback : SamePorts verboseConfig (portsConfig (ascii "6379") (ascii "0")) := ⟨rfl, rfl⟩
  have hrel := bind_and_loglevel_inert {} 0 _ _ hports
    (.configSet verboseConfig :: startUp ++ refreshRound ++ senderOk :: passOverOne)
    (.configSet (portsConfig (ascii "6379") (ascii "0")) :: startUp ++ refreshRound
      ++ senderOk :: passOverOne)
    (List.Forall₂.cons (.configSet hback) (List.forall₂_same.mpr fun a _ => .same a))
  have hview : (Lts.exec System.step (System.init {} 0 (portsConfig (ascii "6379") (ascii "0")))
      (.configSet verboseConfig :: startUp ++ refreshRound ++ senderOk :: passOverOne)).map
        (fun s => (s.outside 0 0).heard.map List.length) = some [1] := rfl
  obtain ⟨s, hs, hheard⟩ := Option.map_eq_some_iff.mp hview
  rw [hs] at hrel
  generalize hs' : Lts.exec System.step (System.init {} 0 verboseConfig) _ = x at hrel
  cases hrel with
  | some hsame => exact ⟨s, _, hs, rfl, hsame.1, hheard⟩

/-! ## 2. The time since the host was started -/

/-- **Only durations matter**: a process that is started at a later reading of the clock announces
the same and logs the same lines, those about single datagrams with them. -/
theorem only_durations_matter (e : Environ) (clock seconds : Int) (config : Config)
    (as : List Act) :
    Option.Rel
      (fun s s' => s'.outside 0 0 = s.outside 0 0 ∧ s'.senderLogs 0 = s.senderLogs 0 ∧
        s'.host.result = s.host.result ∧
        s'.cache.clock = s.cache.clock + seconds * nsPerSecond)
      (Lts.exec System.step (System.init e clock config) as)
      (Lts.exec System.step (System.init e (clock + seconds * nsPerSecond) config) as) := by
  have htwin := twinSystem_init e clock seconds (SamePorts.refl config) true fun _ => rfl
  have hacts : List.Forall₂ (TwinAct ⟨0, 0, 0, seconds, [], true⟩) as as :=
    List.forall₂_same.mpr fun a _ => TwinAct.refl rfl a
  refine Lts.rel_mono (htwin.exec (Lts.Reachable.of_init ⟨e, clock, config, rfl⟩) hacts) ?_
  exact fun u u' hu => ⟨hu.outside, hu.senderLogs rfl, hu.host.result, hu.cache.clock⟩

/-! ## 3. A load behind other loads -/

/-- The next load logs each datagram or not as a first one would: `enable_logging` is only ever
set. -/
def System.levelOfFirst (s : System) : Bool :=
  isVerbose s.host.config.loglevel || !s.statics.enableLogging

/-- What is left of the loads so far, for the next one. -/
def System.leftover (s : System) : Offset :=
  ⟨s.cache.nextSnap, s.cache.nextList, s.senders.length, 0, s.cache.log, s.levelOfFirst⟩

/-- `RedisModule_OnLoad` in a process of its own. -/
def System.firstLoad (s : System) (o : LoadOutcome) : System :=
  (System.init s.cache.environ s.cache.clock s.host.config).redisModuleOnLoad o

/-- A load that gets through. -/
theorem redisModuleOnLoad_eq {o : LoadOutcome} (hloaded : s.host.loaded = false)
    (hfree : o.nameBusy = false) (hcurl : o.curlOk = true) :
    s.redisModuleOnLoad o =
      (System.resetForLoad { s with statics := { s.statics with redisGuid := o.guid.bytes } }).completeLoad
        o.shutdownOk o.cronOk := by
  unfold System.redisModuleOnLoad
  dsimp only
  rw [if_neg (by simp [hloaded, hfree]), if_pos hcurl]

/-- A load is made where nothing of earlier ones is alive. -/
theorem System.Reachable.before_load (h : s.Reachable) {o : LoadOutcome}
    (hnew : NewLoad s (.load o)) (hst : s.step (.load o) = some s') :
    Closed s ∧ s.main = .idle ∧ s.undefined = false ∧ s' = s.redisModuleOnLoad o := by
  obtain ⟨-, -, hloaded, -⟩ := hnew
  simp only [System.step] at hst
  split at hst
  · exact absurd hst (by simp)
  · rename_i hdef
    split at hst
    · rename_i hm
      have hclosed := h.closed hm fun hlive => by
        rw [hlive.1] at hloaded
        exact absurd hloaded (by simp)
      exact ⟨hclosed, hm, Bool.eq_false_iff.mpr hdef, (Option.some.inj hst).symm⟩
    · exact absurd hst (by simp)

/-- **A load leaves the twin of a first load.** -/
theorem System.Reachable.reload_twin (h : s.Reachable) {o : LoadOutcome}
    (hnew : NewLoad s (.load o)) (hcurl : o.curlOk = true) (hst : s.step (.load o) = some s') :
    TwinSystem s.leftover (s.firstLoad o) s' := by
  obtain ⟨hclosed, hm, hdef, rfl⟩ := h.before_load hnew hst
  obtain ⟨o', ho, hloaded, hfree⟩ := hnew
  obtain rfl := Act.load.inj ho
  have hlength := h.senders.length
  unfold System.firstLoad
  rw [redisModuleOnLoad_eq hloaded hfree hcurl, redisModuleOnLoad_eq rfl hfree hcurl]
  refine ⟨?_, rfl, ?_, ?_, hm,
    ⟨rfl, rfl, rfl, SamePorts.refl _, fun _ => rfl, rfl⟩, hdef⟩
  · refine
      { environ := rfl
        clock := (Int.add_zero _).symm
        closing := rfl
        current := hclosed.current
        maxAge := ?_
        running := hclosed.running
        refresher := ?_
        stopper := h.life.stopper_idle hm
        threads := hlength
        readers := ?_
        nextSnap := rfl
        snaps := fun r hr => absurd hr (Nat.not_lt_zero r)
        nextList := rfl
        lists := fun l hl => absurd hl (Nat.not_lt_zero l)
        log := (List.append_nil _).symm }
    · -- a first load has neither a refresher nor a list
      rintro (hno | hno)
      · exact Bool.noConfusion hno
      · exact absurd rfl hno
    · change Option.Rel _ none s.cache.refresher
      rw [hclosed.refresher]
      exact Option.Rel.none
    · intro t
      exact List.getElem?_eq_none (Nat.le_trans hlength.le (Nat.le_add_right _ _))
  · intro t
    have hnone : s.senders[s.senders.length + t]? = none :=
      List.getElem?_eq_none (Nat.le_add_right _ _)
    change Option.Rel _ none s.senders[s.senders.length + t]?
    rw [hnone]
    exact Option.Rel.none
  · refine ⟨rfl, rfl, rfl, hclosed.threadIds, hclosed.threadCount, hclosed.patterns, rfl,
      fun hsame => ?_⟩
    change (s.statics.enableLogging || isVerbose s.host.config.loglevel) =
      (false || isVerbose s.host.config.loglevel)
    rcases Bool.or_eq_true_iff.mp hsame with hverbose | hquiet
    · rw [hverbose, Bool.or_true, Bool.or_true]
    · have hoff : s.statics.enableLogging = false := by simpa using hquiet
      rw [hoff]

/-- The first `n` senders have ended. -/
def System.EndedBefore (s : System) (n : Nat) : Prop := ∀ t < n, s.Ended t

/-- What has ended takes no step any more. -/
theorem System.EndedBefore.step {n : Nat} (h : s.EndedBefore n) {a : Act}
    (hst : s.step a = some s') : s'.EndedBefore n ∧ ∃ b : Act, a = b.after n := by
  have hmv := System.move_of_step hst
  constructor
  · intro t ht
    obtain ⟨th, hth, hpc⟩ := h t ht
    obtain ⟨th', hth', rfl | ⟨k, rfl⟩ | ⟨o, -, hown⟩⟩ := hmv.sender_cases hth
    · exact ⟨_, hth', hpc⟩
    · exact ⟨_, hth', hpc⟩
    · exact absurd hpc hown.fixed.2
  · cases a with
    | sender t o =>
      rcases Nat.lt_or_ge t n with hlt | hge
      · obtain ⟨th, hth, hpc⟩ := h t hlt
        simp [System.step, System.senderStep, hth, Sender.step, hpc] at hst
      · refine ⟨.sender (t - n) o, ?_⟩
        simp only [Act.after, Nat.add_sub_cancel' hge]
    | tick ns => exact ⟨.tick ns, rfl⟩
    | configSet config => exact ⟨.configSet config, rfl⟩
    | load o => exact ⟨.load o, rfl⟩
    | cron o => exact ⟨.cron o, rfl⟩
    | shutdown => exact ⟨.shutdown, rfl⟩
    | unload => exact ⟨.unload, rfl⟩
    | main o => exact ⟨.main o, rfl⟩
    | refresher => exact ⟨.refresher, rfl⟩
    | fetchEnds a => exact ⟨.fetchEnds a, rfl⟩
    | publishAlloc ok => exact ⟨.publishAlloc ok, rfl⟩

theorem System.EndedBefore.exec {n : Nat} {bs : List Act} (h : s.EndedBefore n)
    (hrun : Lts.exec System.step s bs = some s') : ∃ as : List Act, bs = as.map (·.after n) := by
  induction bs generalizing s with
  | nil => exact ⟨[], rfl⟩
  | cons b bs ih =>
    obtain ⟨t, hst, hrest⟩ := Option.bind_eq_some_iff.mp hrun
    obtain ⟨ht, a, rfl⟩ := h.step hst
    obtain ⟨as, rfl⟩ := ih ht hrest
    exact ⟨a :: as, rfl⟩

/-- **A load runs as a first one** in a process of its own, whatever loads are behind it: the same
can be done to it, the senders of earlier loads aside, which can do nothing any more; and the
senders of this load announce the same, and say the same about their failures, as the refresher
does.  They log each datagram as those of a first load do, unless `enable_logging` is left from a
load at another log level. -/
theorem reload_runs_as_first (s s' : System) (h : s.Reachable) (o : LoadOutcome)
    (hnew : NewLoad s (.load o)) (hcurl : o.curlOk = true) (hst : s.step (.load o) = some s') :
    (∀ as : List Act, Option.Rel
      (fun u u' => u'.outside s.senders.length s.cache.log.length = u.outside 0 0 ∧
        (s.levelOfFirst = true → u'.senderLogs s.senders.length = u.senderLogs 0) ∧
        u'.host.result = u.host.result)
      (Lts.exec System.step (s.firstLoad o) as)
      (Lts.exec System.step s' (as.map (·.after s.senders.length)))) ∧
    ∀ (bs : List Act) (u' : System), Lts.exec System.step s' bs = some u' →
      ∃ as : List Act, bs = as.map (·.after s.senders.length) := by
  have htwin := h.reload_twin hnew hcurl hst
  constructor
  · intro as
    have hinit : (System.init s.cache.environ s.cache.clock s.host.config).Reachable :=
      Lts.Reachable.of_init ⟨_, _, _, rfl⟩
    have hfirst : (s.firstLoad o).Reachable :=
      Lts.Reachable.next (a := .load o) hinit (if_neg Bool.false_ne_true)
    have hacts : List.Forall₂ (TwinAct s.leftover) as (as.map (·.after s.senders.length)) := by
      induction as with
      | nil => exact List.Forall₂.nil
      | cons a as ih => exact List.Forall₂.cons (TwinAct.same a) ih
    refine Lts.rel_mono (htwin.exec hfirst hacts) ?_
    exact fun u u' hu => ⟨hu.outside, hu.senderLogs, hu.host.result⟩
  · intro bs u' hrun
    obtain ⟨hclosed, -, -, rfl⟩ := h.before_load hnew hst
    obtain ⟨o', ho, hloaded, hfree⟩ := hnew
    obtain rfl := Act.load.inj ho
    rw [redisModuleOnLoad_eq hloaded hfree hcurl] at hrun
    refine System.EndedBefore.exec ?_ hrun
    intro t ht
    exact ⟨s.senders[t], List.getElem?_eq_getElem ht,
      (hclosed.senders _ (List.getElem_mem ht)).1⟩

/-- `MODULE UNLOAD` of a module that announces to one pod. -/
def unloadRunning : List Act := .unload :: shutDown.tail

/-- From the first cron tick to the end of the first pass. -/
def toFirstPass : List Act := startUp.tail ++ refreshRound ++ senderOk :: passOverOne

/-- A load, an unload with one sender, and a load again: its first pass is that of a first load, and
so is its log. -/
theorem reload_runs_as_first_onePod :
    ∃ s s' u u' : System, s.Reachable ∧ s.senders.length = 1 ∧ s.step plainLoad = some s' ∧
      Lts.exec System.step (s.firstLoad ⟨zeroGuid, false, true, true, true⟩) toFirstPass = some u ∧
      Lts.exec System.step s' (toFirstPass.map (·.after s.senders.length)) = some u' ∧
      u'.outside s.senders.length s.cache.log.length = u.outside 0 0 ∧
      u'.senderLogs s.senders.length = u.senderLogs 0 ∧
      (u'.outside s.senders.length s.cache.log.length).heard.map List.length = [1] := by
  have hview : (Lts.exec System.step (System.init {} 0 (portsConfig (ascii "6379") (ascii "0")))
      (startUp ++ refreshRound ++ unloadRunning)).bind (fun s => (s.step plainLoad).bind fun s' =>
        (Lts.exec System.step s' (toFirstPass.map (·.after s.senders.length))).map fun u' =>
          (s.senders.length, s.host.loaded, s.levelOfFirst,
            (u'.outside s.senders.length s.cache.log.length).heard.map List.length)) =
      some (1, false, true, [1]) := rfl
  obtain ⟨s, hs, hrest⟩ := Option.bind_eq_some_iff.mp hview
  obtain ⟨s', hst, hrest⟩ := Option.bind_eq_some_iff.mp hrest
  obtain ⟨u', hu', heq⟩ := Option.map_eq_some_iff.mp hrest
  simp only [Prod.mk.injEq] at heq
  obtain ⟨hlength, hloaded, hlevel, hheard⟩ := heq
  have hreach : s.Reachable := Lts.reachable_of_exec ⟨_, _, _, rfl⟩ hs
  have hrel := (reload_runs_as_first s s' hreach _ ⟨_, rfl, hloaded, rfl⟩ rfl hst).1 toFirstPass
  rw [hu'] at hrel
  generalize hu : Lts.exec System.step (s.firstLoad _) toFirstPass = x at hrel
  cases hrel with
  | some hsame =>
    exact ⟨s, s', _, u', hreach, hlength, hst, hu, hu', hsame.1, hsame.2.1 hlevel, hheard⟩

end Pairs

end Unicaster
