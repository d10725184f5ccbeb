/-
# The pace of the announcements and of the requests

REDIS_BROADCAST_INTERVAL is the time between two announcements, and REDIS_BROADCAST_PODS_REFRESH
between two requests.  What is proved: neither is ever less, over any run.  The moments are kept
beside the run, for the proofs: those at which a sender began an `up` pass, and those at which the
refresher entered `pod_list_fetch`.  Only the last pass of a sender comes early, the `down` pass for
which it is woken up.

A `pod_cache_start` that creates a refresher begins a new series of requests.
-/
import Unicaster.Pass
import Unicaster.Retry
import Unicaster.Lib.Pace

namespace Unicaster

open CLib Pace

/-! ## 1. The clock -/

section Clock

variable {s s' : System}

/-- The clock does not go back. -/
theorem System.Reachable.clock_step (h : s.Reachable) {a : Act} (hst : s.step a = some s') :
    s.cache.clock ≤ s'.cache.clock := by
  rcases (System.move_of_step hst).cache with heq | ⟨b, hb⟩
  · rw [heq]
  · exact h.cache.inv.clock_le hb

/-- The flag is lowered only where nothing of the old load is left. -/
theorem System.Reachable.closing_kept (h : s.Reachable) {a : Act} (hst : s.step a = some s')
    (hleft : ¬ Closed s) (hcl : s.cache.closing = true) : s'.cache.closing = true := by
  by_cases hnew : NewLoad s a
  · exact absurd (h.closed_of_newLoad hnew hst) hleft
  · exact (h.closing_step hcl hnew hst).1

end Clock

/-! ## 2. The passes of a sender -/

/-- The next step of the sender begins an `up` pass. -/
def Sender.beginsUp (th : Sender) (c : PodCache) : Bool :=
  match th.pc with
  | .check => !c.closing
  | _ => false

/-- The moments at which sender `t` began its `up` passes, behind a step of the system. -/
def System.upsAfter (t : Nat) (s : System) (a : Act) (moments : List Int) : List Int :=
  if a.ofSender t ∧ s.senders[t]?.any (·.beginsUp s.cache) = true then moments ++ [s.cache.clock]
  else moments

/-- A step of the system, with these moments. -/
def System.paceStep (t : Nat) (x : System × List Int) (a : Act) : Option (System × List Int) :=
  (x.1.step a).map fun s' => (s', x.1.upsAfter t a x.2)

/-- The nanoseconds between two announcements. -/
def Environ.pace (e : Environ) : Int := e.getInterval * nsPerSecond

/-- What holds of the moments where the sender stands: behind its sleep it is due. -/
def SenderPc.Paced (c : PodCache) (moments : List Int) : SenderPc → Prop
  | .start => moments = []
  | .check => c.closing = true ∨ Due c.environ.pace moments c.clock
  | .sleeping deadline => Due c.environ.pace moments deadline
  | _ => True

structure PaceInv (c : PodCache) (th : Sender) (moments : List Int) : Prop where
  spaced : Spaced c.environ.pace moments
  past : ∀ x ∈ moments, x ≤ c.clock
  interval : th.pc ≠ .start → th.broadcastInterval = c.environ.getInterval
  paced : th.pc.Paced c moments
  ups : moments.length = th.ups

section Sender

variable {c c' : PodCache} {th th' : Sender} {t : Nat} {moments : List Int}

/-- The step of another thread. -/
theorem PaceInv.stays (h : PaceInv c th moments) (he : c'.environ = c.environ)
    (hclock : c.clock ≤ c'.clock)
    (hcl : th.pc ≠ .exited → c.closing = true → c'.closing = true) : PaceInv c' th moments := by
  refine ⟨he ▸ h.spaced, fun x hx => le_trans (h.past x hx) hclock, he ▸ h.interval, ?_, h.ups⟩
  have hpaced := h.paced
  cases hpc : th.pc with
  | check =>
    rw [hpc] at hpaced
    rcases hpaced with hset | hdue
    · exact Or.inl (hcl (by simp [hpc]) hset)
    · exact Or.inr (he ▸ hdue.later hclock)
  | sleeping deadline =>
    rw [hpc] at hpaced
    exact (he ▸ hpaced : Due c'.environ.pace moments deadline)
  | start =>
    rw [hpc] at hpaced
    exact hpaced
  | _ => trivial

/-- A step of its own at which no `up` pass begins. -/
theorem PaceInv.goto (h : PaceInv c th moments) (he : c'.environ = c.environ)
    (hclock : c'.clock = c.clock) (hinterval : th'.broadcastInterval = c.environ.getInterval)
    (hups : th'.ups = th.ups) (hpaced : th'.pc.Paced c' moments) : PaceInv c' th' moments := by
  refine ⟨he ▸ h.spaced, ?_, fun _ => he ▸ hinterval, hpaced, h.ups.trans hups.symm⟩
  rw [hclock]
  exact h.past

/-- Behind a pass it sleeps for an interval. -/
theorem PaceInv.endPass (h : PaceInv c th moments) (he : c'.environ = c.environ)
    (hclock : c'.clock = c.clock) (hpc : th.pc ≠ .start) (closing : Bool) :
    PaceInv c' (th.endPass closing c'.clock) moments := by
  have hinterval := h.interval hpc
  cases closing with
  | true => exact h.goto he hclock hinterval rfl trivial
  | false =>
    refine h.goto he hclock hinterval rfl ?_
    change Due c'.environ.pace moments (c'.clock + th.broadcastInterval * nsPerSecond)
    rw [hinterval, he, hclock]
    exact Due.of_past h.past

theorem ups_onPass (th : Sender) (f : Pass → Pass) (hf : ∀ p, (f p).up = p.up) :
    (th.onPass f).ups = th.ups := by
  rw [ups_eq_countP, ups_eq_countP, map_onPass th f hf]

/-- **A step of the sender keeps the pace.** -/
theorem PaceInv.own (h : PaceInv c th moments) (hc : c.Reachable) {guid : Text}
    {enableLogging : Bool} {config : Config} {o : SendOutcome}
    (hmv : SenderMove c guid enableLogging config t o th c' th') :
    PaceInv c' th' (if th.beginsUp c = true then moments ++ [c.clock] else moments) := by
  have hframe : ∀ {b : CacheAct}, b.OfReader t → c.step b = some c' →
      c'.environ = c.environ ∧ c'.clock = c.clock := by
    intro b hb hst
    have hf := (hc.inv.reader_step hb hst).2.1
    exact ⟨hf.environ, hf.clock⟩
  have hquiet : ∀ {pc : SenderPc}, th.pc = pc → pc ≠ .check →
      (if th.beginsUp c = true then moments ++ [c.clock] else moments) = moments := by
    intro pc hpc hne
    rw [if_neg]
    unfold Sender.beginsUp
    split
    · rename_i hcheck
      exact absurd (hpc.symm.trans hcheck) hne
    · simp
  have hpaced := h.paced
  cases hmv with
  | prepare hpc =>
    rw [hquiet hpc (by simp)]
    rw [hpc] at hpaced
    refine h.goto rfl rfl rfl rfl (Or.inr ?_)
    rw [show moments = [] from hpaced]
    exact due_nil
  | beginPass hpc =>
    rw [hpc] at hpaced
    have hinterval := h.interval (by simp [hpc])
    cases hcl : c.closing with
    | true =>
      have hno : th.beginsUp c = false := by simp only [Sender.beginsUp, hpc, hcl, Bool.not_true]
      rw [hno, if_neg (by simp)]
      refine h.goto rfl rfl hinterval ?_ trivial
      simp [Sender.ups, Sender.beginPass]
    | false =>
      have hyes : th.beginsUp c = true := by simp only [Sender.beginsUp, hpc, hcl, Bool.not_false]
      have hdue := hpaced.resolve_left (Bool.eq_false_iff.mp hcl)
      rw [hyes, if_pos rfl]
      refine ⟨h.spaced.concat hdue, past_concat h.past, fun _ => hinterval, trivial, ?_⟩
      rw [List.length_append, h.ups]
      simp [Sender.ups, Sender.beginPass]
  | acquired hpc hst =>
    rw [hquiet hpc (by simp)]
    obtain ⟨he, hclock⟩ := hframe (b := .acquire t) rfl hst
    exact h.goto he hclock (h.interval (by simp [hpc])) (ups_onPass th _ fun _ => rfl) trivial
  | @sent p r ip c' hpc hs hst hip =>
    rw [hquiet hpc (by simp)]
    obtain rfl : c' = c := hc.inv.readStep hst
    obtain ⟨l, log, -, -, -, heq⟩ := sendTo_eq th p ip enableLogging o
    rw [heq]
    exact h.goto rfl rfl (h.interval (by simp [hpc])) (ups_onPass th _ fun _ => rfl) trivial
  | @sendsEnd p c' hpc hor =>
    rw [hquiet hpc (by simp)]
    have hsame : c' = c := by
      rcases hor with ⟨-, rfl⟩ | ⟨r, -, hst, -⟩
      · rfl
      · exact hc.inv.readStep hst
    obtain rfl := hsame
    exact h.goto rfl rfl (h.interval (by simp [hpc])) rfl trivial
  | @reported p count c' hpc hor =>
    rw [hquiet hpc (by simp)]
    have hsame : c' = c := by
      rcases hor with ⟨-, rfl⟩ | ⟨r, -, hst⟩
      · rfl
      · exact hc.inv.readStep hst
    obtain rfl := hsame
    exact h.goto rfl rfl (h.interval (by simp [hpc])) rfl trivial
  | toFree hpc hs hst hf =>
    rw [hquiet hpc (by simp)]
    obtain ⟨he, hclock⟩ := hframe (b := .release t) rfl hst
    exact h.goto he hclock (h.interval (by simp [hpc])) rfl trivial
  | @released p c' hpc hor =>
    rw [hquiet hpc (by simp)]
    have hsame : c'.environ = c.environ ∧ c'.clock = c.clock := by
      rcases hor with ⟨-, rfl⟩ | ⟨r, -, hst, -⟩
      · exact ⟨rfl, rfl⟩
      · exact hframe (b := .release t) rfl hst
    exact h.endPass hsame.1 hsame.2 (by simp [hpc]) p.closing
  | @freed closing c' hpc hst =>
    rw [hquiet hpc (by simp)]
    obtain ⟨he, hclock⟩ := hframe (b := .free t) rfl hst
    exact h.endPass he hclock (by simp [hpc]) closing
  | @woken deadline hpc hw =>
    rw [hquiet hpc (by simp)]
    rw [hpc] at hpaced
    exact h.goto rfl rfl (h.interval (by simp [hpc])) rfl
      (hw.imp id fun hle => Due.later hpaced hle)

end Sender

/-! ## 3. Every run -/

section Runs

variable {t : Nat} {s s' : System} {moments : List Int} {e : Environ} {clock : Int}
  {config : Config}

/-- The moments and the sender agree; before there is a sender there are none. -/
structure PaceKept (t : Nat) (e : Environ) (s : System) (moments : List Int) : Prop where
  environ : s.cache.environ = e
  kept : ∀ th, s.senders[t]? = some th → PaceInv s.cache th moments
  none : s.senders[t]? = none → moments = []

theorem PaceKept.step (h : PaceKept t e s moments) (hr : s.Reachable) {a : Act}
    (hst : s.step a = some s') : PaceKept t e s' (s.upsAfter t a moments) := by
  have hmv := System.move_of_step hst
  have he := hmv.environ hr.cache.inv
  have hclock := hr.clock_step hst
  cases hth : s.senders[t]? with
  | none =>
    have hafter : s.upsAfter t a moments = [] := by
      unfold System.upsAfter
      rw [hth, if_neg (by simp)]
      exact h.none hth
    rw [hafter]
    refine ⟨he.trans h.environ, fun th' hth' => ?_, fun _ => rfl⟩
    obtain ⟨-, a', rfl⟩ := hmv.new_sender (List.getElem?_eq_none_iff.mp hth) hth'
    exact ⟨spaced_nil, fun x hx => absurd hx (by simp), fun hno => absurd rfl hno, rfl, rfl⟩
  | some th =>
    have hi := h.kept th hth
    obtain ⟨th', hth', hor⟩ := hmv.sender_cases hth
    refine ⟨he.trans h.environ, fun th1 hth1 => ?_,
      fun hnone => absurd (hth'.symm.trans hnone) (by simp)⟩
    obtain rfl : th' = th1 := Option.some.inj (hth'.symm.trans hth1)
    have hstays : PaceInv s'.cache th moments :=
      hi.stays he hclock fun hpc => hr.closing_kept hst fun hcl =>
        hpc (hcl.senders th (List.mem_of_getElem? hth)).1
    cases hact : a.ofSender t with
    | false =>
      have hafter : s.upsAfter t a moments = moments := by
        unfold System.upsAfter
        rw [hact, if_neg (by simp)]
      rw [hafter]
      rcases hor with rfl | ⟨n, rfl⟩ | ⟨o, rfl, -⟩
      · exact hstays
      · exact ⟨hstays.spaced, hstays.past, hstays.interval, hstays.paced, hstays.ups⟩
      · exact absurd hact (by simp [Act.ofSender])
    | true =>
      cases a with
      | sender u o =>
        obtain rfl : u = t := by simpa [Act.ofSender] using hact
        cases hmv with
        | @sender u o thu c' th2 hu hown =>
          obtain rfl : thu = th := Option.some.inj (hu.symm.trans hth)
          obtain rfl : th2 = th' :=
            Option.some.inj ((List.getElem?_set_eq hu th2).symm.trans hth')
          have hafter : s.upsAfter u (.sender u o) moments =
              if thu.beginsUp s.cache = true then moments ++ [s.cache.clock] else moments := by
            unfold System.upsAfter
            rw [hth, Option.any_some]
            simp [Act.ofSender]
          rw [hafter]
          exact hi.own hr.cache hown
        | refresher hb hc ha => exact ha.elim
        | cleanup hm hl ha => exact ha.elim
      | _ => exact absurd hact (by simp [Act.ofSender])

theorem paceKept_of_run
    (hr : Lts.Run (System.paceStep t) Lts.free (System.init e clock config, []) (s, moments)) :
    PaceKept t e s moments := by
  have hall : s.Reachable ∧ PaceKept t e s moments := by
    refine hr.invariant (I := fun x => x.1.Reachable ∧ PaceKept t e x.1 x.2)
      ⟨Lts.Reachable.of_init ⟨e, clock, config, rfl⟩, rfl,
        fun th hth => absurd hth (by simp [System.init]), fun _ => rfl⟩ ?_
    rintro ⟨u, mu⟩ a ⟨v, mv⟩ ⟨hu, hk⟩ - hst
    obtain ⟨v1, hv, heq⟩ := Option.map_eq_some_iff.mp hst
    obtain ⟨rfl, rfl⟩ := Prod.mk.inj heq
    exact ⟨hu.next hv, hk.step hu hv⟩
  exact hall.2

end Runs

/-- **The announcements keep their pace**, over every run and whatever the other threads do, also
if the sender is woken up early.  Any two `up` passes of a sender begin an interval apart, so in
every stretch of time it begins at most one more than the stretch has intervals. -/
theorem announcements_in_pace (t : Nat) (e : Environ) (clock : Int) (config : Config) (s : System)
    (moments : List Int)
    (hr : Lts.Run (System.paceStep t) Lts.free (System.init e clock config, []) (s, moments))
    (th : Sender) (hth : s.senders[t]? = some th) :
    moments.length = th.ups ∧ Spaced (e.getInterval * nsPerSecond) moments ∧
    ∀ start stop : Int, start ≤ stop →
      ((moments.countP (fun x => decide (start ≤ x ∧ x ≤ stop)) - 1 : Nat) : Int) *
        (e.getInterval * nsPerSecond) ≤ stop - start := by
  have hk := paceKept_of_run hr
  have h := hk.kept th hth
  have hspaced : Spaced (e.getInterval * nsPerSecond) moments := by
    have hs := h.spaced
    rw [hk.environ] at hs
    exact hs
  exact ⟨h.ups, hspaced, fun start stop hle => hspaced.countP_le hle⟩

/-- Two passes, at the default interval of one second. -/
theorem announcements_in_pace_twice :
    ∃ (s : System) (th : Sender), s.senders[0]? = some th ∧ th.ups = 2 ∧
      Spaced (1 * nsPerSecond) [0, 1000000000] := by
  have hview : (Lts.exec (System.paceStep 0)
      (System.init {} 0 (portsConfig (ascii "6379") (ascii "0")), [])
      (startUp ++ refreshRound ++ senderOk :: passOverOne ++
        .tick 1000000000 :: senderOk :: passOverOne)).map (fun x => (x.1.senders.length, x.2)) =
        some (1, [0, 1000000000]) := by decide +kernel
  obtain ⟨⟨s, moments⟩, hs, hbook⟩ := Option.map_eq_some_iff.mp hview
  obtain ⟨hlen, rfl⟩ := Prod.mk.inj hbook
  obtain ⟨th, hth⟩ : ∃ th, s.senders[0]? = some th :=
    ⟨_, List.getElem?_eq_getElem (hlen ▸ Nat.one_pos)⟩
  obtain ⟨hups, hspaced, -⟩ := announcements_in_pace 0 {} 0 _ s _ (Lts.run_of_exec hs) th hth
  exact ⟨s, th, hth, hups.symm, hspaced⟩

/-! ## 4. The requests -/

/-- The moments at which the refresher entered `pod_list_fetch`, behind a step. -/
def PodCache.requestsAfter (c c' : PodCache) (moments : List Int) : List Int :=
  match c.refresher, c'.refresher with
  | some th, some th' =>
    match th.pc, th'.pc with
    | .check, .fetching startedAt => moments ++ [startedAt]
    | _, _ => moments
  | _, _ => []

/-- A step of the system, with these moments. -/
def System.requestStep (x : System × List Int) (a : Act) : Option (System × List Int) :=
  (x.1.step a).map fun s' => (s', x.1.cache.requestsAfter s'.cache x.2)

/-- The nanoseconds between two requests. -/
def Environ.requestPace (e : Environ) : Int := e.getPodsRefresh * nsPerSecond

/-- What holds of the moments where the refresher stands. -/
def RefresherPc.Paced (c : PodCache) (moments : List Int) : RefresherPc → Prop
  | .check => c.closing = true ∨ Due c.environ.requestPace moments c.clock
  | .sleeping deadline => Due c.environ.requestPace moments deadline
  | _ => True

/-- The refresher keeps its interval, counts its failures and is in pace. -/
structure Refresher.InPace (th : Refresher) (c : PodCache) (moments : List Int) : Prop where
  refresh : th.refresh = c.environ.getPodsRefresh
  failures : 0 ≤ th.failures
  paced : th.pc.Paced c moments

structure RequestsInv (c : PodCache) (moments : List Int) : Prop where
  spaced : Spaced c.environ.requestPace moments
  past : ∀ x ∈ moments, x ≤ c.clock
  refresher : ∀ th, c.refresher = some th → th.InPace c moments

section Requests

variable {c c' : PodCache} {th th' : Refresher} {moments : List Int}

theorem requestsAfter_none (h : c.refresher = none) : c.requestsAfter c' moments = [] := by
  unfold PodCache.requestsAfter
  rw [h]

/-- Where the refresher stays where it is no request begins. -/
theorem requestsAfter_same (h : c'.refresher = c.refresher) :
    c.requestsAfter c' moments = if c.refresher.isSome then moments else [] := by
  unfold PodCache.requestsAfter
  rw [h]
  cases hth : c.refresher with
  | none => rfl
  | some th => cases hpc : th.pc <;> simp [hpc]

theorem requestsAfter_quiet (hth : c.refresher = some th) (hth' : c'.refresher = some th')
    (hpc : th.pc ≠ .check ∨ ∀ startedAt, th'.pc ≠ .fetching startedAt) :
    c.requestsAfter c' moments = moments := by
  unfold PodCache.requestsAfter
  rw [hth, hth']
  dsimp only
  split
  · rename_i startedAt h1 h2
    rcases hpc with hpc | hpc
    · exact absurd h1 hpc
    · exact absurd h2 (hpc startedAt)
  · rfl

/-- A series begins anew. -/
theorem RequestsInv.fresh (h : ∀ th, c.refresher = some th → th.InPace c []) :
    RequestsInv c [] := ⟨spaced_nil, fun x hx => absurd hx (by simp), h⟩

/-- The step of another thread. -/
theorem RequestsInv.still (h : RequestsInv c moments) (hsame : c'.refresher = c.refresher)
    (he : c'.environ = c.environ) (hclock : c.clock ≤ c'.clock)
    (hcl : c.refresher ≠ none → c.closing = true → c'.closing = true) :
    RequestsInv c' (c.requestsAfter c' moments) := by
  rw [requestsAfter_same hsame]
  cases hth : c.refresher with
  | none => exact RequestsInv.fresh fun th' hth' => absurd (hsame.symm.trans hth') (by simp [hth])
  | some th =>
    refine ⟨he ▸ h.spaced, fun x hx => le_trans (h.past x hx) hclock, fun th' hth' => ?_⟩
    obtain rfl : th = th' := Option.some.inj (hth.symm.trans (hsame.symm.trans hth'))
    obtain ⟨hrefresh, hfailures, hpaced⟩ := h.refresher th hth
    refine ⟨he ▸ hrefresh, hfailures, ?_⟩
    cases hpc : th.pc with
    | check =>
      rw [hpc] at hpaced
      rcases hpaced with hset | hdue
      · exact Or.inl (hcl (by simp [hth]) hset)
      · exact Or.inr (he ▸ hdue.later hclock)
    | sleeping deadline =>
      rw [hpc] at hpaced
      exact (he ▸ hpaced : Due c'.environ.requestPace moments deadline)
    | _ => trivial

/-- The refresher goes on without a request. -/
theorem RequestsInv.goto (h : RequestsInv c moments) (hth : c.refresher = some th)
    (he : c'.environ = c.environ) (hclock : c'.clock = c.clock) (hth' : c'.refresher = some th')
    (hpc : th.pc ≠ .check ∨ ∀ startedAt, th'.pc ≠ .fetching startedAt)
    (hrefresh : th'.refresh = th.refresh) (hfailures : 0 ≤ th'.failures)
    (hpaced : th'.pc.Paced c' moments) : RequestsInv c' (c.requestsAfter c' moments) := by
  rw [requestsAfter_quiet hth hth' hpc]
  refine ⟨he ▸ h.spaced, ?_, fun th1 hth1 => ?_⟩
  · rw [hclock]
    exact h.past
  · obtain rfl : th' = th1 := Option.some.inj (hth'.symm.trans hth1)
    exact ⟨hrefresh.trans (he ▸ (h.refresher th hth).refresh), hfailures, hpaced⟩

/-- **Its sleep is an interval at least**, also behind a failure. -/
theorem le_nextDelay (e : Environ) {failures : Int} (h : 0 ≤ failures) :
    e.getPodsRefresh ≤ nextDelay e.getPodsRefresh (failures + 1) := by
  have hrange := (getPodsRefresh_range e).1
  obtain ⟨k, rfl⟩ := Int.eq_ofNat_of_zero_le h
  rw [nextDelay_succ (by omega)]
  exact le_retryDelay (by omega) k

/-- **A move of the refresher keeps the pace.** -/
theorem RequestsInv.move (h : RequestsInv c moments) (hi : CacheInv c)
    (hth : c.refresher = some th) (hmv : RefresherMove c th c') :
    RequestsInv c' (c.requestsAfter c' moments) := by
  have hframe := (hi.refresher_frame hmv).1
  have he := hframe.environ
  have hclock := hframe.clock
  obtain ⟨hrefresh, hfailures, hpaced⟩ := h.refresher th hth
  have hns : (0 : Int) ≤ nsPerSecond := by decide
  cases hmv with
  | request hpc hcl =>
    rw [hpc] at hpaced
    have hdue := hpaced.resolve_left (Bool.eq_false_iff.mp hcl)
    have hafter : c.requestsAfter (c.goto { th with answer := none } (.fetching c.clock)) moments =
        moments ++ [c.clock] := by
      unfold PodCache.requestsAfter
      simp only [PodCache.goto, hth, hpc]
    rw [hafter]
    refine ⟨h.spaced.concat hdue, past_concat h.past, fun th' hth' => ?_⟩
    obtain rfl := Option.some.inj hth'
    exact ⟨hrefresh, hfailures, trivial⟩
  | succeed hpc =>
    refine h.goto hth he hclock rfl (Or.inl (by simp [hpc])) rfl (le_refl 0) ?_
    change Due c.environ.requestPace moments (c.clock + th.refresh * nsPerSecond)
    rw [hrefresh]
    exact Due.of_past h.past
  | @report error now expired hpc =>
    obtain ⟨log, th', heq, hpc', hrefresh', hfailures'⟩ := hi.endFailure_eq th error now expired
    rw [heq] at he hclock ⊢
    refine h.goto hth he hclock rfl (Or.inl (by simp [hpc])) hrefresh' (by omega) ?_
    rw [hpc', hrefresh]
    refine Due.later (Due.of_past h.past) (Int.add_le_add_left ?_ c.clock)
    exact Int.mul_le_mul_of_nonneg_right (le_nextDelay c.environ hfailures) hns
  | @wake deadline hpc hend =>
    rw [hpc] at hpaced
    exact h.goto hth he hclock rfl (Or.inl (by simp [hpc])) rfl hfailures
      (hend.imp id fun hle => Due.later hpaced hle)
  | _ =>
    refine h.goto hth he hclock rfl ?_ rfl hfailures trivial
    exact Or.inr (by simp)

/-- **Every step keeps the pace**, if the flag is not lowered while there is a refresher. -/
theorem RequestsInv.step (h : RequestsInv c moments) (hi : CacheInv c) {a : CacheAct}
    (hst : c.step a = some c')
    (hcl : c.refresher ≠ none → c.closing = true → c'.closing = true) :
    RequestsInv c' (c.requestsAfter c' moments) := by
  have he := hi.environ_step hst
  have hclock := hi.clock_le hst
  cases hi.move_of_step hst with
  | refresher hth hmv => exact h.move hi hth hmv
  | start hs hmv =>
    obtain ⟨-, -, -, hsame | hnew, -⟩ := hmv.frame
    · exact h.still hsame he hclock hcl
    · cases hth : c.refresher with
      | none =>
        rw [requestsAfter_none hth]
        refine RequestsInv.fresh fun th' hth' => ?_
        obtain rfl := Option.some.inj (hnew.symm.trans hth')
        exact ⟨congrArg Environ.getPodsRefresh he.symm, le_refl 0, Or.inr due_nil⟩
      | some th =>
        have hrun : c.refresherRunning = true := by
          rw [hi.running, hth]
          rfl
        cases hmv with
        | running => exact h.still rfl he hclock hcl
        | _ => simp_all
  | stop hmv =>
    obtain ⟨-, hsame | hnone, -⟩ := hmv.frame
    · exact h.still hsame he hclock hcl
    · have hafter : c.requestsAfter c' moments = [] := by
        unfold PodCache.requestsAfter
        rw [hnone]
        split
        · rename_i hno
          exact absurd hno (by simp)
        · rfl
      rw [hafter]
      exact RequestsInv.fresh fun th' hth' => absurd (hnone.symm.trans hth') (by simp)
  | fetched hth hpc hok =>
    exact h.goto hth he rfl rfl (Or.inl (by simp [hpc])) rfl (h.refresher _ hth).failures trivial
  | fetchFailed hth hpc hno =>
    exact h.goto hth he rfl rfl (Or.inl (by simp [hpc])) rfl (h.refresher _ hth).failures trivial
  | allocated hth hpc =>
    exact h.goto hth he rfl rfl (Or.inl (by simp [hpc])) rfl (h.refresher _ hth).failures trivial
  | outOfMemory hth hpc =>
    exact h.goto hth he rfl rfl (Or.inl (by simp [hpc])) rfl (h.refresher _ hth).failures trivial
  | _ => exact h.still rfl he hclock hcl

end Requests

/-- **The requests keep their pace**, over every run of the module.  Any two requests of one
refresher begin a refresh interval apart, whether they succeed or fail and whatever the other
threads do, so in every stretch of time the API sees at most one more than the stretch has
intervals. -/
theorem requests_in_pace (e : Environ) (clock : Int) (config : Config) (s : System)
    (moments : List Int)
    (hr : Lts.Run System.requestStep Lts.free (System.init e clock config, []) (s, moments)) :
    Spaced (e.getPodsRefresh * nsPerSecond) moments ∧
    ∀ start stop : Int, start ≤ stop →
      ((moments.countP (fun x => decide (start ≤ x ∧ x ≤ stop)) - 1 : Nat) : Int) *
        (e.getPodsRefresh * nsPerSecond) ≤ stop - start := by
  have hall : (s.Reachable ∧ s.cache.environ = e) ∧ RequestsInv s.cache moments := by
    refine hr.invariant
      (I := fun x => (x.1.Reachable ∧ x.1.cache.environ = e) ∧ RequestsInv x.1.cache x.2)
      ⟨⟨Lts.Reachable.of_init ⟨e, clock, config, rfl⟩, rfl⟩, RequestsInv.fresh fun th hth =>
        absurd hth (by simp [System.init, PodCache.init])⟩ ?_
    rintro ⟨u, mu⟩ a ⟨v, mv⟩ ⟨⟨hu, he⟩, hi⟩ - hst
    obtain ⟨v1, hv, heq⟩ := Option.map_eq_some_iff.mp hst
    obtain ⟨rfl, rfl⟩ := Prod.mk.inj heq
    have hmv := System.move_of_step hv
    refine ⟨⟨hu.next hv, (hmv.environ hu.cache.inv).trans he⟩, ?_⟩
    have hkept : u.cache.refresher ≠ none → u.cache.closing = true → v1.cache.closing = true :=
      fun hne => hu.closing_kept hv fun hcl => hne hcl.refresher
    rcases hmv.cache with hsame | ⟨b, hb⟩
    · exact hi.still (congrArg PodCache.refresher hsame) (congrArg PodCache.environ hsame)
        (le_of_eq (congrArg PodCache.clock hsame).symm) hkept
    · exact hi.step hu.cache.inv hb hkept
  obtain ⟨⟨-, rfl⟩, hi⟩ := hall
  exact ⟨hi.spaced, fun start stop hle => hi.spaced.countP_le hle⟩

/-- Two requests, at the default interval of five seconds. -/
theorem requests_in_pace_twice : Spaced (5 * nsPerSecond) [0, 5000000000] := by
  have hview : (Lts.exec System.requestStep
      (System.init {} 0 (portsConfig (ascii "6379") (ascii "0")), [])
      (startUp ++ refreshRound ++ [.tick 5000000000, .refresher, .refresher])).map (·.2) =
        some [0, 5000000000] := by decide +kernel
  obtain ⟨⟨s, moments⟩, hs, hbook⟩ := Option.map_eq_some_iff.mp hview
  obtain rfl : moments = [0, 5000000000] := hbook
  exact (requests_in_pace {} 0 _ s _ (Lts.run_of_exec hs)).1

end Unicaster
