/-
# When REDIS_BROADCAST_PODS_MAX_AGE silences a broker whose requests succeed

A run is TIMELY when nothing goes wrong in it: every request brings a list with a pod after
at most `timeout` seconds, the sleep behind a round lasts exactly `refresh` seconds, the rest
of the refresher takes no time, and nobody closes the module.

Between two publications pass at most `refresh + timeout` seconds (`Budget`), and as much as
that if the network wants it.  A list is dropped when it is older than `max_age`, so no broker
is silenced exactly when `refresh + timeout` is not above it (`never_silenced_iff`).
-/
import Unicaster.CacheHistory

namespace Unicaster

open CLib

/-! ## 1. Timely runs -/

/-- The request brought a list with at least one pod. -/
def Succeeds (e : Environ) (a : Answer) : Prop :=
  ∃ ips, (podListFetch e.deploymentEnv a).list = .ok ips ∧ ips ≠ []

/-- **What may happen in a timely run.**  Time passes in a request, up to its timeout, and in
the sleep, up to its end. -/
def Timely (c : PodCache) : CacheAct → Prop
  | .tick ns =>
    match c.refresher with
    | none => True
    | some th =>
      match th.pc with
      | .fetching startedAt => c.clock + ns ≤ startedAt + th.timeout * nsPerSecond
      | .sleeping deadline => c.clock + ns ≤ deadline
      | _ => ns = 0
  | .fetchEnds a => Succeeds c.environ a
  | .publishAlloc ok => ok = true
  | .closingBegin => False
  | .stop => False
  | _ => True

/-- Every acquire of every timely run returns a snapshot, once one was published. -/
def NeverSilenced (e : Environ) : Prop :=
  ∀ clock c, Lts.Run PodCache.step Timely (PodCache.init e clock) c → 0 < c.nextSnap →
    c.podCacheAcquire.2 ≠ none

/-- No answer whatever lets a request succeed: the name in `DEPLOYMENT_ENV` is refused. -/
def NoRequest (e : Environ) : Prop :=
  ∀ file name, resolveNamespace e.deploymentEnv file maxNamespaceSize ≠ .ok name

/-- The three settings agree. -/
def AgeOk (e : Environ) : Prop :=
  e.getPodsMaxAge = 0 ∨ e.getPodsRefresh + e.getPodsTimeout ≤ e.getPodsMaxAge ∨ NoRequest e

/-! ## 2. The budget of a round -/

/-- **How far the clock may be** from the moment `p` of the last publication, at each place of
the refresher. -/
def Budget (e : Environ) (p clock : Int) : RefresherPc → Prop
  | .check => clock ≤ p + e.getPodsRefresh * nsPerSecond
  | .fetching startedAt =>
    startedAt ≤ p + e.getPodsRefresh * nsPerSecond ∧
      clock ≤ startedAt + e.getPodsTimeout * nsPerSecond
  | .fetched (some _) _ => clock ≤ p + (e.getPodsRefresh + e.getPodsTimeout) * nsPerSecond
  | .publishing _ => clock ≤ p + (e.getPodsRefresh + e.getPodsTimeout) * nsPerSecond
  | .swapping receivedAt _ =>
    clock ≤ p + (e.getPodsRefresh + e.getPodsTimeout) * nsPerSecond ∧
      receivedAt = clock / nsPerSecond
  | .releasing _ => clock ≤ p
  | .freeing _ => clock ≤ p
  | .succeeded => clock ≤ p
  | .sleeping deadline => deadline ≤ p + e.getPodsRefresh * nsPerSecond ∧ clock ≤ deadline
  | _ => False

/-- The moment of the last publication behind a step from `pc`. -/
def RefresherPc.published (p clock : Int) : RefresherPc → Int
  | .swapping _ _ => clock
  | _ => p

/-- Wherever the refresher stands, the last publication is not further back than a round. -/
theorem Budget.le {e : Environ} {p clock : Int} {pc : RefresherPc} (h : Budget e p clock pc) :
    clock ≤ p + (e.getPodsRefresh + e.getPodsTimeout) * nsPerSecond := by
  have hns : nsPerSecond = 1000000000 := rfl
  have hr := (getPodsRefresh_range e).1
  have ht := (getPodsTimeout_range e).1
  cases pc with
  | check =>
    simp only [Budget, hns] at h ⊢
    omega
  | fetching startedAt =>
    simp only [Budget, hns] at h ⊢
    omega
  | fetched pods error =>
    cases pods with
    | none => exact h.elim
    | some l => exact h
  | publishing l => exact h
  | swapping receivedAt l => exact h.1
  | sleeping deadline =>
    simp only [Budget, hns] at h ⊢
    omega
  | releasing previous =>
    simp only [Budget, hns] at h ⊢
    omega
  | freeing r =>
    simp only [Budget, hns] at h ⊢
    omega
  | succeeded =>
    simp only [Budget, hns] at h ⊢
    omega
  | failed error => exact h.elim
  | judging error now => exact h.elim
  | reporting error now expired => exact h.elim
  | exited => exact h.elim

/-- The state of a timely run. -/
structure AgeInv (e : Environ) (c : PodCache) : Prop where
  environ : c.environ = e
  closing : c.closing = false
  idle : c.stopper = .idle
  /-- nothing is published before the first round -/
  unborn : c.refresher = none → c.nextSnap = 0
  stays : 0 < c.nextSnap → c.current ≠ none
  maxAge : c.refresher ≠ none → c.maxAge = e.getPodsMaxAge
  settings : ∀ th, c.refresher = some th →
    th.refresh = e.getPodsRefresh ∧ th.timeout = e.getPodsTimeout
  full : ∀ th l error, c.refresher = some th → th.pc = .fetched (some l) error →
    (c.lists l).ips ≠ []
  budget : ∀ th, c.refresher = some th → ∃ p, Budget e p c.clock th.pc ∧
    ∀ r, c.current = some r → (c.snaps r).receivedAt = p / nsPerSecond

section Steps

variable {e : Environ} {c c' : PodCache}

/-- A quiet step that moves neither the clock nor the refresher. -/
theorem AgeInv.aside (h : AgeInv e c) (hi : CacheInv c) (hq : Quiet c c')
    (hth : c'.refresher = c.refresher) (hclock : c'.clock = c.clock)
    (hcl : c'.closing = c.closing) (hstop : c'.stopper = c.stopper)
    (hage : c'.maxAge = c.maxAge) : AgeInv e c' := by
  refine ⟨hq.environ.trans h.environ, hcl.trans h.closing, hstop.trans h.idle, ?_, ?_, ?_, ?_, ?_,
    ?_⟩
  · rw [hth, hq.nextSnap]
    exact h.unborn
  · rw [hq.nextSnap, hq.current]
    exact h.stays
  · rw [hth, hage]
    exact h.maxAge
  · rw [hth]
    exact h.settings
  · intro th l error hs hpc
    rw [hth] at hs
    have hin : c.inFlight = some l := by
      simp only [PodCache.inFlight, hs, Option.bind_some, hpc, RefresherPc.inFlight]
    rw [hq.ips l (hi.flight l hin).1]
    exact h.full th l error hs hpc
  · intro th hs
    rw [hth] at hs
    obtain ⟨p, hb, hrec⟩ := h.budget th hs
    refine ⟨p, hclock ▸ hb, fun r hr => ?_⟩
    rw [hq.current] at hr
    exact (hq.receivedAt r).trans (hrec r hr)

/-- **Where the refresher goes in a timely run**: on through the round, within its budget; the
swap starts a new one. -/
theorem AgeInv.refresher_budget (h : AgeInv e c) {th : Refresher}
    (hth : c.refresher = some th) {p : Int} (hb : Budget e p c.clock th.pc)
    (hmv : RefresherMove c th c') :
    ∃ th', c'.refresher = some th' ∧ th'.refresh = th.refresh ∧ th'.timeout = th.timeout ∧
      (∀ l error, th'.pc ≠ .fetched (some l) error) ∧
      Budget e (th.pc.published p c.clock) c.clock th'.pc := by
  have hr := (getPodsRefresh_range e).1
  have ht := (getPodsTimeout_range e).1
  have hns : nsPerSecond = 1000000000 := rfl
  have hopen : ¬ c.closing = true := by
    rw [h.closing]
    simp
  cases hmv with
  | leave hpc hcl => exact absurd hcl hopen
  | request hpc hcl =>
    refine ⟨_, rfl, rfl, rfl, by simp, ?_⟩
    rw [hpc] at hb ⊢
    simp only [Budget, RefresherPc.published] at hb ⊢
    exact ⟨hb, by rw [hns]; omega⟩
  | giveUp hpc hcl => exact absurd hcl hopen
  | noList hpc hcl =>
    rw [hpc] at hb
    exact hb.elim
  | discard hpc hcl => exact absurd hcl hopen
  | empty hpc hcl hips => exact absurd hips (h.full th _ _ hth hpc)
  | offer hpc hcl hips =>
    refine ⟨_, rfl, rfl, rfl, by simp, ?_⟩
    rw [hpc] at hb ⊢
    exact hb
  | swap hpc =>
    refine ⟨_, rfl, rfl, rfl, by simp, ?_⟩
    rw [hpc]
    exact le_refl _
  | noPrevious hpc =>
    refine ⟨_, rfl, rfl, rfl, by simp, ?_⟩
    rw [hpc] at hb ⊢
    exact hb
  | dropLast hpc h0 =>
    refine ⟨_, rfl, rfl, rfl, by simp, ?_⟩
    rw [hpc] at hb ⊢
    exact hb
  | drop hpc h0 =>
    refine ⟨_, rfl, rfl, rfl, by simp, ?_⟩
    rw [hpc] at hb ⊢
    exact hb
  | free hpc =>
    refine ⟨_, rfl, rfl, rfl, by simp, ?_⟩
    rw [hpc] at hb ⊢
    exact hb
  | succeed hpc =>
    refine ⟨_, rfl, rfl, rfl, by simp, ?_⟩
    rw [hpc] at hb ⊢
    simp only [Budget, RefresherPc.published] at hb ⊢
    rw [(h.settings th hth).1, hns]
    exact ⟨by omega, by omega⟩
  | fail hpc =>
    rw [hpc] at hb
    exact hb.elim
  | judge hpc =>
    rw [hpc] at hb
    exact hb.elim
  | report hpc =>
    rw [hpc] at hb
    exact hb.elim
  | wake hpc hend =>
    refine ⟨_, rfl, rfl, rfl, by simp, ?_⟩
    rw [hpc] at hb ⊢
    exact le_trans hb.2 hb.1

/-- The swap is not quiet: the number it publishes is new. -/
theorem published_of_quiet {th : Refresher} (hmv : RefresherMove c th c') (hq : Quiet c c')
    (p clock : Int) : th.pc.published p clock = p := by
  cases hpc : th.pc with
  | swapping receivedAt l =>
    have hn := hq.nextSnap
    rw [hmv.eq_swap hpc] at hn
    exact absurd hn (by simp [PodCache.swap])
  | _ => rfl

theorem AgeInv.refresherMoved (h : AgeInv e c) (hi : CacheInv c) {th : Refresher}
    (hth : c.refresher = some th) (hmv : RefresherMove c th c') : AgeInv e c' := by
  obtain ⟨p, hb, hrec⟩ := h.budget th hth
  obtain ⟨hf, -, -⟩ := hi.refresher_frame hmv
  obtain ⟨th', hth', hr, ht, hnot, hb'⟩ := h.refresher_budget hth hb hmv
  have hsome : c.refresher ≠ none := by rw [hth]; simp
  have hkeep : ∀ th1, c'.refresher = some th1 →
      th1.refresh = e.getPodsRefresh ∧ th1.timeout = e.getPodsTimeout := by
    intro th1 hs
    rw [hth', Option.some.injEq] at hs
    subst hs
    exact ⟨hr.trans (h.settings th hth).1, ht.trans (h.settings th hth).2⟩
  have hfull : ∀ th1 l error, c'.refresher = some th1 → th1.pc = .fetched (some l) error →
      (c'.lists l).ips ≠ [] := by
    intro th1 l error hs hpc
    rw [hth', Option.some.injEq] at hs
    subst hs
    exact absurd hpc (hnot l error)
  refine ⟨hf.environ.trans h.environ, hf.closing.trans h.closing, hf.stopper.trans h.idle,
    fun hs => ?_, ?_, fun _ => hf.maxAge.trans (h.maxAge hsome), hkeep, hfull, ?_⟩
  · rw [hth'] at hs
    exact absurd hs (by simp)
  · rcases hi.refresher_quiet hth hmv with hq | ⟨receivedAt, l, -, rfl⟩
    · rw [hq.nextSnap, hq.current]
      exact h.stays
    · intro _
      simp [PodCache.swap]
  · intro th1 hs
    rw [hth', Option.some.injEq] at hs
    subst hs
    rw [hf.clock]
    rcases hi.refresher_quiet hth hmv with hq | ⟨receivedAt, l, hpc, rfl⟩
    · rw [published_of_quiet hmv hq] at hb'
      refine ⟨p, hb', fun r hr => ?_⟩
      rw [hq.current] at hr
      exact (hq.receivedAt r).trans (hrec r hr)
    · rw [hpc, RefresherPc.published] at hb'
      refine ⟨c.clock, hb', fun r hr => ?_⟩
      simp only [PodCache.swap, Option.some.injEq] at hr
      subst hr
      rw [hpc] at hb
      simp only [PodCache.swap, Function.update_self]
      exact hb.2

/-- The refresher gets its answer, or its memory, and goes on from `pc` to `pc'`. -/
theorem AgeInv.moved (h : AgeInv e c) (hq : Quiet c c') (hf : Frame c c') {th th' : Refresher}
    (hth : c.refresher = some th) (hth' : c'.refresher = some th')
    (hset : th'.refresh = th.refresh ∧ th'.timeout = th.timeout)
    (hfull : ∀ l error, th'.pc = .fetched (some l) error → (c'.lists l).ips ≠ [])
    (hb : ∀ p, Budget e p c.clock th.pc → Budget e p c.clock th'.pc) : AgeInv e c' := by
  have hsome : c.refresher ≠ none := by rw [hth]; simp
  refine ⟨hf.environ.trans h.environ, hf.closing.trans h.closing, hf.stopper.trans h.idle,
    fun hs => ?_, ?_, fun _ => hf.maxAge.trans (h.maxAge hsome), ?_, ?_, ?_⟩
  · rw [hth'] at hs
    exact absurd hs (by simp)
  · rw [hq.nextSnap, hq.current]
    exact h.stays
  · intro th1 hs
    rw [hth', Option.some.injEq] at hs
    subst hs
    exact ⟨hset.1.trans (h.settings th hth).1, hset.2.trans (h.settings th hth).2⟩
  · intro th1 l error hs hpc
    rw [hth', Option.some.injEq] at hs
    subst hs
    exact hfull l error hpc
  · intro th1 hs
    rw [hth', Option.some.injEq] at hs
    subst hs
    obtain ⟨p, hp, hrec⟩ := h.budget th hth
    refine ⟨p, hf.clock ▸ hb p hp, fun r hr => ?_⟩
    rw [hq.current] at hr
    exact (hq.receivedAt r).trans (hrec r hr)

/-- The request ends well. -/
theorem AgeInv.fetched (h : AgeInv e c) {th : Refresher} {startedAt : Int} {a : Answer}
    {ips : List Text} (hth : c.refresher = some th) (hpc : th.pc = .fetching startedAt)
    (hne : ips ≠ []) :
    AgeInv e
      { c with
        lists := Function.update c.lists c.nextList ⟨ips, 0⟩
        nextList := c.nextList + 1
        refresher := some { th with answer := some a, pc := .fetched (some c.nextList) [] } } := by
  refine h.moved (Quiet.fetched c _ _) rfl hth rfl ⟨rfl, rfl⟩ ?_ ?_
  · intro l error hpc'
    simp only [RefresherPc.fetched.injEq, Option.some.injEq] at hpc'
    rw [← hpc'.1]
    simpa using hne
  · intro p hb
    rw [hpc] at hb
    simp only [Budget] at hb ⊢
    have hns : nsPerSecond = 1000000000 := rfl
    rw [hns] at hb ⊢
    omega

/-- The refresher is born with its budget untouched. -/
theorem AgeInv.started (h : AgeInv e c) (hi : CacheInv c) {clientOk threadOk ok : Bool}
    (hmv : StartMove c clientOk threadOk c' ok) : AgeInv e c' := by
  cases hmv with
  | running hrun => exact h
  | noClient hrun =>
    exact ⟨h.environ, h.closing, h.idle, h.unborn, h.stays,
      fun hne => absurd (hi.refresher_none hrun) hne, h.settings, h.full, h.budget⟩
  | noThread hrun =>
    exact ⟨h.environ, h.closing, h.idle, h.unborn, h.stays,
      fun hne => absurd (hi.refresher_none hrun) hne, h.settings, h.full, h.budget⟩
  | started hrun =>
    have h0 : c.nextSnap = 0 := h.unborn (hi.refresher_none hrun)
    refine ⟨h.environ, h.closing, h.idle, fun hs => absurd hs (by simp), h.stays,
      fun _ => by rw [← h.environ], ?_, ?_, ?_⟩
    · intro th hs
      rw [← Option.some.inj hs, h.environ]
      exact ⟨rfl, rfl⟩
    · intro th l error hs hpc
      rw [← Option.some.inj hs] at hpc
      exact absurd hpc (by simp [Refresher.create])
    · intro th hs
      rw [← Option.some.inj hs]
      refine ⟨c.clock, ?_, fun r hr => ?_⟩
      · have hr := (getPodsRefresh_range e).1
        have hns : nsPerSecond = 1000000000 := rfl
        simp only [Refresher.create, Budget, hns]
        omega
      · have hin := (hi.owned (mem_owners_of_current hr)).1
        omega

/-- Time passes within the budget. -/
theorem AgeInv.tick (h : AgeInv e c) {ns : Nat} (hok : Timely c (.tick ns)) :
    AgeInv e { c with clock := c.clock + ns } := by
  refine ⟨h.environ, h.closing, h.idle, h.unborn, h.stays, h.maxAge, h.settings, h.full, ?_⟩
  intro th hs
  obtain ⟨p, hb, hrec⟩ := h.budget th hs
  refine ⟨p, ?_, hrec⟩
  have hs' : c.refresher = some th := hs
  simp only [Timely, hs'] at hok
  cases hpc : th.pc with
  | fetching startedAt =>
    rw [hpc] at hb hok
    exact ⟨hb.1, (h.settings th hs).2 ▸ hok⟩
  | sleeping deadline =>
    rw [hpc] at hb hok
    exact ⟨hb.1, hok⟩
  | _ =>
    rw [hpc] at hb hok
    simp only at hok
    rw [hok]
    simpa using hb

/-- **One step of a timely run.** -/
theorem AgeInv.step (h : AgeInv e c) (hi : CacheInv c) {a : CacheAct} (hok : Timely c a)
    (hst : c.step a = some c') : AgeInv e c' := by
  cases hi.move_of_step hst with
  | tick => exact h.tick hok
  | closingReset =>
    exact ⟨h.environ, rfl, h.idle, h.unborn, h.stays, h.maxAge, h.settings, h.full, h.budget⟩
  | closingBegin => exact hok.elim
  | start hs hmv => exact h.started hi hmv
  | stop hmv => exact hok.elim
  | spawnReader =>
    exact ⟨h.environ, h.closing, h.idle, h.unborn, h.stays, h.maxAge, h.settings, h.full,
      h.budget⟩
  | refused hrd hacq => exact h
  | acquired hrd hcur hfresh =>
    exact h.aside hi (Quiet.counted rfl rfl rfl) rfl rfl rfl rfl rfl
  | read hrd => exact h
  | releasedLast hrd h0 => exact h.aside hi (Quiet.counted rfl rfl rfl) rfl rfl rfl rfl rfl
  | released hrd h0 => exact h.aside hi (Quiet.counted rfl rfl rfl) rfl rfl rfl rfl rfl
  | freed hrd =>
    have hr := mem_dying_of_reader (List.mem_of_getElem? hrd) rfl
    exact h.aside hi (Quiet.freed hr rfl rfl rfl) rfl rfl rfl rfl rfl
  | refresher hth hmv => exact h.refresherMoved hi hth hmv
  | fetched hth hpc hlist =>
    obtain ⟨ips', hlist', hne⟩ := hok
    exact h.fetched hth hpc (Except.ok.inj (hlist'.symm.trans hlist) ▸ hne)
  | fetchFailed hth hpc hno =>
    obtain ⟨ips', hlist', hne⟩ := hok
    exact absurd (hlist'.symm.trans hno) (by simp)
  | allocated hth hpc =>
    refine h.moved (Quiet.same rfl rfl rfl) rfl hth rfl ⟨rfl, rfl⟩ ?_ fun p hb => ?_
    · intro l error hpc'
      exact absurd hpc' (by simp)
    · rw [hpc] at hb
      exact ⟨hb, rfl⟩
  | outOfMemory hth hpc => exact absurd hok (by simp [Timely])

theorem AgeInv.init (e : Environ) (clock : Int) : AgeInv e (PodCache.init e clock) :=
  ⟨rfl, rfl, rfl, fun _ => rfl, fun h0 => absurd h0 (Nat.lt_irrefl 0), fun hne => absurd rfl hne,
    fun _ hs => absurd hs (by simp [PodCache.init]),
    fun _ _ _ hs => absurd hs (by simp [PodCache.init]),
    fun _ hs => absurd hs (by simp [PodCache.init])⟩

/-- **The invariant of every timely run.** -/
theorem AgeInv.run {clock : Int}
    (hr : Lts.Run PodCache.step Timely (PodCache.init e clock) c) : CacheInv c ∧ AgeInv e c :=
  hr.invariant (I := fun d => CacheInv d ∧ AgeInv e d)
    ⟨CacheInv.init ⟨e, clock, rfl⟩, AgeInv.init e clock⟩
    fun _ _ _ hi hok hst => ⟨hi.1.step hst, hi.2.step hi.1 hok hst⟩

/-! ## 3. Enough: the settings agree -/

/-- The age of the current list is at most a round. -/
theorem AgeInv.age_le (h : AgeInv e c) {th : Refresher} (hth : c.refresher = some th) {r : Nat}
    (hcur : c.current = some r) :
    c.nowSeconds - (c.snaps r).receivedAt ≤ e.getPodsRefresh + e.getPodsTimeout := by
  obtain ⟨p, hb, hrec⟩ := h.budget th hth
  have hle := hb.le
  rw [hrec r hcur, PodCache.nowSeconds]
  have hns : nsPerSecond = 1000000000 := rfl
  rw [hns] at hle ⊢
  omega

theorem AgeInv.acquire_ne_none (h : AgeInv e c) (hi : CacheInv c)
    (hok : e.getPodsMaxAge = 0 ∨ e.getPodsRefresh + e.getPodsTimeout ≤ e.getPodsMaxAge)
    (h0 : 0 < c.nextSnap) : c.podCacheAcquire.2 ≠ none := by
  obtain ⟨r, hcur⟩ := Option.ne_none_iff_exists'.mp (h.stays h0)
  obtain ⟨th, hth⟩ := Option.ne_none_iff_exists'.mp (fun hs => absurd (h.unborn hs) (by omega))
  have hage := h.maxAge (by rw [hth]; simp)
  have hle := h.age_le hth hcur
  have hfresh : ¬(c.maxAge > 0 ∧ c.nowSeconds - (c.snaps r).receivedAt > c.maxAge) := by
    rintro ⟨hpos, hgt⟩
    rw [hage] at hpos hgt
    rcases hok with h1 | h1 <;> omega
  simp only [PodCache.podCacheAcquire, hcur,
    PodCache.touchSnap_of_live (hi.owned (mem_owners_of_current hcur)), if_neg hfresh]
  simp

/-- Where no request can succeed nothing is published in a timely run. -/
theorem nextSnap_of_noRequest (hno : NoRequest e) {clock : Int}
    (hr : Lts.Run PodCache.step Timely (PodCache.init e clock) c) : c.nextSnap = 0 := by
  have hnever : ∀ a, ¬ Succeeds e a := by
    rintro a ⟨ips, hlist, -⟩
    rcases hres : resolveNamespace e.deploymentEnv a.namespaceFile maxNamespaceSize with
      error | name
    · simp only [podListFetch, hres] at hlist
      exact absurd hlist (by simp)
    · exact hno _ _ hres
  have hall : (CacheInv c ∧ c.environ = e) ∧ c.inFlight = none ∧ c.nextSnap = 0 := by
    refine hr.invariant
      (I := fun d => (CacheInv d ∧ d.environ = e) ∧ d.inFlight = none ∧ d.nextSnap = 0)
      ⟨⟨CacheInv.init ⟨e, clock, rfl⟩, rfl⟩, rfl, rfl⟩ ?_
    rintro t a u ⟨⟨hi, he⟩, hin, h0⟩ hok hst
    have hnone : u.inFlight = none := by
      by_contra hne
      obtain ⟨l, hl⟩ := Option.ne_none_iff_exists'.mp hne
      rcases hi.inFlight_step hst hl with ⟨hin', -⟩ | ⟨b, ips, rfl, -, -⟩
      · exact absurd (hin.symm.trans hin') (by simp)
      · exact hnever b (he ▸ hok)
    refine ⟨⟨hi.step hst, ?_⟩, hnone, ?_⟩
    · rcases hi.step_cases hst with hq | ⟨th, receivedAt, l, -, -, -, rfl⟩ | ⟨-, -, rfl⟩
      · exact hq.environ.trans he
      · exact he
      · exact he
    · rcases hi.step_cases hst with hq | ⟨th, receivedAt, l, -, hth, hpc, -⟩ | ⟨-, -, rfl⟩
      · exact hq.nextSnap.trans h0
      · have hin' : t.inFlight = some l := by
          simp only [PodCache.inFlight, hth, Option.bind_some, hpc, RefresherPc.inFlight]
        exact absurd (hin.symm.trans hin') (by simp)
      · exact h0
  exact hall.2.2

theorem neverSilenced_of_ageOk (hok : AgeOk e) : NeverSilenced e := by
  intro clock c hr h0
  obtain ⟨hi, ha⟩ := AgeInv.run hr
  rcases hok with h1 | h1 | h1
  · exact ha.acquire_ne_none hi (Or.inl h1) h0
  · exact ha.acquire_ne_none hi (Or.inr h1) h0
  · have := nextSnap_of_noRequest h1 hr
    omega

end Steps

/-! ## 4. Needed: a round that takes its time -/

section Late

variable {e : Environ}

/-- The state in the sleep behind a first round that took no time. -/
structure FirstSleep (e : Environ) (c : PodCache) (th : Refresher) : Prop where
  run : Lts.Run PodCache.step Timely (PodCache.init e 0) c
  refresher : c.refresher = some th
  pc : th.pc = .sleeping (e.getPodsRefresh * nsPerSecond)
  timeout : th.timeout = e.getPodsTimeout
  clock : c.clock = 0
  closing : c.closing = false
  maxAge : c.maxAge = e.getPodsMaxAge
  nextSnap : c.nextSnap = 1
  current : c.current = some 0
  receivedAt : (c.snaps 0).receivedAt = 0

theorem firstSleep_exists {file : Option (List Byte)} {name : Text}
    (h : resolveNamespace e.deploymentEnv file maxNamespaceSize = .ok name) :
    ∃ c th, FirstSleep e c th := by
  have hlist := podListFetch_onePod h
  let th : Refresher := Refresher.create e
  let s1 : PodCache :=
    { PodCache.init e 0 with
      maxAge := e.getPodsMaxAge
      client := some 0
      clients := [0]
      refresher := some th
      refreshers := [0]
      refresherRunning := true }
  have h1 : (PodCache.init e 0).step (.start true true) = some s1 := rfl
  let s2 : PodCache := { s1 with refresher := some { th with pc := .fetching 0 } }
  have h2 : s1.step .refresher = some s2 := rfl
  let th3 : Refresher := { th with answer := some (onePod file) }
  let s3 : PodCache :=
    { s1 with
      lists := Function.update s1.lists 0 ⟨[ascii "10.0.0.7"], 0⟩
      nextList := 1
      refresher := some { th3 with pc := .fetched (some 0) [] } }
  have h3 : s2.step (.fetchEnds (onePod file)) = some s3 := by
    change PodCache.fetchEnds s2 (onePod file) = some s3
    have henv : s2.environ = e := rfl
    simp only [PodCache.fetchEnds, s2, s1, PodCache.init, hlist]
    rfl
  let th4 : Refresher := { th3 with count := 1 }
  let s4 : PodCache := { s3 with refresher := some { th4 with pc := .publishing 0 } }
  have h4 : s3.step .refresher = some s4 := rfl
  let s5 : PodCache := { s3 with refresher := some { th4 with pc := .swapping 0 0 } }
  have h5 : s4.step (.publishAlloc true) = some s5 := rfl
  let s6 : PodCache :=
    { s3 with
      snaps := Function.update s3.snaps 0 ⟨1, 0, 0, 0⟩
      nextSnap := 1
      current := some 0
      refresher := some { th4 with pc := .releasing none } }
  have h6 : s5.step .refresher = some s6 := rfl
  let s7 : PodCache := { s6 with refresher := some { th4 with pc := .succeeded } }
  have h7 : s6.step .refresher = some s7 := rfl
  let th8 : Refresher :=
    { th4 with lastCount := 1, pc := .sleeping (0 + e.getPodsRefresh * nsPerSecond) }
  let s8 : PodCache := { s6 with log := [.announcing 1], refresher := some th8 }
  have h8 : s7.step .refresher = some s8 := rfl
  refine ⟨s8, th8, ⟨?_, rfl, congrArg RefresherPc.sleeping (zero_add _), rfl, rfl, rfl, rfl, rfl,
    rfl, rfl⟩⟩
  refine Lts.Run.cons (a := .start true true) trivial h1 ?_
  refine Lts.Run.cons (a := .refresher) trivial h2 ?_
  refine Lts.Run.cons (a := .fetchEnds (onePod file)) ⟨_, hlist, by simp⟩ h3 ?_
  refine Lts.Run.cons (a := .refresher) trivial h4 ?_
  refine Lts.Run.cons (a := .publishAlloc true) rfl h5 ?_
  refine Lts.Run.cons (a := .refresher) trivial h6 ?_
  refine Lts.Run.cons (a := .refresher) trivial h7 ?_
  exact Lts.Run.single (a := .refresher) trivial h8

/-- **A round that uses its whole timeout** leaves a list behind that is `refresh + timeout`
seconds old. -/
theorem FirstSleep.late {c : PodCache} {th : Refresher} (h : FirstSleep e c th) :
    ∃ d, Lts.Run PodCache.step Timely (PodCache.init e 0) d ∧ d.nextSnap = 1 ∧
      d.maxAge = e.getPodsMaxAge ∧ d.current = some 0 ∧ (d.snaps 0).receivedAt = 0 ∧
      d.clock = (e.getPodsRefresh + e.getPodsTimeout) * nsPerSecond := by
  have hns : nsPerSecond = 1000000000 := rfl
  have hr := (getPodsRefresh_range e).1
  have ht := (getPodsTimeout_range e).1
  have hrefresh : ((e.getPodsRefresh * nsPerSecond).toNat : Int)
      = e.getPodsRefresh * nsPerSecond := Int.toNat_of_nonneg (by rw [hns]; omega)
  have htimeout : ((e.getPodsTimeout * nsPerSecond).toNat : Int)
      = e.getPodsTimeout * nsPerSecond := Int.toNat_of_nonneg (by rw [hns]; omega)
  -- the sleep, to its end
  let c1 : PodCache := { c with clock := c.clock + (e.getPodsRefresh * nsPerSecond).toNat }
  have hclock1 : c1.clock = e.getPodsRefresh * nsPerSecond := by
    change c.clock + _ = _
    rw [h.clock, hrefresh, zero_add]
  have hok1 : Timely c (.tick (e.getPodsRefresh * nsPerSecond).toNat) := by
    simp only [Timely, h.refresher, h.pc, h.clock, hrefresh, zero_add, le_refl]
  -- the next round, up to its request
  have hwake : c1.step .refresher = some (c1.goto th .check) := by
    have hth : c1.refresher = some th := h.refresher
    have hle : e.getPodsRefresh * nsPerSecond ≤ c1.clock := le_of_eq hclock1.symm
    simp only [PodCache.step, hth, Option.bind_some, PodCache.refresherStep, h.pc,
      if_pos (Or.inr hle)]
  let c2 : PodCache := c1.goto th .check
  let th3 : Refresher := { th with pc := .fetching c1.clock, answer := none }
  have hfetch : c2.step .refresher = some { c2 with refresher := some th3 } := by
    have hcl : ¬ c2.closing = true := by
      rw [show c2.closing = false from h.closing]
      simp
    change c2.refresherStep { th with pc := .check } = _
    simp only [PodCache.refresherStep, if_neg hcl]
    rfl
  let c3 : PodCache := { c2 with refresher := some th3 }
  -- the request, up to its timeout
  let c4 : PodCache := { c3 with clock := c3.clock + (e.getPodsTimeout * nsPerSecond).toNat }
  have hok4 : Timely c3 (.tick (e.getPodsTimeout * nsPerSecond).toNat) := by
    change c3.clock + _ ≤ c1.clock + th.timeout * nsPerSecond
    rw [h.timeout, htimeout]
    exact le_refl _
  refine ⟨c4, ?_, h.nextSnap, h.maxAge, h.current, h.receivedAt, ?_⟩
  · refine h.run.trans ?_
    refine Lts.Run.cons hok1 (show c.step _ = some c1 from rfl) ?_
    refine Lts.Run.cons (a := .refresher) trivial hwake ?_
    refine Lts.Run.cons (a := .refresher) trivial hfetch ?_
    exact Lts.Run.single hok4 rfl
  · change c1.clock + _ = _
    rw [hclock1, htimeout, Int.add_mul]

theorem ageOk_of_neverSilenced (h : NeverSilenced e) : AgeOk e := by
  by_contra hno
  simp only [AgeOk, NoRequest, not_or, not_forall, not_le, not_not] at hno
  obtain ⟨hpos, hgt, file, name, hres⟩ := hno
  obtain ⟨c, th, hc⟩ := firstSleep_exists hres
  obtain ⟨d, hrun, hns, hage, hcur, hrec, hclock⟩ := hc.late
  refine h 0 d hrun (by omega) ?_
  have hlive := (AgeInv.run hrun).1.owned (mem_owners_of_current hcur)
  have hnow : d.nowSeconds = e.getPodsRefresh + e.getPodsTimeout := by
    rw [PodCache.nowSeconds, hclock]
    exact Int.mul_ediv_cancel _ (by decide)
  have hexp : d.maxAge > 0 ∧ d.nowSeconds - (d.snaps 0).receivedAt > d.maxAge := by
    have := (getPodsMaxAge_range e).1
    rw [hage, hrec, hnow]
    omega
  simp only [PodCache.podCacheAcquire, hcur, PodCache.touchSnap_of_live hlive, if_pos hexp]

end Late

/-! ## 5. The result -/

/-- **When the maximal age never silences a broker whose requests succeed**: when it is off,
when it is not below `refresh + timeout`, or when no request can be made at all. -/
theorem never_silenced_iff (e : Environ) : NeverSilenced e ↔ AgeOk e :=
  ⟨ageOk_of_neverSilenced, neverSilenced_of_ageOk⟩

/-- The default refresh and timeout with a maximal age of 5 seconds. -/
def maxAgeFive : Environ where
  podsMaxAge := some ⟨ascii "5", by decide⟩
  deploymentEnv := some ⟨ascii "prod", by decide⟩

/-- A broker is silenced although each of its requests succeeds in time. -/
theorem never_silenced_maxAgeFive_fails :
    ¬ NeverSilenced maxAgeFive ∧ maxAgeFive.getPodsRefresh = 5 ∧ maxAgeFive.getPodsTimeout = 5 ∧
      maxAgeFive.getPodsMaxAge = 5 := by
  refine ⟨fun h => ?_, by decide +kernel, by decide +kernel, by decide +kernel⟩
  rcases ageOk_of_neverSilenced h with h1 | h1 | h1
  · exact absurd h1 (by decide +kernel)
  · exact absurd h1 (by decide +kernel)
  · exact h1 none (ascii "prod") (by decide +kernel)

end Unicaster
