/-
# No failure is final

Requests fail, lists expire, sends fail, memory runs out, and every one of these leaves something
behind: counters, deadlines, what was said.  Nothing of it is in the way: from whatever state is
reached while the module is broadcasting, the threads alone can bring any good answer of the API
into use, and every sender then announces to the whole of it (`no_failure_is_final`).

The run that does it has three stretches: the senders come to the head of their loop, the refresher
comes round to a request and publishes the answer, and each sender makes a pass.
-/
import Unicaster.Pace

namespace Unicaster

open CLib

/-! ## 1. With the flag clear nobody has ended -/

/-- The value of the flag that the sender acts on. -/
def SenderPc.saw : SenderPc → Bool
  | .acquiring closing => closing
  | .sending p => p.closing
  | .reporting p => p.closing
  | .releasing p => p.closing
  | .freeing closing => closing
  | .exited => true
  | _ => false

/-- Who acts on the signal, or has ended, does so because it was raised. -/
structure Heeded (s : System) : Prop where
  senders : ∀ th ∈ s.senders, th.joined = 0 → th.pc.saw = true → s.cache.closing = true
  refresher : ∀ th, s.cache.refresher = some th → th.pc = .exited → s.cache.closing = true

section Heeded

variable {s s' : System} {c c' : PodCache} {a : Act}

theorem endPass_saw (th : Sender) (closing : Bool) (clock : Int) :
    (th.endPass closing clock).pc.saw = closing := by
  cases closing <;> rfl

/-- A sender finds the signal at the check of the flag only. -/
theorem SenderMove.saw {guid : Text} {enableLogging : Bool} {config : Config} {t : Nat}
    {o : SendOutcome} {th th' : Sender}
    (h : SenderMove c guid enableLogging config t o th c' th') (hsaw : th'.pc.saw = true) :
    th.pc.saw = true ∨ c.closing = true := by
  cases h with
  | prepare hpc => exact absurd hsaw (by simp [Sender.prepare, SenderPc.saw])
  | beginPass hpc => exact Or.inr hsaw
  | acquired hpc hc =>
    rw [hpc]
    exact Or.inl hsaw
  | @sent p r ip c' hpc hs hc hip =>
    obtain ⟨l, log, hl, -, -, heq⟩ := sendTo_eq th p ip enableLogging o
    rw [heq] at hsaw
    rw [hpc]
    exact Or.inl (hl.symm.trans hsaw)
  | sendsEnd hpc hc =>
    rw [hpc]
    exact Or.inl hsaw
  | reported hpc hc =>
    rw [hpc]
    exact Or.inl hsaw
  | toFree hpc hs hc hf =>
    rw [hpc]
    exact Or.inl hsaw
  | released hpc hc =>
    rw [endPass_saw] at hsaw
    rw [hpc]
    exact Or.inl hsaw
  | freed hpc hc =>
    rw [endPass_saw] at hsaw
    rw [hpc]
    exact Or.inl hsaw
  | woken hpc hw => exact absurd hsaw (by simp [SenderPc.saw])

/-- The refresher ends only behind the signal. -/
theorem CacheInv.exited_step (h : CacheInv c) {b : CacheAct} (hst : c.step b = some c')
    {th' : Refresher} (hth' : c'.refresher = some th') (hpc' : th'.pc = .exited) :
    c.closing = true ∨ ∃ th, c.refresher = some th ∧ th.pc = .exited := by
  have hsame : c'.refresher = c.refresher → ∃ th, c.refresher = some th ∧ th.pc = .exited :=
    fun heq => ⟨th', heq ▸ hth', hpc'⟩
  have hno : ∀ {th : Refresher}, c'.refresher = some th → th.pc ≠ .exited → c.closing = true := by
    intro th hth hpc
    obtain rfl := Option.some.inj (hth.symm.trans hth')
    exact absurd hpc' hpc
  cases h.move_of_step hst with
  | @refresher th c' hth hmv =>
    cases hmv with
    | leave hpc hcl => exact Or.inl hcl
    | giveUp hpc hcl => exact Or.inl hcl
    | discard hpc hcl => exact Or.inl hcl
    | @report error now expired hpc =>
      obtain ⟨log, th1, heq, hpc1, -⟩ := h.endFailure_eq th error now expired
      have hth1 : (c.endFailure th error now expired).refresher = some th1 := by rw [heq]
      exact Or.inl (hno hth1 (by rw [hpc1]; simp))
    | _ => exact Or.inl (hno rfl (by simp))
  | start hs hmv =>
    obtain ⟨-, -, -, heq | heq, -⟩ := hmv.frame
    · exact Or.inr (hsame heq)
    · exact Or.inl (hno heq (by simp [Refresher.create]))
  | stop hmv =>
    obtain ⟨-, heq | heq, -⟩ := hmv.frame
    · exact Or.inr (hsame heq)
    · rw [heq] at hth'
      exact absurd hth' (by simp)
  | fetched hth hpc hok => exact Or.inl (hno rfl (by simp))
  | fetchFailed hth hpc hfail => exact Or.inl (hno rfl (by simp))
  | allocated hth hpc => exact Or.inl (hno rfl (by simp))
  | outOfMemory hth hpc => exact Or.inl (hno rfl (by simp))
  | _ => exact Or.inr (hsame rfl)

/-- A step that leaves the flag clear is taken with the flag clear, or it begins a load. -/
theorem System.Reachable.clear_before (h : s.Reachable) (hst : s.step a = some s')
    (hcl' : s'.cache.closing = false) : NewLoad s a ∨ s.cache.closing = false := by
  by_cases hnew : NewLoad s a
  · exact Or.inl hnew
  · refine Or.inr (Bool.eq_false_iff.mpr fun hcl => ?_)
    rw [(h.closing_step hcl hnew hst).1] at hcl'
    exact absurd hcl' (by simp)

/-- **A sender that is not joined**, behind a step that leaves the flag clear. -/
theorem Heeded.senders_step (h : Heeded s) (hr : s.Reachable) (hst : s.step a = some s')
    (hcl' : s'.cache.closing = false) {th' : Sender} (hm : th' ∈ s'.senders)
    (hj : th'.joined = 0) : th'.pc.saw = false := by
  have hold : s.cache.closing = false → ∀ th ∈ s.senders, th.joined = 0 → th.pc.saw = false := by
    intro hcl th hth hj
    refine Bool.eq_false_iff.mpr fun hsaw => ?_
    rw [h.senders th hth hj hsaw] at hcl
    exact absurd hcl (by simp)
  rcases hr.clear_before hst hcl' with hnew | hcl
  · obtain ⟨o, rfl, hloaded, hbusy⟩ := hnew
    have hclosed := hr.closed_of_newLoad ⟨o, rfl, hloaded, hbusy⟩ hst
    have hsame : s'.senders = s.senders := by
      cases System.move_of_step hst with
      | refused hm hb => rfl
      | curlFails hm hl hb hc => rfl
      | load hm hl hb hc => rfl
      | refresher hb hc ha => exact ha.elim
      | cleanup hm hl ha => exact ha.elim
    rw [hsame] at hm
    rw [(hclosed.senders th' hm).2] at hj
    exact absurd hj (by simp)
  · cases System.move_of_step hst with
    | @sender t o th c' th1 hth hmv =>
      have hkeep := hmv.fixed.1.1
      rcases List.mem_or_eq_of_mem_set hm with hm | rfl
      · exact hold hcl th' hm hj
      · refine Bool.eq_false_iff.mpr fun hsaw => ?_
        rcases hmv.saw hsaw with hsaw0 | hcl0
        · rw [hold hcl th (List.mem_of_getElem? hth) (hkeep ▸ hj)] at hsaw0
          exact absurd hsaw0 (by simp)
        · rw [hcl] at hcl0
          exact absurd hcl0 (by simp)
    | cron hm0 hhook hst0 =>
      rw [(cronBroadcastOnce_frame hst0).1] at hm
      exact hold hcl th' hm hj
    | main hst0 =>
      have hp := hr.life.place
      rcases mainStep_eq hst0 with ⟨hm0, rfl⟩ | ⟨ifa, todo, hm0, rfl⟩ |
        ⟨i, caller, s1, hm0, hi, hj0, rfl⟩ | ⟨i, caller, hm0, hi, rfl⟩ |
        ⟨caller, c', hm0, hc, rfl⟩
      · exact hold hcl th' hm hj
      · rcases spawnStep_eq s ifa _ with heq | heq | ⟨addr, slots, -, -, -, heq⟩
        · rw [heq] at hm
          exact hold hcl th' hm hj
        · rw [heq] at hm
          exact hold hcl th' hm hj
        · rw [heq] at hm
          rcases List.mem_append.mp hm with hm | hm
          · exact hold hcl th' hm hj
          · rw [List.mem_singleton.mp hm]
            rfl
      · rw [hm0] at hp
        rw [hp.2.1] at hcl
        exact absurd hcl (by simp)
      · rw [hm0] at hp
        rw [hp.2.1] at hcl
        exact absurd hcl (by simp)
      · rw [hm0] at hp
        rw [hp.1] at hcl
        exact absurd hcl (by simp)
    | _ => exact hold hcl th' hm hj

theorem Heeded.step (h : Heeded s) (hr : s.Reachable) (hst : s.step a = some s') : Heeded s' := by
  refine ⟨fun th' hm hj hsaw => ?_, fun th' hth' hpc' => ?_⟩
  · by_contra hno
    rw [h.senders_step hr hst (Bool.eq_false_iff.mpr hno) hm hj] at hsaw
    exact absurd hsaw (by simp)
  · by_contra hno
    have hexited : ∀ th, s.cache.refresher = some th → th.pc = .exited →
        s.cache.closing = false → False := by
      intro th hth hpc hcl
      rw [h.refresher th hth hpc] at hcl
      exact absurd hcl (by simp)
    rcases hr.clear_before hst (Bool.eq_false_iff.mpr hno) with hnew | hcl
    · obtain ⟨o, rfl, hloaded, hbusy⟩ := hnew
      have hnone := (hr.closed_of_newLoad ⟨o, rfl, hloaded, hbusy⟩ hst).refresher
      have hsame : s'.cache.refresher = s.cache.refresher := by
        cases System.move_of_step hst with
        | refused hm hb => rfl
        | curlFails hm hl hb hc => rfl
        | load hm hl hb hc => rfl
        | refresher hb hc ha => exact ha.elim
        | cleanup hm hl ha => exact ha.elim
      rw [hsame, hnone] at hth'
      exact absurd hth' (by simp)
    · rcases (System.move_of_step hst).cache with heq | ⟨b, hb⟩
      · rw [heq] at hth'
        exact hexited th' hth' hpc' hcl
      · rcases hr.cache.inv.exited_step hb hth' hpc' with hraised | ⟨th, hth, hpc⟩
        · rw [hcl] at hraised
          exact absurd hraised (by simp)
        · exact hexited th hth hpc hcl

theorem System.Reachable.heeded (h : s.Reachable) : Heeded s := by
  have hboth : s.Reachable ∧ Heeded s := by
    refine Lts.Reachable.invariant (I := fun u => u.Reachable ∧ Heeded u) h ?_ ?_
    · rintro u ⟨e, clock, config, rfl⟩
      refine ⟨Lts.Reachable.of_init ⟨e, clock, config, rfl⟩, ⟨?_, ?_⟩⟩
      · exact fun th hm => absurd hm (by simp [System.init])
      · exact fun th hth => absurd hth (by simp [System.init, PodCache.init])
    · exact fun u a v hu hst => ⟨hu.1.next hst, hu.2.step hu.1 hst⟩
  exact hboth.2

end Heeded

/-! ## 2. The threads alone -/

/-- The threads go on, and the clock; the server and the main thread do nothing. -/
def InBackground (_ : System) : Act → Prop
  | .tick _ => True
  | .refresher => True
  | .fetchEnds _ => True
  | .publishAlloc _ => True
  | .sender _ _ => True
  | _ => False

/-- The module is broadcasting, in this environment. -/
structure Broadcasting (e : Environ) (s : System) : Prop where
  reachable : s.Reachable
  defined : s.undefined = false
  clear : s.cache.closing = false
  running : s.cache.refresherRunning = true
  environ : s.cache.environ = e

/-- Nothing fails of a send. -/
def sendOk : SendOutcome := ⟨true, true, 0⟩

section Background

variable {e : Environ} {s : System} {c' : PodCache}

/-- A thread of the cache moves. -/
theorem Broadcasting.thread (h : Broadcasting e s) {b : CacheAct} (hb : ¬ b.OfMain)
    (hc : s.cache.step b = some c') :
    c'.closing = false ∧ c'.refresherRunning = true ∧ c'.environ = e := by
  obtain ⟨hcl, hrun, -⟩ := h.reachable.cache.inv.thread_step hb hc
  exact ⟨hcl.trans h.clear, hrun.trans h.running,
    (h.reachable.cache.inv.environ_step hc).trans h.environ⟩

theorem Broadcasting.tick (h : Broadcasting e s) (ns : Nat) :
    s.step (.tick ns) = some { s with cache := { s.cache with clock := s.cache.clock + ns } } ∧
      Broadcasting e { s with cache := { s.cache with clock := s.cache.clock + ns } } := by
  have hst : s.step (.tick ns) =
      some { s with cache := { s.cache with clock := s.cache.clock + ns } } := by
    rw [System.step, if_neg (by rw [h.defined]; simp)]
    rfl
  exact ⟨hst, h.reachable.next hst, h.defined, h.clear, h.running, h.environ⟩

/-- The refresher goes on, or what it waits for ends. -/
theorem Broadcasting.refresher (h : Broadcasting e s) {b : CacheAct} (hb : b.OfRefresher)
    (hc : s.cache.step b = some c') :
    Lts.Run System.step InBackground s { s with cache := c' } ∧
      Broadcasting e { s with cache := c' } := by
  have hstep : ∃ a, InBackground s a ∧ s.step a = some { s with cache := c' } := by
    have hcs : s.cacheStep b = some { s with cache := c' } := by
      rw [System.cacheStep, hc, Option.map_some]
    cases b with
    | refresher =>
      refine ⟨.refresher, trivial, ?_⟩
      simpa only [System.step, h.defined, Bool.false_eq_true, if_false] using hcs
    | fetchEnds a =>
      refine ⟨.fetchEnds a, trivial, ?_⟩
      simpa only [System.step, h.defined, Bool.false_eq_true, if_false] using hcs
    | publishAlloc ok =>
      refine ⟨.publishAlloc ok, trivial, ?_⟩
      simpa only [System.step, h.defined, Bool.false_eq_true, if_false] using hcs
    | _ => exact hb.elim
  obtain ⟨a, ha, hst⟩ := hstep
  obtain ⟨hcl, hrun, he⟩ := h.thread hb.not_main hc
  exact ⟨Lts.Run.single ha hst, h.reachable.next hst, h.defined, hcl, hrun, he⟩

/-- A sender goes on. -/
theorem Broadcasting.sender (h : Broadcasting e s) {t : Nat} {th : Sender}
    (hth : s.senders[t]? = some th) (hpc : th.pc ≠ .exited)
    (hawake : ∀ d, th.pc = .sleeping d → d ≤ s.cache.clock) :
    ∃ c' th', SenderMove s.cache s.statics.redisGuid s.statics.enableLogging s.host.config t
        sendOk th c' th' ∧
      Lts.Run System.step InBackground s { s with cache := c', senders := s.senders.set t th' } ∧
      Broadcasting e { s with cache := c', senders := s.senders.set t th' } := by
  obtain ⟨⟨c', th'⟩, hown⟩ := (h.reachable.senders.sender t th hth).enabled h.reachable.cache hpc
    (fun d hd => Or.inr (hawake d hd)) s.statics.redisGuid s.statics.enableLogging s.host.config
    sendOk
  have hmv := Sender.move_of_step hown
  have hst : s.step (.sender t sendOk) =
      some { s with cache := c', senders := s.senders.set t th' } := by
    simp only [System.step, h.defined, Bool.false_eq_true, if_false, System.senderStep, hth,
      Option.bind_some, hown, Option.map_some]
  have hcache : c'.closing = false ∧ c'.refresherRunning = true ∧ c'.environ = e := by
    rcases hmv.cache with rfl | ⟨b, hb, hc⟩
    · exact ⟨h.clear, h.running, h.environ⟩
    · exact h.thread hb.not_main hc
  exact ⟨c', th', hmv, Lts.Run.single (a := .sender t sendOk) trivial hst,
    h.reachable.next hst, h.defined, hcache.1, hcache.2.1, hcache.2.2⟩

/-- A sender that is not joined has not ended. -/
theorem Broadcasting.not_exited (h : Broadcasting e s) {th : Sender} (hm : th ∈ s.senders)
    (hj : th.joined = 0) : th.pc ≠ .exited := by
  intro hpc
  have hcl := h.reachable.heeded.senders th hm hj (by rw [hpc]; rfl)
  rw [h.clear] at hcl
  exact absurd hcl (by simp)

/-- The refresher lives. -/
theorem Broadcasting.alive (h : Broadcasting e s) :
    ∃ th, s.cache.refresher = some th ∧ th.pc ≠ .exited := by
  have hsome := h.reachable.cache.inv.running
  rw [h.running] at hsome
  obtain ⟨th, hth⟩ := Option.isSome_iff_exists.mp hsome.symm
  refine ⟨th, hth, fun hpc => ?_⟩
  have hcl := h.reachable.heeded.refresher th hth hpc
  rw [h.clear] at hcl
  exact absurd hcl (by simp)

end Background

/-! ## 3. The senders come to the head of their loop -/

/-- The steps of a sender up to the head of its loop. -/
def SenderPc.toCheck : SenderPc → Nat
  | .start => 1
  | .check => 0
  | .sleeping _ => 1
  | .exited => 0
  | pc => pc.passLeft + 1

theorem SenderPc.toCheck_le (pc : SenderPc) : pc.toCheck ≤ pc.passLeft + 1 := by
  cases pc <;> simp only [SenderPc.toCheck, SenderPc.passLeft] <;> omega

/-- No sender is anywhere else. -/
def System.AtCheck (s : System) : Prop := ∀ th ∈ s.senders, th.joined = 0 → th.pc = .check

section Gather

variable {e : Environ} {s : System} {c c' : PodCache}

theorem SenderMove.toCheck_lt {guid : Text} {enableLogging : Bool} {config : Config} {t : Nat}
    {o : SendOutcome} {th th' : Sender}
    (h : SenderMove c guid enableLogging config t o th c' th') (hi : SenderInv c t th)
    (hc : c.Reachable) (hpc0 : th.pc ≠ .check) : th'.pc.toCheck < th.pc.toCheck := by
  have hpass : th.pc.toCheck = th.pc.passLeft + 1 → th.pc.passLeft ≠ 0 →
      th'.pc.toCheck < th.pc.toCheck := by
    intro heq h0
    have hlt := h.passCloser hi hc h0
    have hle := th'.pc.toCheck_le
    omega
  cases hp : th.pc with
  | start =>
    cases h with
    | prepare hpc => exact Nat.one_pos
    | _ => simp_all
  | check => exact absurd hp hpc0
  | sleeping d =>
    cases h with
    | woken hpc hw => exact Nat.one_pos
    | _ => simp_all
  | exited => exact absurd hp h.fixed.2
  | _ =>
    rw [← hp]
    exact hpass (by rw [hp]; rfl) (by rw [hp]; simp [SenderPc.passLeft])

/-- A sender that is elsewhere comes closer, once its deadline has come. -/
theorem Broadcasting.gather_one (h : Broadcasting e s) {t : Nat} {th : Sender}
    (hth : s.senders[t]? = some th) (hj : th.joined = 0) (hpc : th.pc ≠ .check) :
    ∃ u, Lts.Run System.step InBackground s u ∧ Broadcasting e u ∧
      (u.senders.map (·.pc.toCheck)).sum < (s.senders.map (·.pc.toCheck)).sum := by
  have hlive := h.not_exited (List.mem_of_getElem? hth) hj
  have hgo : ∀ {v : System}, Broadcasting e v → v.senders = s.senders →
      (∀ d, th.pc = .sleeping d → d ≤ v.cache.clock) →
      ∃ u, Lts.Run System.step InBackground v u ∧ Broadcasting e u ∧
        (u.senders.map (·.pc.toCheck)).sum < (s.senders.map (·.pc.toCheck)).sum := by
    intro v hv hsame hawake
    have hthv : v.senders[t]? = some th := hsame ▸ hth
    obtain ⟨c', th', hmv, hrun, hb⟩ := hv.sender hthv hlive hawake
    refine ⟨_, hrun, hb, ?_⟩
    have hlt := hmv.toCheck_lt (hv.reachable.senders.sender t th hthv) hv.reachable.cache hpc
    have hsum := List.sum_map_set (fun th : Sender => th.pc.toCheck) hth th'
    rw [← hsame] at hsum
    simp only at hsum ⊢
    rw [← hsame]
    omega
  by_cases hawake : ∀ d, th.pc = .sleeping d → d ≤ s.cache.clock
  · exact hgo h rfl hawake
  · obtain ⟨d, hd, hearly⟩ := not_forall₂.mp hawake
    obtain ⟨hst, hb⟩ := h.tick (d - s.cache.clock).toNat
    have hdue : ∀ d', th.pc = .sleeping d' →
        d' ≤ s.cache.clock + ((d - s.cache.clock).toNat : Int) := by
      intro d' hd'
      obtain rfl := SenderPc.sleeping.inj (hd.symm.trans hd')
      omega
    obtain ⟨u, hrun, hu, hlt⟩ := hgo hb rfl hdue
    exact ⟨u, Lts.Run.cons (a := .tick _) trivial hst hrun, hu, hlt⟩

/-- **The senders gather** at the heads of their loops. -/
theorem Broadcasting.gather (h : Broadcasting e s) :
    ∃ u, Lts.Run System.step InBackground s u ∧ Broadcasting e u ∧ u.AtCheck := by
  refine Lts.Run.reaches_by_runs (Broadcasting e) System.AtCheck
    (fun u => (u.senders.map (·.pc.toCheck)).sum) h fun u hu hno => ?_
  unfold System.AtCheck at hno
  push Not at hno
  obtain ⟨th, hm, hj, hpc⟩ := hno
  obtain ⟨t, hth⟩ := List.getElem?_of_mem hm
  exact hu.gather_one hth hj hpc

end Gather

/-! ## 4. The refresher comes round -/

/-- The steps of the refresher up to its next request. -/
def RefresherPc.toFetch : RefresherPc → Nat
  | .check => 1
  | .fetching _ => 0
  | .fetched _ _ => 8
  | .publishing _ => 7
  | .swapping _ _ => 6
  | .releasing _ => 5
  | .freeing _ => 4
  | .succeeded => 3
  | .failed _ => 5
  | .judging _ _ => 4
  | .reporting _ _ _ => 3
  | .sleeping _ => 2
  | .exited => 0

def PodCache.toFetch (c : PodCache) : Nat :=
  match c.refresher with
  | some th => th.pc.toFetch
  | none => 0

/-- The list is current, and it has just been received. -/
def PodCache.JustPublished (c : PodCache) (ips : List Text) : Prop :=
  ∃ r, c.current = some r ∧ c.podsOf r = ips ∧ (c.snaps r).receivedAt = c.nowSeconds

section Refresh

variable {e : Environ} {s : System} {c c' : PodCache} {th : Refresher}

/-- With the flag clear the refresher's own moves bring it closer to its next request. -/
theorem CacheInv.fetch_closer (h : CacheInv c) (hcl : c.closing = false)
    (hmv : RefresherMove c th c') :
    ∃ th', c'.refresher = some th' ∧ th'.pc.toFetch < th.pc.toFetch := by
  have hraised : c.closing ≠ true := by
    rw [hcl]
    simp
  cases hmv with
  | leave hpc hset => exact absurd hset hraised
  | giveUp hpc hset => exact absurd hset hraised
  | discard hpc hset => exact absurd hset hraised
  | @report error now expired hpc =>
    obtain ⟨log, th', heq, hpc', -⟩ := h.endFailure_eq th error now expired
    rw [heq, hpc]
    exact ⟨th', rfl, by rw [hpc']; exact Nat.lt_succ_self 2⟩
  | request hpc _ => exact ⟨_, rfl, by rw [hpc]; exact Nat.one_pos⟩
  | noList hpc _ => exact ⟨_, rfl, by rw [hpc]; exact (by decide : 5 < 8)⟩
  | empty hpc _ hips => exact ⟨_, rfl, by rw [hpc]; exact (by decide : 5 < 8)⟩
  | offer hpc _ hips => exact ⟨_, rfl, by rw [hpc]; exact Nat.lt_succ_self 7⟩
  | swap hpc => exact ⟨_, rfl, by rw [hpc]; exact Nat.lt_succ_self 5⟩
  | noPrevious hpc => exact ⟨_, rfl, by rw [hpc]; exact (by decide : 3 < 5)⟩
  | dropLast hpc h0 => exact ⟨_, rfl, by rw [hpc]; exact Nat.lt_succ_self 4⟩
  | drop hpc h0 => exact ⟨_, rfl, by rw [hpc]; exact (by decide : 3 < 5)⟩
  | free hpc => exact ⟨_, rfl, by rw [hpc]; exact Nat.lt_succ_self 3⟩
  | succeed hpc => exact ⟨_, rfl, by rw [hpc]; exact Nat.lt_succ_self 2⟩
  | fail hpc => exact ⟨_, rfl, by rw [hpc]; exact Nat.lt_succ_self 4⟩
  | judge hpc => exact ⟨_, rfl, by rw [hpc]; exact Nat.lt_succ_self 3⟩
  | wake hpc hend => exact ⟨_, rfl, by rw [hpc]; exact Nat.lt_succ_self 1⟩

/-- **The refresher goes on to its next request**, once its deadline has come. -/
theorem CacheInv.comes_round (h : CacheInv c) (hcl : c.closing = false)
    (hth : c.refresher = some th) (hpc : th.pc ≠ .exited) (hno : ∀ x, th.pc ≠ .fetching x)
    (hdue : ∀ d, th.pc = .sleeping d → d ≤ c.clock) :
    ∃ b c', b.OfRefresher ∧ c.step b = some c' ∧ c'.toFetch < c.toFetch := by
  have hown : (∃ c', c.refresherStep th = some c') →
      ∃ b c', b.OfRefresher ∧ c.step b = some c' ∧ c'.toFetch < c.toFetch := by
    rintro ⟨c', hst⟩
    obtain ⟨th', hth', hlt⟩ := h.fetch_closer hcl (h.refresherMove hth hst)
    refine ⟨.refresher, c', trivial, refresherStep_enabled hth hst, ?_⟩
    simpa only [PodCache.toFetch, hth', hth] using hlt
  cases hp : th.pc with
  | fetching x => exact absurd hp (hno x)
  | exited => exact absurd hp hpc
  | publishing l =>
    refine ⟨.publishAlloc true, c.goto th (.swapping c.nowSeconds l), trivial, ?_, ?_⟩
    · simp only [PodCache.step, PodCache.publishAlloc, hth, hp, if_true]
    · simp only [PodCache.toFetch, PodCache.goto, hth, hp]
      exact Nat.lt_succ_self 6
  | releasing previous =>
    refine hown ?_
    simp only [PodCache.refresherStep, hp]
    cases previous with
    | none => exact ⟨_, rfl⟩
    | some r =>
      dsimp only
      split <;> exact ⟨_, rfl⟩
  | check =>
    refine hown ?_
    simp only [PodCache.refresherStep, hp, hcl, Bool.false_eq_true, if_false]
    exact ⟨_, rfl⟩
  | sleeping deadline =>
    refine hown ?_
    simp only [PodCache.refresherStep, hp, hdue deadline hp, or_true, if_true]
    exact ⟨_, rfl⟩
  | _ =>
    refine hown ?_
    simp only [PodCache.refresherStep, hp]
    exact ⟨_, rfl⟩

/-- The refresher is in a request. -/
def System.Requesting (s : System) : Prop :=
  ∃ th x, s.cache.refresher = some th ∧ th.pc = .fetching x

theorem Broadcasting.requests (h : Broadcasting e s) :
    ∃ u, Lts.Run System.step InBackground s u ∧
      (Broadcasting e u ∧ u.senders = s.senders) ∧ u.Requesting := by
  refine Lts.Run.reaches_by_runs (fun u => Broadcasting e u ∧ u.senders = s.senders)
    System.Requesting (fun u => u.cache.toFetch) ⟨h, rfl⟩ ?_
  rintro u ⟨hu, hsame⟩ hno
  obtain ⟨th, hth, hlive⟩ := hu.alive
  have hfetch : ∀ x, th.pc ≠ .fetching x := fun x hpc => hno ⟨th, x, hth, hpc⟩
  by_cases hdue : ∀ d, th.pc = .sleeping d → d ≤ u.cache.clock
  · obtain ⟨b, c', hb, hc, hlt⟩ :=
      hu.reachable.cache.inv.comes_round hu.clear hth hlive hfetch hdue
    obtain ⟨hrun, hv⟩ := hu.refresher hb hc
    exact ⟨_, hrun, ⟨hv, hsame⟩, hlt⟩
  · obtain ⟨d, hd, hearly⟩ := not_forall₂.mp hdue
    obtain ⟨hst, hv⟩ := hu.tick (d - u.cache.clock).toNat
    have hdue' : ∀ d', th.pc = .sleeping d' →
        d' ≤ u.cache.clock + ((d - u.cache.clock).toNat : Int) := by
      intro d' hd'
      obtain rfl := RefresherPc.sleeping.inj (hd.symm.trans hd')
      omega
    obtain ⟨b, c', hb, hc, hlt⟩ :=
      hv.reachable.cache.inv.comes_round hv.clear hth hlive hfetch hdue'
    obtain ⟨hrun, hw⟩ := hv.refresher hb hc
    exact ⟨_, Lts.Run.cons (a := .tick _) trivial hst hrun, ⟨hw, hsame⟩, hlt⟩

/-- **A good answer is published**, in four steps. -/
theorem Broadcasting.publishes (h : Broadcasting e s) (hreq : s.Requesting) {a : Answer}
    {ips : List Text} (hok : (podListFetch e.deploymentEnv a).list = .ok ips) (hne : ips ≠ []) :
    ∃ u, Lts.Run System.step InBackground s u ∧ Broadcasting e u ∧ u.senders = s.senders ∧
      u.cache.JustPublished ips := by
  obtain ⟨th, x, hth, hpc⟩ := hreq
  -- the request ends
  obtain ⟨c1, hc1⟩ : ∃ c1, s.cache.step (.fetchEnds a) = some c1 := by
    simp only [PodCache.step, PodCache.fetchEnds, hth, hpc]
    split <;> exact ⟨_, rfl⟩
  obtain ⟨hrun1, h1⟩ := h.refresher (b := .fetchEnds a) trivial hc1
  have hc1eq : ∃ th1, c1.refresher = some th1 ∧ th1.pc = .fetched (some s.cache.nextList) [] ∧
      (c1.lists s.cache.nextList).ips = ips := by
    cases h.reachable.cache.inv.move_of_step hc1 with
    | @fetched th' x' a' ips' hth' hpc' hok' =>
      rw [h.environ, hok] at hok'
      obtain rfl := Except.ok.inj hok'
      exact ⟨_, rfl, rfl, by simp⟩
    | fetchFailed hth' hpc' hno =>
      rw [h.environ, hok] at hno
      exact absurd hno (by simp)
  obtain ⟨th1, hth1, hpc1, hips1⟩ := hc1eq
  -- it is not empty
  have hlen : (c1.lists s.cache.nextList).ips.length ≠ 0 := by
    rw [hips1]
    exact fun h0 => hne (List.length_eq_zero_iff.mp h0)
  have hc2 : c1.step .refresher = some (c1.goto
      { th1 with count := (c1.lists s.cache.nextList).ips.length }
      (.publishing s.cache.nextList)) := by
    have hclear1 : c1.closing = false := h1.clear
    refine refresherStep_enabled hth1 ?_
    simp only [PodCache.refresherStep, hpc1, PodCache.afterFetch, hclear1, hlen,
      Bool.false_eq_true, if_false]
  obtain ⟨hrun2, h2⟩ := h1.refresher (b := .refresher) trivial hc2
  -- there is memory for the snapshot
  obtain ⟨hrun3, h3⟩ := h2.refresher (b := .publishAlloc true) trivial rfl
  obtain ⟨hrun4, h4⟩ := h3.refresher (b := .refresher) trivial rfl
  refine ⟨_, hrun1.trans (hrun2.trans (hrun3.trans hrun4)), h4, rfl, c1.nextSnap, rfl, ?_, ?_⟩
  · simp only [PodCache.podsOf, PodCache.swap, PodCache.goto, Function.update_self]
    exact hips1
  · simp only [PodCache.swap, PodCache.goto, Function.update_self]
    rfl

end Refresh

/-! ## 5. Every sender makes a pass -/

/-- Its latest pass is an `up` pass, with the `up` record of its task, over and to all of these
addresses. -/
def Sender.Told (th : Sender) (e : Environ) (ips : List Text) : Prop :=
  ∃ p rest guid, th.passes = p :: rest ∧ p.up = true ∧
    p.message = Unicaster.upMessage e.getServiceName guid th.task e.getInterval ∧
    p.ips = ips ∧ p.attempts = ips

/-- It is about to begin that pass, or to acquire the list for it, or has acquired it. -/
def Sender.Telling (th : Sender) (ips : List Text) : Prop :=
  th.pc = .check ∨ th.pc = .acquiring false ∨
    ∃ p rest, th.passes = p :: rest ∧ p.up = true ∧ p.ips = ips

section Telling

variable {e : Environ} {s : System} {c c' : PodCache} {th th' : Sender} {t : Nat}
  {ips : List Text}

/-- The list stays what it is while a sender goes on. -/
theorem PodCache.JustPublished.reader (h : c.JustPublished ips) (hc : c.Reachable) {b : CacheAct}
    (hb : b.OfReader t) (hst : c.step b = some c') : c'.JustPublished ips := by
  obtain ⟨r, hcur, hpods, hat⟩ := h
  obtain ⟨hq, hf, -⟩ := hc.inv.reader_step hb hst
  obtain ⟨-, hat', hpods'⟩ :=
    hc.content_step hst (hc.inv.owned (mem_owners_of_current hcur)).1
  refine ⟨r, hq.current.trans hcur, hpods'.trans hpods, ?_⟩
  rw [hat', hat, PodCache.nowSeconds, PodCache.nowSeconds, hf.clock]

/-- What is acquired is that list: it is not too old. -/
theorem PodCache.JustPublished.acquired (h : c.JustPublished ips) (hc : c.Reachable)
    (hst : c.step (.acquire t) = some c') :
    (((c'.readers[t]?.bind (·.held)).map c'.podsOf).getD []) = ips := by
  obtain ⟨r, hcur, hpods, hat⟩ := h
  obtain ⟨rd, hrd, -, hheld, hnone⟩ := hc.acquired_reader hst
  have hpods' := (hc.content_step hst (hc.inv.owned (mem_owners_of_current hcur)).1).2.2
  rw [hrd, Option.bind_some]
  cases hr : rd.held with
  | none =>
    obtain ⟨-, hacq⟩ := hnone hr
    have href : ¬ c.Refuses r := by
      rintro ⟨hpos, hold⟩
      rw [hat, Int.sub_self] at hold
      exact absurd hpos (Int.not_lt.mpr (Int.le_of_lt hold))
    have hsome := podCacheAcquire_snd hcur
    rw [if_neg href, hacq] at hsome
    exact absurd hsome (by simp)
  | some q =>
    obtain ⟨hq, -⟩ := hheld q hr
    obtain rfl : r = q := Option.some.inj (hcur.symm.trans hq)
    rw [Option.map_some, Option.getD_some, hpods', hpods]

/-- The flag was clear when an `up` pass began. -/
theorem LatestPass.clear {p : Pass} {rest : List Pass} {closing : Bool} {P : Pass → Prop}
    (h : LatestPass (p :: rest) closing P) (hup : p.up = true) : closing = false := by
  obtain ⟨q, rest', heq, hq, -⟩ := h
  obtain ⟨rfl, -⟩ := List.cons.inj heq
  rw [hq] at hup
  simpa using hup

/-- **A step of a sender brings it further in its pass.** -/
theorem SenderMove.telling {guid : Text} {enableLogging : Bool} {config : Config}
    {o : SendOutcome} (h : SenderMove c guid enableLogging config t o th c' th')
    (hi : SenderInv c t th) (hc : c.Reachable) (hcl : c.closing = false)
    (hpub : c.JustPublished ips) (htell : th.Telling ips) : th'.Telling ips := by
  have hpasses := hi.passes
  have hkept : ∀ {pc : SenderPc}, th.pc = pc → pc ≠ .check → pc ≠ .acquiring false →
      ∃ p rest, th.passes = p :: rest ∧ p.up = true ∧ p.ips = ips := by
    intro pc hpc hcheck hacq
    rcases htell with hpc' | hpc' | hp
    · exact absurd (hpc.symm.trans hpc') hcheck
    · exact absurd (hpc.symm.trans hpc') hacq
    · exact hp
  cases h with
  | prepare hpc => exact Or.inl rfl
  | beginPass hpc =>
    rw [hcl]
    exact Or.inr (Or.inl rfl)
  | @acquired closing c' hpc hst =>
    rw [hpc] at hpasses
    obtain ⟨p, rest, hps, hup, -, -⟩ := hpasses
    have hclear : closing = false := by
      rcases htell with hpc' | hpc' | ⟨q, rest', hq, hqup, -⟩
      · exact absurd (hpc.symm.trans hpc') (by simp)
      · exact SenderPc.acquiring.inj (hpc.symm.trans hpc')
      · obtain ⟨rfl, -⟩ := List.cons.inj (hps.symm.trans hq)
        simpa [hup] using hqup
    rw [hclear] at hup
    exact Or.inr (Or.inr ⟨{ p with
        snapshot := c'.readers[t]?.bind (·.held)
        ips := ((c'.readers[t]?.bind (·.held)).map c'.podsOf).getD [] }, rest,
      by simp only [Sender.acquired, Sender.onPass, hps], hup, hpub.acquired hc hst⟩)
  | @sent p r ip c' hpc hs hst hip =>
    obtain ⟨l, log, -, -, -, heq⟩ := sendTo_eq th p ip enableLogging o
    obtain ⟨q, rest, hps, hup, hips⟩ := hkept hpc (by simp) (by simp)
    rw [heq]
    exact Or.inr (Or.inr ⟨{ q with attempts := q.attempts ++ [ip] }, rest,
      by simp only [Sender.onPass, hps], hup, hips⟩)
  | sendsEnd hpc hst => exact Or.inr (Or.inr (hkept hpc (by simp) (by simp)))
  | reported hpc hst => exact Or.inr (Or.inr (hkept hpc (by simp) (by simp)))
  | toFree hpc hs hst hf => exact Or.inr (Or.inr (hkept hpc (by simp) (by simp)))
  | @released p c' hpc hst =>
    obtain ⟨pc, heq⟩ := endPass_eq th p.closing c'.clock
    rw [heq]
    exact Or.inr (Or.inr (hkept hpc (by simp) (by simp)))
  | @freed closing c' hpc hst =>
    obtain ⟨pc, heq⟩ := endPass_eq th closing c'.clock
    rw [heq]
    exact Or.inr (Or.inr (hkept hpc (by simp) (by simp)))
  | woken hpc hw => exact Or.inl rfl

/-- A sender that is through with it has told all. -/
theorem SenderInv.told (hi : SenderInv c t th)
    (hspeak : ∃ guid, ∀ p ∈ th.passes, p.SpeaksFor e guid th.task) (htell : th.Telling ips)
    (hleft : th.pc.passLeft = 0) : th.Told e ips := by
  have hpasses := hi.passes
  obtain ⟨p, rest, hps, hup, hips⟩ : ∃ p rest, th.passes = p :: rest ∧ p.up = true ∧
      p.ips = ips := by
    rcases htell with hpc | hpc | hp
    · rw [hpc] at hleft
      exact absurd hleft (by simp [SenderPc.passLeft])
    · rw [hpc] at hleft
      exact absurd hleft (by simp [SenderPc.passLeft])
    · exact hp
  obtain ⟨guid, hguid⟩ := hspeak
  have hsaid := hguid p (by rw [hps]; exact List.mem_cons_self)
  rw [Pass.SpeaksFor, if_pos hup] at hsaid
  rw [hps] at hpasses
  cases hpc : th.pc with
  | sleeping d =>
    rw [hpc] at hpasses
    exact ⟨p, rest, guid, hps, hup, hsaid, hips, (hpasses p List.mem_cons_self).2.trans hips⟩
  | exited =>
    rw [hpc] at hpasses
    exact absurd (LatestPass.clear hpasses hup) (by simp)
  | _ =>
    rw [hpc] at hleft
    exact absurd hleft (by simp [SenderPc.passLeft])

/-- The list has just been published, and no sender has missed it. -/
structure Spreading (e : Environ) (ips : List Text) (s : System) : Prop where
  broadcasting : Broadcasting e s
  published : s.cache.JustPublished ips
  telling : ∀ th ∈ s.senders, th.joined = 0 → th.Telling ips

/-- **Every sender tells the whole list.** -/
theorem Spreading.all_told (h : Spreading e ips s) :
    ∃ u, Lts.Run System.step InBackground s u ∧ Spreading e ips u ∧
      ∀ th ∈ u.senders, th.joined = 0 → th.pc.passLeft = 0 := by
  refine Lts.Run.reaches_by_runs (Spreading e ips)
    (fun u => ∀ th ∈ u.senders, th.joined = 0 → th.pc.passLeft = 0)
    (fun u => (u.senders.map (·.pc.passLeft)).sum) h fun u hu hno => ?_
  push Not at hno
  obtain ⟨th, hm, hj, hleft⟩ := hno
  obtain ⟨t, hth⟩ := List.getElem?_of_mem hm
  have hb := hu.broadcasting
  have hi := hb.reachable.senders.sender t th hth
  obtain ⟨c', th', hmv, hrun, hv⟩ := hb.sender hth (hb.not_exited hm hj) fun d hd => by
    rw [hd] at hleft
    exact absurd rfl hleft
  refine ⟨_, hrun, ⟨hv, ?_, fun th1 hm1 hj1 => ?_⟩, ?_⟩
  · rcases hmv.cache with heq | ⟨b, hbr, hc⟩
    · rw [heq]
      exact hu.published
    · exact hu.published.reader hb.reachable.cache hbr hc
  · rcases List.mem_or_eq_of_mem_set hm1 with hm1 | rfl
    · exact hu.telling th1 hm1 hj1
    · exact hmv.telling hi hb.reachable.cache hb.clear hu.published (hu.telling th hm hj)
  · have hlt := hmv.passCloser hi hb.reachable.cache hleft
    have hsum := List.sum_map_set (fun th : Sender => th.pc.passLeft) hth th'
    simp only at hsum ⊢
    omega

end Telling

/-- The senders stay who they are, and nobody joins them. -/
theorem background_keeps {s s' : System} (hr : Lts.Run System.step InBackground s s') {t : Nat}
    {th : Sender} (hth : s.senders[t]? = some th) :
    ∃ th', s'.senders[t]? = some th' ∧ th'.joined = th.joined ∧ th'.task = th.task := by
  refine hr.invariant (I := fun u => ∃ th', u.senders[t]? = some th' ∧
    th'.joined = th.joined ∧ th'.task = th.task) ⟨th, hth, rfl, rfl⟩ ?_
  rintro u a v ⟨th1, hth1, hj, htask⟩ hok hst
  cases System.move_of_step hst with
  | tick => exact ⟨th1, hth1, hj, htask⟩
  | refresher hb hc ha => exact ⟨th1, hth1, hj, htask⟩
  | @sender w o thw c' thw' hw hmv =>
    obtain ⟨⟨hj', htask'⟩, -⟩ := hmv.fixed
    by_cases hwt : w = t
    · subst hwt
      obtain rfl := Option.some.inj (hw.symm.trans hth1)
      exact ⟨thw', List.getElem?_set_eq hw thw', hj'.trans hj, htask'.trans htask⟩
    · exact ⟨th1, (List.getElem?_set_ne hwt).trans hth1, hj, htask⟩
  | configSet hm => exact hok.elim
  | refused hm hbusy => exact hok.elim
  | curlFails hm hloaded hbusy hcurl => exact hok.elim
  | load hm hloaded hbusy hcurl => exact hok.elim
  | cron hm hhook hst => exact hok.elim
  | @cleanup a caller hm hloaded ha =>
    cases a with
    | shutdown => exact hok.elim
    | unload => exact hok.elim
    | _ => exact ha.elim
  | main hst => exact hok.elim

/-- **No failure is final.**  From every state that is reached while the module is broadcasting,
whatever failed before, and for every answer of the API with a pod in it, the threads alone can
come to a state in which that list is current and every sender has announced to the whole of it. -/
theorem no_failure_is_final (s : System) (h : s.Reachable) (hdef : s.undefined = false)
    (hclear : s.cache.closing = false) (hrunning : s.cache.refresherRunning = true) (a : Answer)
    (ips : List Text) (hok : (podListFetch s.cache.environ.deploymentEnv a).list = .ok ips)
    (hne : ips ≠ []) :
    ∃ s', Lts.Run System.step InBackground s s' ∧
      (∃ r, s'.cache.current = some r ∧ s'.cache.podsOf r = ips) ∧
      ∀ (t : Nat) th, s.senders[t]? = some th → th.joined = 0 →
        ∃ th', s'.senders[t]? = some th' ∧ th'.task = th.task ∧
          th'.Told s.cache.environ ips := by
  have hs : Broadcasting s.cache.environ s := ⟨h, hdef, hclear, hrunning, rfl⟩
  obtain ⟨s1, hrun1, h1, hcheck⟩ := hs.gather
  obtain ⟨s2, hrun2, ⟨h2, hsame2⟩, hreq⟩ := h1.requests
  obtain ⟨s3, hrun3, h3, hsame3, hpub⟩ := h2.publishes hreq hok hne
  have hspread : Spreading s.cache.environ ips s3 := by
    refine ⟨h3, hpub, fun th hm hj => Or.inl (hcheck th ?_ hj)⟩
    rw [← hsame2, ← hsame3]
    exact hm
  obtain ⟨s4, hrun4, h4, hdone⟩ := hspread.all_told
  obtain ⟨r, hcur, hpods, -⟩ := h4.published
  have hrun := hrun1.trans (hrun2.trans (hrun3.trans hrun4))
  refine ⟨s4, hrun, ⟨r, hcur, hpods⟩, fun t th hth hj => ?_⟩
  obtain ⟨th', hth', hj', htask⟩ := background_keeps hrun hth
  have hm := List.mem_of_getElem? hth'
  have hj0 := hj'.trans hj
  have hspeak := h4.broadcasting.reachable.passes_speak hth'
  rw [h4.broadcasting.environ] at hspeak
  exact ⟨th', hth', htask, (h4.broadcasting.reachable.senders.sender t th' hth').told hspeak
    (h4.telling th' hm hj0) (hdone th' hm hj0)⟩

/-- The namespace file cannot be read: a round of the refresher that fails. -/
def unreadableRound : List Act :=
  [.refresher, .fetchEnds (onePod none), .refresher, .refresher, .refresher, .refresher]

/-- After two rounds that failed, while the sender sleeps. -/
theorem no_failure_is_final_onePod :
    ∃ s s' : System, s.cache.current = none ∧ Lts.Run System.step InBackground s s' ∧
      ∃ th', s'.senders[0]? = some th' ∧ th'.Told s.cache.environ [ascii "10.0.0.7"] := by
  have hview : (Lts.exec System.step (System.init {} 0 (portsConfig (ascii "6379") (ascii "0")))
      (startUp ++ unreadableRound ++ List.replicate 6 senderOk ++ [.tick 5000000000, .refresher] ++
        unreadableRound)).map
      (fun s => (s.undefined, s.cache.closing, s.cache.refresherRunning,
        s.cache.environ.deploymentEnv.isNone, s.cache.current, s.senders.map (·.joined))) =
      some (false, false, true, true, none, [0]) := rfl
  obtain ⟨s, hs, hparts⟩ := Option.map_eq_some_iff.mp hview
  simp only [Prod.mk.injEq] at hparts
  obtain ⟨hdef, hclear, hrunning, henv, hcur, hjoined⟩ := hparts
  have hok : (podListFetch s.cache.environ.deploymentEnv (onePod (some (ascii "prod")))).list =
      .ok [ascii "10.0.0.7"] := by
    rw [Option.isNone_iff_eq_none.mp henv]
    rfl
  obtain ⟨s', hrun, -, htold⟩ := no_failure_is_final s (Lts.reachable_of_exec ⟨{}, 0, _, rfl⟩ hs)
    hdef hclear hrunning (onePod (some (ascii "prod"))) _ hok (by simp)
  obtain ⟨th, hth, hj⟩ : ∃ th, s.senders[0]? = some th ∧ th.joined = 0 := by
    have hfirst : (s.senders.map (·.joined))[0]? = some 0 := by
      rw [hjoined]
      rfl
    rw [List.getElem?_map] at hfirst
    exact Option.map_eq_some_iff.mp hfirst
  obtain ⟨th', hth', -, hall⟩ := htold 0 th hth hj
  exact ⟨s, s', hcur, hrun, th', hth', hall⟩

end Unicaster
