/-
# `cleanup_threads`, to its return

Nothing in `cleanup_threads` waits for what cannot come: once the closing signal is raised every
sender can go on to its end, and so can the refresher, whatever it is doing; then the joins and
`pod_cache_stop` go through.  Each of the three is a measure that some step lowers.

Section 4 puts the life cycle together, and section 5 the counting of references in the module.
-/
import Unicaster.Shutdown

namespace Unicaster

open CLib

/-! ## 1. A sender ends -/

/-- The steps of another round, after this value of the flag. -/
def PodCache.again (c : PodCache) (closing : Bool) : Nat :=
  if closing then 0 else 8 + (c.addresses c.current).length

/-- The steps a sender has still to take, the closing signal being raised. -/
def PodCache.toEnd (c : PodCache) : SenderPc → Nat
  | .start => 7 + (c.addresses c.current).length
  | .check => 6 + (c.addresses c.current).length
  | .acquiring closing => 5 + (c.addresses c.current).length + c.again closing
  | .sending p => 4 + ((c.addresses p.snapshot).length - p.i) + c.again p.closing
  | .reporting p => 3 + c.again p.closing
  | .releasing p => 2 + c.again p.closing
  | .freeing closing => 1 + c.again closing
  | .sleeping _ => 7 + (c.addresses c.current).length
  | .exited => 0

section Sender

variable {c c' : PodCache} {th th' : Sender} {t : Nat}

/-- A reader's step publishes nothing, so the list that is there stays. -/
theorem PodCache.Reachable.listed_step (h : c.Reachable) {b : CacheAct} (hb : b.OfReader t)
    (hst : c.step b = some c') : c'.addresses c'.current = c.addresses c.current := by
  rw [(h.inv.reader_step hb hst).1.current]
  exact (h.addresses_step hst fun r hr => (h.inv.owned (mem_owners_of_current hr)).1).1

theorem again_congr (h : c'.addresses c'.current = c.addresses c.current) (closing : Bool) :
    c'.again closing = c.again closing := by
  unfold PodCache.again
  rw [h]

theorem acquire_enabled {rd : Reader} (hrd : c.readers[t]? = some rd)
    (h : rd.held = none ∧ rd.freeing = none) : ∃ c', c.step (.acquire t) = some c' := by
  obtain ⟨held, dying, acquired⟩ := rd
  obtain ⟨rfl, rfl⟩ := h
  simp only [PodCache.step, PodCache.acquireStep, hrd]
  split <;> exact ⟨_, rfl⟩

theorem read_enabled {rd : Reader} {r : Nat} (hrd : c.readers[t]? = some rd)
    (h : rd.held = some r ∧ rd.freeing = none) : ∃ c', c.step (.read t) = some c' := by
  obtain ⟨held, dying, acquired⟩ := rd
  obtain ⟨rfl, rfl⟩ := h
  simp only [PodCache.step, PodCache.readStep, hrd]
  exact ⟨_, rfl⟩

theorem release_enabled {rd : Reader} {r : Nat} (hrd : c.readers[t]? = some rd)
    (h : rd.held = some r ∧ rd.freeing = none) : ∃ c', c.step (.release t) = some c' := by
  obtain ⟨held, dying, acquired⟩ := rd
  obtain ⟨rfl, rfl⟩ := h
  simp only [PodCache.step, PodCache.releaseStep, hrd]
  split <;> exact ⟨_, rfl⟩

theorem free_enabled {rd : Reader} (hrd : c.readers[t]? = some rd)
    (h : rd.held = none ∧ rd.freeing ≠ none) : ∃ c', c.step (.free t) = some c' := by
  obtain ⟨held, dying, acquired⟩ := rd
  obtain ⟨rfl, hne⟩ := h
  cases dying with
  | none => exact absurd rfl hne
  | some r =>
    simp only [PodCache.step, PodCache.freeStep, hrd]
    exact ⟨_, rfl⟩

/-- Behind a round. -/
theorem toEnd_endPass (c : PodCache) (th : Sender) (closing : Bool) (clock : Int) :
    c.toEnd (th.endPass closing clock).pc < 1 + c.again closing := by
  cases closing with
  | true => exact Nat.one_pos
  | false =>
    change 7 + (c.addresses c.current).length < 1 + (8 + (c.addresses c.current).length)
    omega

/-- The next step of the sender is possible, and brings it closer to its end. -/
def Sender.GoesOn (th : Sender) (c : PodCache) (t : Nat) : Prop :=
  ∀ (guid : Text) (enableLogging : Bool) (config : Config) (o : SendOutcome),
    ∃ c' th', th.step c guid enableLogging config t o = some (c', th') ∧
      c'.toEnd th'.pc < c.toEnd th.pc

/-- The list it gets is at most as long as the one it was to expect. -/
theorem SenderInv.goes_on_acquiring (h : SenderInv c t th) (hc : c.Reachable) {closing : Bool}
    (hp : th.pc = .acquiring closing) : th.GoesOn c t := by
  intro guid enableLogging config o
  obtain ⟨rd, hrd, hreads⟩ := h.reader
  rw [hp] at hreads ⊢
  obtain ⟨c', hst⟩ := acquire_enabled hrd hreads
  obtain ⟨rd', hrd', -, hheld, -⟩ := hc.acquired_reader hst
  have hlist := hc.listed_step (b := .acquire t) rfl hst
  have hag := again_congr hlist closing
  unfold Sender.step
  rw [hp]
  dsimp only
  rw [hst]
  refine ⟨c', _, rfl, ?_⟩
  simp only [PodCache.toEnd, Sender.acquired, hrd', Option.bind_some]
  cases hrdh : rd'.held with
  | none =>
    have hnil : (c'.addresses none).length = 0 := rfl
    omega
  | some r =>
    have hcur : c'.current = some r := by
      rw [(hc.inv.reader_step (a := .acquire t) rfl hst).1.current]
      exact (hheld r hrdh).1
    rw [← hcur, hlist]
    omega

theorem SenderInv.goes_on_sending (h : SenderInv c t th) (hc : c.Reachable) {p : PassLocals}
    (hp : th.pc = .sending p) : th.GoesOn c t := by
  intro guid enableLogging config o
  obtain ⟨rd, hrd, hreads⟩ := h.reader
  rw [hp] at hreads ⊢
  unfold Sender.step
  rw [hp]
  dsimp only
  cases hs : p.snapshot with
  | none =>
    refine ⟨c, _, rfl, ?_⟩
    simp only [PodCache.toEnd]
    omega
  | some r =>
    obtain ⟨c', hst⟩ := read_enabled hrd ⟨hreads.1.trans hs, hreads.2⟩
    obtain rfl : c' = c := hc.inv.readStep hst
    dsimp only
    rw [hst, Option.map_some]
    have haddr : c'.addresses p.snapshot = c'.podsOf r := by
      rw [hs]
      rfl
    cases hip : (c'.podsOf r)[p.i]? with
    | none =>
      refine ⟨c', _, rfl, ?_⟩
      simp only [PodCache.toEnd]
      omega
    | some ip =>
      -- the next index is still within the list
      obtain ⟨l, log, hl1, hl2, hl3, heq⟩ := sendTo_eq th p ip enableLogging o
      have hlt : p.i < (c'.podsOf r).length := (List.getElem?_eq_some_iff.mp hip).1
      refine ⟨c', _, rfl, ?_⟩
      rw [heq]
      simp only [PodCache.toEnd]
      rw [hl1, hl2, hl3, haddr]
      omega

theorem SenderInv.goes_on_reporting (h : SenderInv c t th) (hc : c.Reachable) {p : PassLocals}
    (hp : th.pc = .reporting p) : th.GoesOn c t := by
  intro guid enableLogging config o
  obtain ⟨rd, hrd, hreads⟩ := h.reader
  rw [hp] at hreads ⊢
  unfold Sender.step
  rw [hp]
  dsimp only
  cases hs : p.snapshot with
  | none =>
    refine ⟨c, _, rfl, ?_⟩
    simp only [PodCache.toEnd, Sender.report]
    omega
  | some r =>
    obtain ⟨c', hst⟩ := read_enabled hrd ⟨hreads.1.trans hs, hreads.2⟩
    obtain rfl : c' = c := hc.inv.readStep hst
    dsimp only
    rw [hst]
    refine ⟨c', _, rfl, ?_⟩
    simp only [PodCache.toEnd, Sender.report]
    omega

theorem SenderInv.goes_on_releasing (h : SenderInv c t th) (hc : c.Reachable) {p : PassLocals}
    (hp : th.pc = .releasing p) : th.GoesOn c t := by
  intro guid enableLogging config o
  obtain ⟨rd, hrd, hreads⟩ := h.reader
  rw [hp] at hreads ⊢
  unfold Sender.step
  rw [hp]
  dsimp only
  cases hs : p.snapshot with
  | none =>
    have hlt := toEnd_endPass c th p.closing c.clock
    refine ⟨c, _, rfl, ?_⟩
    simp only [PodCache.toEnd] at hlt ⊢
    omega
  | some r =>
    obtain ⟨c', hst⟩ := release_enabled hrd ⟨hreads.1.trans hs, hreads.2⟩
    have hag := again_congr (hc.listed_step (b := .release t) rfl hst) p.closing
    dsimp only
    rw [hst, Option.map_some]
    split
    · refine ⟨c', _, rfl, ?_⟩
      simp only [PodCache.toEnd]
      omega
    · have hlt := toEnd_endPass c' th p.closing c'.clock
      refine ⟨c', _, rfl, ?_⟩
      simp only [PodCache.toEnd] at hlt ⊢
      omega

theorem SenderInv.goes_on_freeing (h : SenderInv c t th) (hc : c.Reachable) {closing : Bool}
    (hp : th.pc = .freeing closing) : th.GoesOn c t := by
  intro guid enableLogging config o
  obtain ⟨rd, hrd, hreads⟩ := h.reader
  rw [hp] at hreads ⊢
  obtain ⟨c', hst⟩ := free_enabled hrd hreads
  have hag := again_congr (hc.listed_step (b := .free t) rfl hst) closing
  have hlt := toEnd_endPass c' th closing c'.clock
  unfold Sender.step
  rw [hp]
  dsimp only
  rw [hst]
  refine ⟨c', _, rfl, ?_⟩
  simp only [PodCache.toEnd] at hlt ⊢
  omega

/-- **A sender that has not ended can go on**, and is then closer to its end. -/
theorem SenderInv.goes_on (h : SenderInv c t th) (hc : c.Reachable) (hcl : c.closing = true)
    (hpc : th.pc ≠ .exited) : th.GoesOn c t := by
  cases hp : th.pc with
  | start =>
    intro guid enableLogging config o
    unfold Sender.step
    rw [hp]
    refine ⟨c, _, rfl, ?_⟩
    simp only [PodCache.toEnd, Sender.prepare]
    omega
  | check =>
    intro guid enableLogging config o
    unfold Sender.step
    rw [hp]
    refine ⟨c, _, rfl, ?_⟩
    simp only [PodCache.toEnd, Sender.beginPass, PodCache.again, hcl, if_true]
    omega
  | acquiring closing => exact h.goes_on_acquiring hc hp
  | sending p => exact h.goes_on_sending hc hp
  | reporting p => exact h.goes_on_reporting hc hp
  | releasing p => exact h.goes_on_releasing hc hp
  | freeing closing => exact h.goes_on_freeing hc hp
  | sleeping deadline =>
    intro guid enableLogging config o
    unfold Sender.step
    rw [hp]
    dsimp only
    rw [if_pos (Or.inl hcl)]
    refine ⟨c, _, rfl, ?_⟩
    simp only [PodCache.toEnd]
    omega
  | exited => exact absurd hp hpc

end Sender

/-! ## 2. The refresher ends -/

/-- The steps the refresher has still to take, the closing signal being raised: a request is
aborted, a list in hand is published or given up. -/
def RefresherPc.toEnd : RefresherPc → Nat
  | .check => 1
  | .fetching _ => 2
  | .fetched _ _ => 1
  | .publishing _ => 7
  | .swapping _ _ => 6
  | .releasing _ => 5
  | .freeing _ => 4
  | .succeeded => 3
  | .failed _ => 5
  | .judging _ _ => 4
  | .reporting _ _ _ => 3
  | .sleeping _ => 2
  | .exited => 0

section Refresher

variable {c : PodCache}

theorem refresherStep_enabled {th : Refresher} {c' : PodCache} (hth : c.refresher = some th)
    (hst : c.refresherStep th = some c') : c.step .refresher = some c' := by
  simp only [PodCache.step, hth, Option.bind_some]
  exact hst

/-- The refresher's own moves bring it closer to its end. -/
theorem CacheInv.refresher_closer (h : CacheInv c) (hcl : c.closing = true) {th : Refresher}
    {c' : PodCache} (hmv : RefresherMove c th c') :
    ∃ th', c'.refresher = some th' ∧ th'.pc.toEnd < th.pc.toEnd := by
  have hraised : c.closing ≠ false := by
    rw [hcl]
    simp
  cases hmv with
  | request hpc hno => exact absurd hno hraised
  | noList hpc hno => exact absurd hno hraised
  | empty hpc hno hips => exact absurd hno hraised
  | offer hpc hno hips => exact absurd hno hraised
  | @report error now expired hpc =>
    obtain ⟨log, th', heq, hpc', -⟩ := h.endFailure_eq th error now expired
    rw [heq, hpc]
    refine ⟨th', rfl, ?_⟩
    rw [hpc']
    exact Nat.lt_succ_self 2
  | leave hpc _ => exact ⟨_, rfl, by rw [hpc]; exact Nat.one_pos⟩
  | giveUp hpc _ => exact ⟨_, rfl, by rw [hpc]; exact Nat.one_pos⟩
  | discard hpc _ => exact ⟨_, rfl, by rw [hpc]; exact Nat.one_pos⟩
  | swap hpc => exact ⟨_, rfl, by rw [hpc]; exact Nat.lt_succ_self 5⟩
  | noPrevious hpc => exact ⟨_, rfl, by rw [hpc]; exact (by decide : 3 < 5)⟩
  | dropLast hpc h0 => exact ⟨_, rfl, by rw [hpc]; exact Nat.lt_succ_self 4⟩
  | drop hpc h0 => exact ⟨_, rfl, by rw [hpc]; exact (by decide : 3 < 5)⟩
  | free hpc => exact ⟨_, rfl, by rw [hpc]; exact Nat.lt_succ_self 3⟩
  | succeed hpc => exact ⟨_, rfl, by rw [hpc]; exact Nat.lt_succ_self 2⟩
  | fail hpc => exact ⟨_, rfl, by rw [hpc]; exact Nat.lt_succ_self 4⟩
  | judge hpc => exact ⟨_, rfl, by rw [hpc]; exact Nat.lt_succ_self 3⟩
  | wake hpc hend => exact ⟨_, rfl, by rw [hpc]; exact Nat.lt_succ_self 1⟩

/-- **A refresher that has not ended can go on**, and is then closer to its end. -/
theorem CacheInv.refresher_goes_on (h : CacheInv c) (hcl : c.closing = true) {th : Refresher}
    (hth : c.refresher = some th) (hpc : th.pc ≠ .exited) :
    ∃ b c' th', b.OfRefresher ∧ c.step b = some c' ∧ c'.refresher = some th' ∧
      th'.pc.toEnd < th.pc.toEnd := by
  have hown : (∃ c', c.refresherStep th = some c') → ∃ b c' th', b.OfRefresher ∧
      c.step b = some c' ∧ c'.refresher = some th' ∧ th'.pc.toEnd < th.pc.toEnd := by
    rintro ⟨c', hst⟩
    obtain ⟨th', hth', hlt⟩ := h.refresher_closer hcl (h.refresherMove hth hst)
    exact ⟨.refresher, c', th', trivial, refresherStep_enabled hth hst, hth', hlt⟩
  cases hp : th.pc with
  | fetching startedAt =>
    have hst : ∃ c', c.step (.fetchEnds (onePod none)) = some c' := by
      simp only [PodCache.step, PodCache.fetchEnds, hth, hp]
      split <;> exact ⟨_, rfl⟩
    obtain ⟨c', hst⟩ := hst
    refine ⟨.fetchEnds (onePod none), c', ?_⟩
    cases h.move_of_step hst with
    | fetched hth' hpc' hok => exact ⟨_, trivial, hst, rfl, Nat.lt_succ_self 1⟩
    | fetchFailed hth' hpc' hno => exact ⟨_, trivial, hst, rfl, Nat.lt_succ_self 1⟩
  | publishing l =>
    refine ⟨.publishAlloc true, c.goto th (.swapping c.nowSeconds l), _, trivial, ?_, rfl,
      Nat.lt_succ_self 6⟩
    simp only [PodCache.step, PodCache.publishAlloc, hth, hp, if_true]
  | exited => exact absurd hp hpc
  | releasing previous =>
    refine hp ▸ hown ?_
    simp only [PodCache.refresherStep, hp]
    cases previous with
    | none => exact ⟨_, rfl⟩
    | some r =>
      dsimp only
      split <;> exact ⟨_, rfl⟩
  | check =>
    refine hp ▸ hown ?_
    simp only [PodCache.refresherStep, hp, hcl, if_true]
    exact ⟨_, rfl⟩
  | sleeping deadline =>
    refine hp ▸ hown ?_
    simp only [PodCache.refresherStep, hp, hcl, true_or, if_true]
    exact ⟨_, rfl⟩
  | _ =>
    refine hp ▸ hown ?_
    simp only [PodCache.refresherStep, hp]
    exact ⟨_, rfl⟩

end Refresher

/-! ## 3. The call returns -/

section Call

variable {s s' : System}

theorem step_of_cacheStep (hdef : s.undefined = false) {b : CacheAct} (hb : b.OfRefresher) :
    ∃ a, s.step a = s.cacheStep b := by
  cases b with
  | refresher =>
    refine ⟨.refresher, ?_⟩
    simp only [System.step, hdef, Bool.false_eq_true, if_false]
  | fetchEnds a =>
    refine ⟨.fetchEnds a, ?_⟩
    simp only [System.step, hdef, Bool.false_eq_true, if_false]
  | publishAlloc ok =>
    refine ⟨.publishAlloc ok, ?_⟩
    simp only [System.step, hdef, Bool.false_eq_true, if_false]
  | _ => exact hb.elim

theorem step_main (hdef : s.undefined = false) (o : System.SpawnOutcome) :
    s.step (.main o) = s.mainStep o := by
  simp only [System.step, hdef, Bool.false_eq_true, if_false]

/-- `u` is at the join at which `s` is. -/
structure AtJoin (s u : System) : Prop where
  reachable : u.Reachable
  defined : u.undefined = false
  main : u.main = s.main
  statics : u.statics = s.statics
  length : u.senders.length = s.senders.length

/-- What the sender that is being waited for has still to do. -/
def System.waits (u : System) (t : Nat) : Nat :=
  match u.senders[t]? with
  | some th => u.cache.toEnd th.pc
  | none => 0

def System.Ended (u : System) (t : Nat) : Prop :=
  ∃ th, u.senders[t]? = some th ∧ th.pc = .exited

theorem AtJoin.goes_on {u : System} (h : AtJoin s u) {i : Nat} {caller : Caller}
    (hm : s.main = .joining i caller) {t : Nat} (ht : t < s.senders.length)
    (hno : ¬ u.Ended t) :
    ∃ a v, InCall u a ∧ u.step a = some v ∧ AtJoin s v ∧ v.waits t < u.waits t := by
  have hlt : t < u.senders.length := by
    rw [h.length]
    exact ht
  obtain ⟨th, hth⟩ : ∃ th, u.senders[t]? = some th := ⟨_, List.getElem?_eq_getElem hlt⟩
  have hmu : u.main = .joining i caller := h.main.trans hm
  have hcl : u.cache.closing = true := by
    have hp := h.reachable.life.place
    rw [hmu] at hp
    exact hp.2.1
  obtain ⟨c', th', hst, hless⟩ := (h.reachable.senders.sender t th hth).goes_on h.reachable.cache
    hcl (fun he => hno ⟨th, hth, he⟩) u.statics.redisGuid u.statics.enableLogging u.host.config
    ⟨true, true, 0⟩
  have hstep : u.step (.sender t ⟨true, true, 0⟩) =
      some { u with cache := c', senders := u.senders.set t th' } := by
    simp only [System.step, h.defined, Bool.false_eq_true, if_false, System.senderStep, hth,
      Option.bind_some, hst, Option.map_some]
  refine ⟨_, _, ?_, hstep, ⟨h.reachable.next hstep, h.defined, h.main, h.statics, ?_⟩, ?_⟩
  · rw [InCall, hmu]
    simp
  · exact List.length_set.trans h.length
  · simp only [System.waits, List.getElem?_set_self hlt, hth]
    exact hless

/-- The sender that is being waited for ends. -/
theorem System.Reachable.sender_ends (h : s.Reachable) (hdef : s.undefined = false) {i : Nat}
    {caller : Caller} (hm : s.main = .joining i caller) (hi : i < s.statics.threadCount) :
    ∃ u, Lts.Run System.step InCall s u ∧ AtJoin s u ∧ u.Ended u.settled := by
  have hle := h.life.count_le
  have hlt : s.settled < s.senders.length := by
    rw [settled_of_joining hm]
    omega
  obtain ⟨u, hr, hu, hend⟩ := Lts.Run.reaches (AtJoin s) (·.Ended s.settled)
    (·.waits s.settled) ⟨h, hdef, rfl, rfl, rfl⟩ fun u hu hno => hu.goes_on hm hlt hno
  have hset : u.settled = s.settled := by
    simp only [System.settled, hu.main, hu.statics, hu.length]
  exact ⟨u, hr, hu, hset ▸ hend⟩

/-- ... and is joined. -/
theorem System.Reachable.joins_next (h : s.Reachable) (hdef : s.undefined = false) {i : Nat}
    {caller : Caller} (hm : s.main = .joining i caller) (hi : i < s.statics.threadCount) :
    ∃ u, Lts.Run System.step InCall s u ∧ u.Reachable ∧ u.undefined = false ∧
      u.main = .joining (i + 1) caller ∧ u.statics.threadCount = s.statics.threadCount := by
  obtain ⟨u, hr, hu, th, hth, hpc⟩ := h.sender_ends hdef hm hi
  have hmu : u.main = .joining i caller := hu.main.trans hm
  have hiu : i < u.statics.threadCount := by
    rw [hu.statics]
    exact hi
  have hslot := hu.reachable.life.slots i hiu
  rw [← settled_of_joining hmu] at hslot
  have hj : u.joinStep i =
      some { u with senders := u.senders.set u.settled { th with joined := th.joined + 1 } } := by
    simp only [System.joinStep, hslot, hth, hpc]
  have hstep : u.step mainOk = some { u with
      senders := u.senders.set u.settled { th with joined := th.joined + 1 }
      main := .joining (i + 1) caller } := by
    rw [mainOk, step_main hu.defined]
    simp only [System.mainStep, hmu, hiu, if_true, hj, Option.map_some]
  have hcall : InCall u mainOk := by
    rw [InCall, hmu]
    simp
  exact ⟨_, hr.trans (Lts.Run.single hcall hstep), hu.reachable.next hstep, hu.defined, rfl,
    congrArg Statics.threadCount hu.statics⟩

/-- **The loop of `cleanup_threads` ends.** -/
theorem System.Reachable.joins_end (n : Nat) : ∀ {s : System} {i : Nat} {caller : Caller},
    s.Reachable → s.undefined = false → s.main = .joining i caller →
    s.statics.threadCount - i = n →
    ∃ u, Lts.Run System.step InCall s u ∧ u.Reachable ∧ u.undefined = false ∧
      u.main = .stopping caller := by
  induction n with
  | zero =>
    intro s i caller h hdef hm hn
    have hi : ¬ i < s.statics.threadCount := by omega
    have hstep : s.step mainOk = some
        { s with
          statics := { s.statics with threadIds := none, threadCount := 0 }
          main := .stopping caller } := by
      rw [mainOk, step_main hdef]
      simp only [System.mainStep, hm, hi, if_false]
    have hcall : InCall s mainOk := by
      rw [InCall, hm]
      simp
    exact ⟨_, Lts.Run.single hcall hstep, h.next hstep, hdef, rfl⟩
  | succ n ih =>
    intro s i caller h hdef hm hn
    obtain ⟨u, hr, hu, hd, hmu, hk⟩ := h.joins_next hdef hm (by omega)
    obtain ⟨v, hr', hv, hdv, hmv⟩ := ih hu hd hmu (by omega)
    exact ⟨v, hr.trans hr', hv, hdv, hmv⟩

/-- The steps of `pod_cache_stop` still to take. -/
def StopPc.toEnd : StopPc → Nat
  | .idle => 5
  | .destroy => 4
  | .detach => 3
  | .release _ => 2
  | .free _ => 1

/-- The steps still to take behind the joins: those of the refresher, and of the main thread. -/
def System.toReturn (s : System) : Nat :=
  match s.main with
  | .idle => 0
  | _ => 1 + s.cache.stopper.toEnd + ((s.cache.refresher.map (·.pc.toEnd)).getD 0)

/-- A step of `pod_cache_stop`, but for the wait for the refresher, is possible, and the last
but one. -/
theorem CacheInv.stop_goes_on {c : PodCache} (h : CacheInv c)
    (hjoin : ∀ th, c.refresher = some th → th.pc = .exited) :
    ∃ c', c.step .stop = some c' ∧ (c'.refresher = c.refresher ∨ c'.refresher = none) ∧
      (c'.stopper = .idle ∨ c'.stopper.toEnd < c.stopper.toEnd) := by
  have hgo : ∃ c', c.stopStep = some c' ∧
      (c'.stopper = .idle ∨ c'.stopper.toEnd < c.stopper.toEnd) := by
    unfold PodCache.stopStep
    cases hs : c.stopper with
    | idle =>
      dsimp only
      split
      · rename_i hrun
        have hsome : c.refresher.isSome = true := h.running ▸ hrun
        obtain ⟨th, hth⟩ := Option.isSome_iff_exists.mp hsome
        simp only [PodCache.joinRefresher, hth, hjoin th hth, Option.map_some]
        exact ⟨_, rfl, Or.inr (Nat.lt_succ_self 4)⟩
      · exact ⟨_, rfl, Or.inr (Nat.lt_succ_self 4)⟩
    | destroy => exact ⟨_, rfl, Or.inr (Nat.lt_succ_self 3)⟩
    | detach => exact ⟨_, rfl, Or.inr (Nat.lt_succ_self 2)⟩
    | release previous =>
      cases previous with
      | none => exact ⟨_, rfl, Or.inl rfl⟩
      | some r =>
        dsimp only
        split
        · exact ⟨_, rfl, Or.inr (Nat.lt_succ_self 1)⟩
        · exact ⟨_, rfl, Or.inl rfl⟩
    | free r => exact ⟨_, rfl, Or.inl rfl⟩
  obtain ⟨c', hst, hless⟩ := hgo
  exact ⟨c', hst, (h.stopMove hst).frame.2.1, hless⟩

/-- In `pod_cache_stop`, or back from it. -/
structure AtStop (caller : Caller) (u : System) : Prop where
  reachable : u.Reachable
  defined : u.undefined = false
  main : u.main = .stopping caller ∨ u.main = .idle

theorem AtStop.goes_on {caller : Caller} {u : System} (h : AtStop caller u)
    (hne : u.main ≠ .idle) :
    ∃ a v, InCall u a ∧ u.step a = some v ∧ AtStop caller v ∧ v.toReturn < u.toReturn := by
  have hmu : u.main = .stopping caller := h.main.resolve_right hne
  have hi := h.reachable.cache.inv
  have hcl : u.cache.closing = true := by
    have hp := h.reachable.life.place
    rw [hmu] at hp
    exact hp.1
  have hnow : u.toReturn = 1 + u.cache.stopper.toEnd +
      ((u.cache.refresher.map (·.pc.toEnd)).getD 0) := by
    simp only [System.toReturn, hmu]
  by_cases hend : ∀ th, u.cache.refresher = some th → th.pc = .exited
  · obtain ⟨c', hst, href, hless⟩ := hi.stop_goes_on hend
    have hstep : u.step mainOk = some (if c'.stopper = .idle then
        System.returnTo { u with cache := c' } caller else { u with cache := c' }) := by
      rw [mainOk, step_main h.defined]
      simp only [System.mainStep, hmu, hst, Option.map_some]
    refine ⟨_, _, hne, hstep, ⟨h.reachable.next hstep, ?_, ?_⟩, ?_⟩
    · split
      · cases caller <;> exact h.defined
      · exact h.defined
    · split
      · cases caller <;> exact Or.inr rfl
      · exact Or.inl hmu
    · rw [hnow]
      split
      · have h0 : System.toReturn (System.returnTo { u with cache := c' } caller) = 0 := by
          cases caller <;> rfl
        omega
      · rename_i hni
        have hlt := hless.resolve_left hni
        have h1 : System.toReturn { u with cache := c' } = 1 + c'.stopper.toEnd +
            ((c'.refresher.map (·.pc.toEnd)).getD 0) := by
          simp only [System.toReturn, hmu]
        have hle : (c'.refresher.map (·.pc.toEnd)).getD 0 ≤
            (u.cache.refresher.map (·.pc.toEnd)).getD 0 := by
          rcases href with heq | heq <;> rw [heq]
          exact Nat.zero_le _
        omega
  · -- the refresher is still to end
    obtain ⟨th, hth, hpc⟩ : ∃ th, u.cache.refresher = some th ∧ th.pc ≠ .exited := by
      by_contra hno
      exact hend fun th hth => by_contra fun hpc => hno ⟨th, hth, hpc⟩
    obtain ⟨b, c', th', hb, hst, hth', hlt⟩ := hi.refresher_goes_on hcl hth hpc
    obtain ⟨a, ha⟩ := step_of_cacheStep h.defined hb
    have hstep : u.step a = some { u with cache := c' } := by
      rw [ha, System.cacheStep, hst, Option.map_some]
    refine ⟨a, _, hne, hstep, ⟨h.reachable.next hstep, h.defined, Or.inl hmu⟩, ?_⟩
    have hstop := (hi.refresher_step hb hst).2.2.stopper
    simp only [System.toReturn, hmu, hth, hth', hstop, Option.map_some, Option.getD_some]
    omega

/-- **`pod_cache_stop` ends**, and `cleanup_threads` returns. -/
theorem System.Reachable.stop_ends (h : s.Reachable) (hdef : s.undefined = false)
    {caller : Caller} (hm : s.main = .stopping caller) :
    ∃ u, Lts.Run System.step InCall s u ∧ u.main = .idle ∧ u.undefined = false := by
  obtain ⟨u, hr, hu, hidle⟩ := Lts.Run.reaches (AtStop caller) (·.main = .idle)
    System.toReturn ⟨h, hdef, Or.inl hm⟩ fun u hu hno => hu.goes_on hno
  exact ⟨u, hr, hidle, hu.defined⟩

/-- **Wherever `cleanup_threads` stands, it can return.** -/
theorem System.Reachable.cleanup_returns (h : s.Reachable) (hdef : s.undefined = false)
    {caller : Caller}
    (hm : (∃ i, s.main = .joining i caller) ∨ s.main = .stopping caller) :
    ∃ u, Lts.Run System.step InCall s u ∧ u.main = .idle ∧ u.undefined = false := by
  rcases hm with ⟨i, hm⟩ | hm
  · obtain ⟨u, hr, hu, hd, hmu⟩ := System.Reachable.joins_end _ h hdef hm rfl
    obtain ⟨v, hr', hv⟩ := hu.stop_ends hd hmu
    exact ⟨v, hr.trans hr', hv⟩
  · exact h.stop_ends hdef hm

end Call

/-! ## 4. The life cycle -/

/-- `s'` is `s` with the closing signal raised, at a later time. -/
structure Unchanged (s s' : System) : Prop where
  cache : s'.cache = { s.cache with closing := true, clock := s'.cache.clock }
  senders : s'.senders = s.senders
  statics : s'.statics = s.statics
  history : s'.history = s.history

section LifeCycle

variable {s s' : System}

theorem System.Reachable.starts_step (h : s.Reachable) {a : Act} (hst : s.step a = some s')
    (hs : s'.history.starts = s.history.starts + 1) : s.cache.closing = false := by
  by_contra hcl
  rw [Bool.not_eq_false] at hcl
  by_cases hok : SameLoad s a
  · rw [(h.closing_step hcl hok hst).2.1] at hs
    omega
  · obtain ⟨o, rfl, hloaded, hbusy⟩ := not_not.mp hok
    have hzero : s'.history.starts = 0 := by
      cases System.move_of_step hst with
      | refused hm hbusy' => simp [hloaded, hbusy] at hbusy'
      | curlFails hm hloaded hbusy hcurl => rfl
      | load hm hloaded hbusy hcurl => rfl
      | refresher hb hc ha => exact ha.elim
      | cleanup hm hl ha => exact ha.elim
    omega

/-- What is not joined belongs to a load in which the cache was started, and still runs. -/
theorem System.Reachable.unjoined (h : s.Reachable) {th : Sender} (hth : th ∈ s.senders)
    (hj : th.joined = 0) :
    s.history.cacheStarted = true ∧ s.cache.refresherRunning = true := by
  obtain ⟨t, ht⟩ := List.mem_iff_getElem?.mp hth
  have hl := h.life
  have hlt : t < s.senders.length := (List.getElem?_eq_some_iff.mp ht).1
  have hk : 0 < s.statics.threadCount := by
    rcases Nat.lt_or_ge t s.settled with hlt | hge
    · exact absurd (hl.joined t th ht hlt).1 (by omega)
    · have hle : s.senders.length - s.statics.threadCount ≤ s.settled := Nat.le_add_right _ _
      omega
  exact (hl.running hk).symm

theorem System.Reachable.joined_le (h : s.Reachable) {th : Sender} (hth : th ∈ s.senders) :
    th.joined ≤ 1 ∧ (th.joined = 1 → th.pc = .exited) := by
  obtain ⟨t, ht⟩ := List.mem_iff_getElem?.mp hth
  rcases Nat.lt_or_ge t s.settled with hlt | hge
  · obtain ⟨h1, h2⟩ := h.life.joined t th ht hlt
    exact ⟨le_of_eq h1, fun _ => h2⟩
  · have h0 := h.life.fresh t th ht hge
    exact ⟨by omega, fun h1 => by omega⟩

theorem System.Reachable.returns_closed (h : s.Reachable) {caller : Caller}
    (hm : s.main = .stopping caller) {a : Act} (hst : s.step a = some s')
    (hm' : s'.main = .idle) : Closed s' := by
  have hcl : s.cache.closing = true := by
    have hp := h.life.place
    rw [hm] at hp
    exact hp.1
  have hok : SameLoad s a := by
    rintro ⟨o, rfl, hload⟩
    have hnone : s.step (.load o) = none := by
      simp only [System.step, hm, reduceCtorEq, if_false]
      split <;> rfl
    rw [hnone] at hst
    exact absurd hst (by simp)
  have hnext : s'.Reachable := h.next hst
  refine hnext.closed hm' fun hlive => ?_
  have hcl' := (h.closing_step hcl hok hst).1
  rw [hlive.2.2] at hcl'
  exact absurd hcl' (by simp)

theorem System.Reachable.unchanged (h : s.Reachable) (hm : s.main = .idle) (hc : Closed s)
    {a : Act} {caller : Caller} (hst : s.step a = some (s.cleanupThreads caller))
    (hr : Lts.Run System.step InCall (s.cleanupThreads caller) s') (hm' : s'.main = .idle) :
    Unchanged s s' := by
  have heq := h.cleanup_idle hc hr (h.next hst) hm hm'
  have hidle := h.life.stopper_idle hm
  have hpat : ({ s.statics with ipPatterns := [] } : Statics) = s.statics := by
    rw [← hc.patterns]
  have hstop : ({ s.cache with
      closing := true, clock := s'.cache.clock, stopper := .idle } : PodCache)
        = { s.cache with closing := true, clock := s'.cache.clock } := by
    rw [← hidle]
  refine ⟨?_, ?_, ?_, ?_⟩
  · rw [← hstop]
    conv_lhs => rw [heq]
    exact returnTo_cache _ _
  · rw [heq]
    cases caller <;> rfl
  · rw [heq]
    cases caller <;> exact hpat
  · rw [heq]
    cases caller <;> rfl

/-- **The life cycle is sound**, for every sequence of callbacks and every failure. -/
theorem life_cycle_sound (s : System) (h : s.Reachable) :
    (s.history.starts ≤ 1 ∧ ∀ a s', s.step a = some s' →
      s'.history.starts = s.history.starts + 1 → s.cache.closing = false) ∧
    (s.cache.closing = true → ∀ s', Lts.Run System.step SameLoad s s' →
      s'.history = s.history ∧ s'.senders.length = s.senders.length) ∧
    (∀ th ∈ s.senders, th.joined = 0 →
      s.history.cacheStarted = true ∧ s.cache.refresherRunning = true) ∧
    (∀ th ∈ s.senders, th.joined ≤ 1 ∧ (th.joined = 1 → th.pc = .exited)) ∧
    (∀ n ∈ s.cache.refreshers, n ≤ 1) ∧ (∀ n ∈ s.cache.clients, n ≤ 1) ∧
    (s.cache.refresher ≠ none → ∃ k, s.cache.client = some k ∧ s.cache.clients[k]? = some 0) ∧
    (∀ caller, s.undefined = false →
      (∃ i, s.main = .joining i caller) ∨ s.main = .stopping caller →
      ∃ s', Lts.Run System.step InCall s s' ∧ s'.main = .idle) ∧
    (∀ caller, s.main = .stopping caller → ∀ a s', s.step a = some s' → s'.main = .idle →
      Closed s') ∧
    (s.main = .idle → ¬ s.Live → Closed s) ∧
    (s.main = .idle → Closed s → ∀ a caller s', s.step a = some (s.cleanupThreads caller) →
      Lts.Run System.step InCall (s.cleanupThreads caller) s' → s'.main = .idle →
      Unchanged s s') := by
  have hb := h.cache.books
  refine ⟨⟨h.life.starts, fun a s' hst hs => h.starts_step hst hs⟩,
    fun hcl s' hr => (h.closing_run hcl hr).2, fun th hth hj => h.unjoined hth hj,
    fun th hth => h.joined_le hth, ?_, ?_, ?_, ?_, ?_, fun hm hno => h.closed hm hno, ?_⟩
  · intro n hn
    obtain ⟨k, hk⟩ := List.mem_iff_getElem?.mp hn
    rw [hb.refreshers k n hk]
    split <;> decide
  · intro n hn
    obtain ⟨k, hk⟩ := List.mem_iff_getElem?.mp hn
    rw [hb.clients k n hk]
    split <;> decide
  · intro hth
    obtain ⟨k, hk⟩ := Option.isSome_iff_exists.mp
      (h.cache.inv.alive (Option.isSome_iff_ne_none.mpr hth)).1
    have hget := List.getElem?_eq_getElem (hb.client_lt k hk)
    have hzero := hb.clients k _ hget
    rw [if_pos hk] at hzero
    exact ⟨k, hk, hget.trans (congrArg some hzero)⟩
  · rintro caller hdef hm
    obtain ⟨u, hr, hidle, -⟩ := h.cleanup_returns hdef hm
    exact ⟨u, hr, hidle⟩
  · exact fun caller hm a s' hst hm' => h.returns_closed hm hst hm'
  · exact fun hm hc a caller s' hst hr hm' => h.unchanged hm hc hst hr hm'

/-- A load, an announcement and a shutdown: it was started once, and nothing is left. -/
theorem life_cycle_sound_onePod :
    ∃ s : System, s.Reachable ∧ s.history.starts = 1 ∧ s.senders.length = 1 ∧ Closed s := by
  have hrun : (Lts.exec System.step
      (System.init {} 0 (portsConfig (ascii "6379") (ascii "0")))
      (startUp ++ refreshRound ++ senderOk :: passOverOne ++ shutDown)).map
        (fun s => (s.main, s.cache.closing, s.history.starts, s.senders.length)) =
        some (.idle, true, 1, 1) := rfl
  obtain ⟨s, hs, hview⟩ := Option.map_eq_some_iff.mp hrun
  simp only [Prod.mk.injEq] at hview
  obtain ⟨hm, hcl, hstarts, hlen⟩ := hview
  have hreach : s.Reachable := Lts.reachable_of_exec ⟨_, _, _, rfl⟩ hs
  obtain ⟨-, -, -, -, -, -, -, -, -, hclosed, -⟩ := life_cycle_sound s hreach
  refine ⟨s, hreach, hstarts, hlen, hclosed hm fun hlive => ?_⟩
  rw [hlive.2.2] at hcl
  exact absurd hcl (by simp)

end LifeCycle

/-! ## 5. Reference counting, in the module -/

section RefCounts

/-- **Reference counting is sound**: in the cache by itself with any number of readers, and in
the module, which frees everything before `cleanup_threads` returns. -/
theorem refs_sound (c : PodCache) (h : c.Reachable) :
    RefsSound c ∧
    (∀ a c', c.step a = some c' → ∀ r < c.nextSnap,
      (c'.snaps r).frees ≠ (c.snaps r).frees → 0 < c.freers r) ∧
    ∀ s : System, s.Reachable → RefsSound s.cache ∧
      (Closed s → s.cache.stopper = .idle →
        (∀ r < s.cache.nextSnap, (s.cache.snaps r).frees = 1) ∧
        ∀ l < s.cache.nextList, (s.cache.lists l).frees = 1) := by
  refine ⟨h.refsSound, fun a c' hst r hr hne => h.inv.frees_of_step hst hr hne,
    fun s hs => ⟨hs.cache.refsSound, fun hc hidle => ?_⟩⟩
  refine hs.cache.refsSound.nothingLeft hc.current hc.refresher hidle fun rd hrd => ?_
  -- every reader is a sender, and has ended
  obtain ⟨t, ht⟩ := List.mem_iff_getElem?.mp hrd
  have hlt : t < s.senders.length := by
    rw [← hs.senders.length]
    exact (List.getElem?_eq_some_iff.mp ht).1
  obtain ⟨th, hth⟩ : ∃ th, s.senders[t]? = some th := ⟨_, List.getElem?_eq_getElem hlt⟩
  obtain ⟨rd', hrd', hreads⟩ := (hs.senders.sender t th hth).reader
  rw [(hc.senders th (List.mem_of_getElem? hth)).1] at hreads
  obtain rfl : rd' = rd := Option.some.inj (hrd'.symm.trans ht)
  exact hreads

/-- A reader acquires the first list and still holds it when the swap of the second round has
replaced it. -/
def heldOver : List CacheAct :=
  firstRound ++ [.refresher, .acquire 0, .refresher, .refresher, .tick 5000000000, .refresher,
    .refresher, .fetchEnds (onePod (some (ascii "prod"))), .refresher, .publishAlloc true,
    .refresher]

/-- The first list is counted twice: for its reader, and for the release that `publish` still has
to make. -/
theorem refs_sound_heldOver :
    ∃ c : PodCache, c.Reachable ∧ c.current = some 1 ∧ (c.snaps 0).refs = 2 ∧
      c.holders 0 = 1 ∧ c.detached 0 = 1 := by
  have hrun : (Lts.exec PodCache.step (PodCache.init {} 0) heldOver).map
      (fun c => (c.current, c.nextSnap, (c.snaps 0).frees, (c.snaps 0).refs, c.holders 0)) =
        some (some 1, 2, 0, 2, 1) := rfl
  obtain ⟨c, hc, hview⟩ := Option.map_eq_some_iff.mp hrun
  simp only [Prod.mk.injEq] at hview
  obtain ⟨hcur, hns, hfrees, hrefs, hheld⟩ := hview
  have hreach : c.Reachable := Lts.reachable_of_exec ⟨{}, 0, rfl⟩ hc
  have hcount := (refs_sound c hreach).1.refs 0 (by omega) hfrees
  rw [hrefs, hheld, if_neg (by simp [hcur])] at hcount
  exact ⟨c, hreach, hcur, hrefs, hheld, by omega⟩

end RefCounts

end Unicaster
