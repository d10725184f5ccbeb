/-
# `cleanup_threads` under every schedule

The call can return (`cleanup_returns`); here it is shown that it must.  With the closing signal
raised each step of a thread uses up one unit of a measure, and nothing adds to it: a sender has
at most the rest of its pass and one pass more before it, over at most `MAX_PODS` addresses, the
refresher at most the rest of its round, and the main thread the joins and `pod_cache_stop`.  As
long as the call has not returned some thread can go on, and none of them waits for the clock.
-/
import Unicaster.Refused
import Unicaster.Pass

namespace Unicaster

open CLib

/-! ## 1. A sender -/

/-- The steps of one round more, after this value of the flag. -/
def roundAgain (closing : Bool) : Nat := if closing then 0 else 8 + maxPods

/-- The steps of the passes a sender has at most still to begin, the closing signal being
raised. -/
def SenderPc.passesLeft : SenderPc → Nat
  | .acquiring closing => roundAgain closing
  | .sending p => roundAgain p.closing
  | .reporting p => roundAgain p.closing
  | .releasing p => roundAgain p.closing
  | .freeing closing => roundAgain closing
  | .sleeping _ => 7 + maxPods
  | _ => 0

/-- The steps a sender has at most still to take, the closing signal being raised. -/
def SenderPc.left (pc : SenderPc) : Nat := pc.passLeft + pc.passesLeft

section Sender

variable {c c' : PodCache} {th th' : Sender} {t : Nat}

theorem roundAgain_le (closing : Bool) : roundAgain closing ≤ 8 + maxPods := by
  cases closing with
  | true => exact Nat.zero_le _
  | false => exact Nat.le_refl _

theorem SenderPc.left_le (pc : SenderPc) : pc.left ≤ 13 + 2 * maxPods := by
  cases pc with
  | acquiring closing =>
    have h := roundAgain_le closing
    simp only [SenderPc.left, SenderPc.passLeft, SenderPc.passesLeft]
    omega
  | sending p =>
    have h := roundAgain_le p.closing
    simp only [SenderPc.left, SenderPc.passLeft, SenderPc.passesLeft]
    omega
  | reporting p =>
    have h := roundAgain_le p.closing
    simp only [SenderPc.left, SenderPc.passLeft, SenderPc.passesLeft]
    omega
  | releasing p =>
    have h := roundAgain_le p.closing
    simp only [SenderPc.left, SenderPc.passLeft, SenderPc.passesLeft]
    omega
  | freeing closing =>
    have h := roundAgain_le closing
    simp only [SenderPc.left, SenderPc.passLeft, SenderPc.passesLeft]
    omega
  | _ =>
    simp only [SenderPc.left, SenderPc.passLeft, SenderPc.passesLeft]
    omega

/-- Behind a round. -/
theorem left_endPass (th : Sender) (closing : Bool) (clock : Int) :
    (th.endPass closing clock).pc.left < 1 + roundAgain closing := by
  cases closing with
  | true => exact Nat.one_pos
  | false =>
    change 0 + (7 + maxPods) < 1 + (8 + maxPods)
    omega

/-- **Every step of a sender brings it closer to its end**, the closing signal being raised: in a
pass to the end of the pass, and no pass is added. -/
theorem SenderMove.closer {guid : Text} {enableLogging : Bool} {config : Config}
    {o : SendOutcome} (h : SenderMove c guid enableLogging config t o th c' th')
    (hi : SenderInv c t th) (hc : c.Reachable) (hcl : c.closing = true) :
    th'.pc.left < th.pc.left := by
  have hstays : th.pc.passLeft ≠ 0 → th'.pc.passesLeft ≤ th.pc.passesLeft →
      th'.pc.left < th.pc.left := by
    intro hpass hle
    have hlt := h.passCloser hi hc hpass
    unfold SenderPc.left
    omega
  cases h with
  | prepare hpc => exact hstays (by rw [hpc]; simp [SenderPc.passLeft]) (Nat.zero_le _)
  | beginPass hpc =>
    refine hstays (by rw [hpc]; simp [SenderPc.passLeft]) ?_
    simp only [Sender.beginPass, SenderPc.passesLeft, hcl, roundAgain, if_true]
    exact Nat.zero_le _
  | acquired hpc hst => exact hstays (by rw [hpc]; simp [SenderPc.passLeft]) (by rw [hpc]; rfl)
  | @sent p r ip c' hpc hs hst hip =>
    refine hstays (by rw [hpc]; simp [SenderPc.passLeft]) ?_
    obtain ⟨l, log, hsame, -, -, heq⟩ := sendTo_eq th p ip enableLogging o
    rw [heq, hpc]
    simp only [SenderPc.passesLeft]
    rw [hsame]
  | sendsEnd hpc hst => exact hstays (by rw [hpc]; simp [SenderPc.passLeft]) (by rw [hpc]; rfl)
  | reported hpc hst => exact hstays (by rw [hpc]; simp [SenderPc.passLeft]) (by rw [hpc]; rfl)
  | toFree hpc hs hst hf => exact hstays (by rw [hpc]; simp [SenderPc.passLeft]) (by rw [hpc]; rfl)
  | @released p c' hpc hst =>
    have hend := left_endPass th p.closing c'.clock
    rw [hpc]
    simp only [SenderPc.left, SenderPc.passLeft, SenderPc.passesLeft] at hend ⊢
    omega
  | @freed closing c' hpc hst =>
    have hend := left_endPass th closing c'.clock
    rw [hpc]
    simp only [SenderPc.left, SenderPc.passLeft, SenderPc.passesLeft] at hend ⊢
    omega
  | woken hpc hw =>
    rw [hpc]
    simp only [SenderPc.left, SenderPc.passLeft, SenderPc.passesLeft]
    omega

end Sender

/-! ## 2. The refresher and the main thread -/

section Cache

variable {c c' : PodCache}

/-- What the refresher has still to do. -/
def PodCache.refresherLeft (c : PodCache) : Nat :=
  match c.refresher with
  | some th => th.pc.toEnd
  | none => 0

theorem RefresherPc.toEnd_le (pc : RefresherPc) : pc.toEnd ≤ 7 := by
  cases pc <;> simp only [RefresherPc.toEnd] <;> omega

theorem PodCache.refresherLeft_le (c : PodCache) : c.refresherLeft ≤ 7 := by
  unfold PodCache.refresherLeft
  split
  · exact RefresherPc.toEnd_le _
  · exact Nat.zero_le 7

/-- **Every step of the refresher, and every end of what it waits for, brings it closer to its
end.** -/
theorem CacheInv.refresherLeft_lt (h : CacheInv c) (hcl : c.closing = true) {b : CacheAct}
    (hb : b.OfRefresher) (hst : c.step b = some c') : c'.refresherLeft < c.refresherLeft := by
  have hown : ∀ {th th' : Refresher}, c.refresher = some th → c'.refresher = some th' →
      th'.pc.toEnd < th.pc.toEnd → c'.refresherLeft < c.refresherLeft := by
    intro th th' hth hth' hlt
    simp only [PodCache.refresherLeft, hth, hth']
    exact hlt
  cases h.move_of_step hst with
  | @refresher th c' hth hmv =>
    obtain ⟨th', hth', hlt⟩ := h.refresher_closer hcl hmv
    exact hown hth hth' hlt
  | fetched hth hpc hok => exact hown hth rfl (by rw [hpc]; exact Nat.lt_succ_self 1)
  | fetchFailed hth hpc hno => exact hown hth rfl (by rw [hpc]; exact Nat.lt_succ_self 1)
  | allocated hth hpc => exact hown hth rfl (by rw [hpc]; exact Nat.lt_succ_self 6)
  | outOfMemory hth hpc => exact hown hth rfl (by rw [hpc]; exact (by decide : 5 < 7))
  | _ => exact hb.elim

/-- A step of `pod_cache_stop` goes on in it, or out of it. -/
theorem StopMove.closer (h : StopMove c c') :
    c'.stopper = .idle ∨ c'.stopper.toEnd < c.stopper.toEnd := by
  cases h with
  | join hs hrun hth hpc => exact Or.inr (by rw [hs]; exact Nat.lt_succ_self 4)
  | noRefresher hs hrun => exact Or.inr (by rw [hs]; exact Nat.lt_succ_self 4)
  | destroy hs hcl => exact Or.inr (by rw [hs]; exact Nat.lt_succ_self 3)
  | detach hs => exact Or.inr (by rw [hs]; exact Nat.lt_succ_self 2)
  | noList hs => exact Or.inl rfl
  | dropLast hs h0 => exact Or.inr (by rw [hs]; exact Nat.lt_succ_self 1)
  | drop hs h0 => exact Or.inl rfl
  | free hs => exact Or.inl rfl

theorem StopPc.toEnd_le (pc : StopPc) : pc.toEnd ≤ 5 := by
  cases pc <;> simp only [StopPc.toEnd] <;> omega

end Cache

/-! ## 3. The call -/

/-- What the main thread has still to do in `cleanup_threads`. -/
def System.mainLeft (s : System) : Nat :=
  match s.main with
  | .joining i _ => s.statics.threadCount - i + 7
  | .stopping _ => 1 + s.cache.stopper.toEnd
  | _ => 0

/-- The steps the threads have at most still to take before the call has returned. -/
def System.left (s : System) : Nat :=
  (s.senders.map (·.pc.left)).sum + s.cache.refresherLeft + s.mainLeft

/-- A step that some thread takes, and not the clock. -/
def Act.ofThread : Act → Bool
  | .tick _ => false
  | _ => true

/-- In `cleanup_threads`, or back from it. -/
structure Draining (s : System) : Prop where
  reachable : s.Reachable
  defined : s.undefined = false
  main : (∃ i caller, s.main = .joining i caller) ∨ (∃ caller, s.main = .stopping caller) ∨
    s.main = .idle

section Call

variable {s s' : System}

theorem Draining.closing (h : Draining s) (hcall : s.main ≠ .idle) : s.cache.closing = true := by
  have hp := h.reachable.life.place
  rcases h.main with ⟨i, caller, hm⟩ | ⟨caller, hm⟩ | hm
  · rw [hm] at hp
    exact hp.2.1
  · rw [hm] at hp
    exact hp.1
  · exact absurd hm hcall

/-- **Every step of a thread uses up one unit**, and the clock uses up none. -/
theorem Draining.step (h : Draining s) (hcall : s.main ≠ .idle) {a : Act}
    (hst : s.step a = some s') :
    Draining s' ∧ s'.left + (if a.ofThread then 1 else 0) ≤ s.left := by
  have hnext := h.reachable.next hst
  have hcl := h.closing hcall
  cases System.move_of_step hst with
  | tick => exact ⟨⟨hnext, h.defined, h.main⟩, Nat.le_refl _⟩
  | @refresher a b c' hb hc ha =>
    have hlt := h.reachable.cache.inv.refresherLeft_lt hcl hb hc
    have hstop := (h.reachable.cache.inv.refresher_step hb hc).2.2.stopper
    refine ⟨⟨hnext, h.defined, h.main⟩, ?_⟩
    have hone : (if a.ofThread then 1 else 0) ≤ 1 := by
      split
      · exact Nat.le_refl 1
      · exact Nat.zero_le 1
    simp only [System.left, System.mainLeft, hstop]
    omega
  | @sender t o th c' th' hth hmv =>
    have hlt := hmv.closer (h.reachable.senders.sender t th hth) h.reachable.cache hcl
    have hsum := List.sum_map_set (fun th : Sender => th.pc.left) hth th'
    have hkeep : c'.refresherLeft = s.cache.refresherLeft ∧ c'.stopper = s.cache.stopper := by
      rcases hmv.cache with rfl | ⟨b, hb, hc⟩
      · exact ⟨rfl, rfl⟩
      · obtain ⟨-, hf, href, -⟩ := h.reachable.cache.inv.reader_step hb hc
        refine ⟨?_, hf.stopper⟩
        rw [PodCache.refresherLeft, href]
        rfl
    refine ⟨⟨hnext, h.defined, h.main⟩, ?_⟩
    simp only [System.left, System.mainLeft, Act.ofThread, if_true, hkeep.1, hkeep.2]
    omega
  | configSet hm => exact absurd hm hcall
  | refused hm hbusy => exact absurd hm hcall
  | curlFails hm hloaded hbusy hcurl => exact absurd hm hcall
  | load hm hloaded hbusy hcurl => exact absurd hm hcall
  | cron hm hhook hst => exact absurd hm hcall
  | cleanup hm hloaded ha => exact absurd hm hcall
  | main hst =>
    have hmain := h.main
    rcases mainStep_eq hst with ⟨hm, rfl⟩ | ⟨ifa, todo, hm, rfl⟩ |
      ⟨i, caller, s1, hm, hi, hj, rfl⟩ | ⟨i, caller, hm, hi, rfl⟩ | ⟨caller, c', hm, hc, rfl⟩
    · exact absurd hmain (by simp [hm])
    · exact absurd hmain (by simp [hm])
    · rcases joinStep_eq hj with ⟨rfl, -⟩ | ⟨t, th, -, hth, hpc, rfl⟩
      · obtain ⟨t, th, heq⟩ := h.reachable.joins hm hi hj
        have hdef : true = s.undefined := congrArg System.undefined heq
        rw [h.defined] at hdef
        exact absurd hdef (by simp)
      · have hsum := List.sum_map_set (fun th : Sender => th.pc.left) hth
          { th with joined := th.joined + 1 }
        refine ⟨⟨hnext, h.defined, Or.inl ⟨i + 1, caller, rfl⟩⟩, ?_⟩
        simp only [System.left, System.mainLeft, hm, Act.ofThread, if_true] at hsum ⊢
        omega
    · refine ⟨⟨hnext, h.defined, Or.inr (Or.inl ⟨caller, rfl⟩)⟩, ?_⟩
      have hidle : s.cache.stopper.toEnd ≤ 5 := s.cache.stopper.toEnd_le
      simp only [System.left, System.mainLeft, hm, Act.ofThread, if_true]
      omega
    · have hmv := h.reachable.cache.inv.stopMove hc
      have hleft : c'.refresherLeft ≤ s.cache.refresherLeft := by
        unfold PodCache.refresherLeft
        rcases hmv.frame.2.1 with heq | heq
        · rw [heq]
        · rw [heq]
          exact Nat.zero_le _
      split
      · rename_i hidle
        rw [if_pos hidle] at hnext
        have hback : System.left (System.returnTo { s with cache := c' } caller) =
            (s.senders.map (·.pc.left)).sum + c'.refresherLeft := by
          cases caller <;> rfl
        refine ⟨⟨hnext, ?_, Or.inr (Or.inr ?_)⟩, ?_⟩
        · cases caller <;> exact h.defined
        · cases caller <;> rfl
        · rw [hback]
          simp only [System.left, System.mainLeft, hm, Act.ofThread, if_true]
          omega
      · rename_i hidle
        rw [if_neg hidle] at hnext
        have hlt := hmv.closer.resolve_left hidle
        refine ⟨⟨hnext, h.defined, Or.inr (Or.inl ⟨caller, hm⟩)⟩, ?_⟩
        simp only [System.left, System.mainLeft, hm, Act.ofThread, if_true]
        omega

/-- What is left is bounded by the senders that are not joined. -/
theorem Draining.left_le (h : Draining s) :
    s.left ≤ s.statics.threadCount * (14 + 2 * maxPods) + 14 := by
  have hl := h.reachable.life
  have hcount := hl.count_le
  have hsum : (s.senders.map (·.pc.left)).sum ≤
      (s.senders.length - (s.senders.length - s.statics.threadCount)) * (13 + 2 * maxPods) := by
    refine List.sum_map_le_of_settled _ (fun t th hth hlt => ?_) fun th _ => th.pc.left_le
    have hset : t < s.settled := Nat.lt_of_lt_of_le hlt (Nat.le_add_right _ _)
    rw [(hl.joined t th hth hset).2]
    rfl
  have hk : s.senders.length - (s.senders.length - s.statics.threadCount)
      = s.statics.threadCount := by omega
  have hmain : s.mainLeft ≤ s.statics.threadCount + 7 := by
    unfold System.mainLeft
    have hidle := s.cache.stopper.toEnd_le
    split <;> omega
  have href := s.cache.refresherLeft_le
  rw [hk] at hsum
  have hsplit : s.statics.threadCount * (14 + 2 * maxPods) =
      s.statics.threadCount * (13 + 2 * maxPods) + s.statics.threadCount := by
    rw [← Nat.mul_succ]
    congr 1
  unfold System.left
  omega

/-- The clock uses up nothing of what a join or `pod_cache_stop` waits for. -/
theorem tick_waits {ns : Nat} (hst : s.step (.tick ns) = some s') :
    (∀ t, s'.waits t = s.waits t) ∧ s'.toReturn = s.toReturn := by
  unfold System.step at hst
  split at hst
  · exact absurd hst (by simp)
  · obtain ⟨c', hc, rfl⟩ := cacheStep_eq hst
    obtain rfl := Option.some.inj hc
    exact ⟨fun t => rfl, rfl⟩

/-- **As long as the call has not returned some thread can go on.** -/
theorem Draining.enabled (h : Draining s) (hcall : s.main ≠ .idle) :
    ∃ a, a.ofThread = true ∧ s.step a ≠ none := by
  have hthread : ∀ {a : Act}, (∀ ns, a ≠ .tick ns) → a.ofThread = true := by
    intro a hne
    cases a with
    | tick ns => exact absurd rfl (hne ns)
    | _ => rfl
  rcases h.main with ⟨i, caller, hm⟩ | ⟨caller, hm⟩ | hm
  · have hp := h.reachable.life.place
    by_cases hi : i < s.statics.threadCount
    · have hcount := h.reachable.life.count_le
      have hset := settled_of_joining hm
      by_cases hend : s.Ended s.settled
      · obtain ⟨th, hth, hpc⟩ := hend
        have hslot := h.reachable.life.slots i hi
        rw [← hset] at hslot
        have hj : s.joinStep i = some
            { s with senders := s.senders.set s.settled { th with joined := th.joined + 1 } } := by
          simp only [System.joinStep, hslot, hth, hpc]
        refine ⟨mainOk, rfl, ?_⟩
        rw [mainOk, step_main h.defined]
        simp [System.mainStep, hm, hi, hj]
      · have hat : AtJoin s s := ⟨h.reachable, h.defined, rfl, rfl, rfl⟩
        obtain ⟨a, v, -, hst, -, hlt⟩ := hat.goes_on hm (by omega) hend
        refine ⟨a, hthread fun ns hns => ?_, by simp [hst]⟩
        rw [hns] at hst
        rw [(tick_waits hst).1] at hlt
        exact Nat.lt_irrefl _ hlt
    · refine ⟨mainOk, rfl, ?_⟩
      rw [mainOk, step_main h.defined]
      simp [System.mainStep, hm, hi]
  · have hat : AtStop caller s := ⟨h.reachable, h.defined, Or.inl hm⟩
    obtain ⟨a, v, -, hst, -, hlt⟩ := hat.goes_on hcall
    refine ⟨a, hthread fun ns hns => ?_, by simp [hst]⟩
    rw [hns] at hst
    rw [(tick_waits hst).2] at hlt
    exact Nat.lt_irrefl _ hlt
  · exact absurd hm hcall

/-- **`cleanup_threads` returns under every schedule.**  From anywhere in it, and however the
steps of the threads, the answers of the API, the failures and the clock are interleaved, the
threads take no more steps before it has returned than `14 + 2 * MAX_PODS` for each sender that is
not joined, and 14; and as long as it has not returned some thread has a step to take, without the
clock going on. -/
theorem cleanup_drains (s : System) (h : s.Reachable) (hdef : s.undefined = false)
    (hm : (∃ i caller, s.main = .joining i caller) ∨ ∃ caller, s.main = .stopping caller)
    (as : List Act) (s' : System) (htr : Lts.Trace System.step InCall s as s') :
    as.countP Act.ofThread ≤ s.statics.threadCount * (14 + 2 * maxPods) + 14 ∧
      (s'.main ≠ .idle → ∃ a, a.ofThread = true ∧ s'.step a ≠ none) := by
  have hs : Draining s := by
    refine ⟨h, hdef, ?_⟩
    rcases hm with hm | hm
    · exact Or.inl hm
    · exact Or.inr (Or.inl hm)
  have hpay := htr.countP_add_le System.left Act.ofThread
    (fun t a u ht hok hst => ht.step hok hst) hs
  refine ⟨Nat.le_trans (Nat.le_trans (Nat.le_add_right _ _) hpay) hs.left_le, ?_⟩
  intro hcall'
  have hs' : Draining s' :=
    htr.run.invariant hs fun t a u ht hok hst => (ht.step hok hst).1
  exact hs'.enabled hcall'

/-- A shutdown while the one sender and the refresher sleep: sixteen steps. -/
theorem cleanup_drains_onePod :
    ∃ s s' : System, Lts.Trace System.step InCall s shutDown.tail s' ∧ s'.main = .idle ∧
      s.statics.threadCount = 1 ∧ shutDown.tail.countP Act.ofThread = 16 ∧
      shutDown.tail.countP Act.ofThread ≤ 1 * (14 + 2 * maxPods) + 14 := by
  have hbefore : (Lts.exec System.step
      (System.init {} 0 (portsConfig (ascii "6379") (ascii "0")))
      (startUp ++ refreshRound ++ senderOk :: passOverOne ++ [.shutdown])).map
        (fun s => (s.main, s.statics.threadCount, s.undefined)) =
        some (.joining 0 .shutdown, 1, false) := rfl
  have hafter : ((Lts.exec System.step
      (System.init {} 0 (portsConfig (ascii "6379") (ascii "0")))
      (startUp ++ refreshRound ++ senderOk :: passOverOne ++ [.shutdown])).bind
        (Lts.execIf System.step (fun s _ => decide (s.main ≠ .idle)) · shutDown.tail)).map
          System.main = some .idle := rfl
  obtain ⟨s', hs', hidle⟩ := Option.map_eq_some_iff.mp hafter
  obtain ⟨s, hs, hexec⟩ := Option.bind_eq_some_iff.mp hs'
  rw [hs, Option.map_some, Option.some.injEq, Prod.mk.injEq, Prod.mk.injEq] at hbefore
  obtain ⟨hm, hk, hdef⟩ := hbefore
  have htr : Lts.Trace System.step InCall s shutDown.tail s' := by
    refine Lts.trace_of_execIf (fun t a ht => ?_) hexec
    exact of_decide_eq_true (p := t.main ≠ .idle) ht
  have hdrain := (cleanup_drains s (Lts.reachable_of_exec ⟨_, _, _, rfl⟩ hs) hdef
    (Or.inl ⟨0, .shutdown, hm⟩) _ s' htr).1
  rw [hk] at hdrain
  exact ⟨s, s', htr, hidle, hk, rfl, hdrain⟩

end Call

end Unicaster
