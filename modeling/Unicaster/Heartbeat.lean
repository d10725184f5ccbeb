/-
# No announcement is late

`Pace` is about what is never too early; this is about what is never too late.  No program keeps a
deadline on a host that does not run it, so the runs here are PROMPT: a thread that can take a step
waits for the processor no longer than `delay`.  The rest is the code's own doing.  A pass waits for
nobody and has a bounded number of steps, and behind it the sender sleeps for an interval; so the
longest stretch without an announcement is the interval, which is what the `up` text promises to
its readers, and one `delay` for each of these steps.

For the requests it is the timeout of the one before and the longest retry delay.  That is also how
long the list stays as it was behind an outage that is over.
-/
import Unicaster.Pace

namespace Unicaster

open CLib Pace

/-! ## 1. Time -/

/-- Only `tick` moves the clock of the cache. -/
theorem CacheInv.clock_kept {c c' : PodCache} (h : CacheInv c) {a : CacheAct}
    (ha : ∀ ns, a ≠ .tick ns) (hst : c.step a = some c') : c'.clock = c.clock := by
  cases h.move_of_step hst with
  | @tick ns => exact absurd rfl (ha ns)
  | refresher hth hmv => exact (h.refresher_frame hmv).1.clock
  | start hs hmv => cases hmv <;> rfl
  | stop hmv => cases hmv <;> rfl
  | _ => rfl

section Clock

variable {s s' : System} {a : Act}

/-- Only `tick` moves the clock of the system. -/
theorem System.Reachable.clock_kept (h : s.Reachable) (ha : ∀ ns, a ≠ .tick ns)
    (hst : s.step a = some s') : s'.cache.clock = s.cache.clock := by
  have hi := h.cache.inv
  cases System.move_of_step hst with
  | @tick ns => exact absurd rfl (ha ns)
  | refresher hb hc ha' => exact (hi.refresher_step hb hc).2.2.clock
  | sender hth hmv =>
    rcases hmv.cache with rfl | ⟨b, hb, hc⟩
    · rfl
    · exact (hi.reader_step hb hc).2.1.clock
  | cron hm hhook hcron =>
    rcases cronBroadcastOnce_eq hcron with rfl | ⟨-, -, c', hc, ⟨-, rfl⟩ | ⟨-, rfl⟩⟩
    · rfl
    · exact hi.clock_kept (by simp) hc
    · rw [sendUdpMessage_cache]
      exact hi.clock_kept (by simp) hc
  | main hmain =>
    rcases mainStep_eq hmain with ⟨-, rfl⟩ | ⟨ifa, todo, -, rfl⟩ | ⟨i, caller, s₁, -, -, hj, rfl⟩ |
      ⟨i, caller, -, -, rfl⟩ | ⟨caller, c', -, hc, rfl⟩
    · rfl
    · rcases spawnStep_eq s ifa _ with heq | heq | ⟨a, slots, -, -, -, heq⟩ <;> rw [heq]
    · rcases joinStep_eq hj with ⟨rfl, -⟩ | ⟨t, th, -, -, -, rfl⟩ <;> rfl
    · rfl
    · have hclock := hi.clock_kept (by simp) hc
      split
      · cases caller <;> exact hclock
      · exact hclock
  | _ => rfl

end Clock

/-- `n` delays, and one more. -/
theorem delays_succ {n m : Nat} (h : n < m) (delay : Nat) :
    (n : Int) * delay + delay ≤ m * delay := by
  have hle : ((n + 1 : Nat) : Int) * delay ≤ m * delay :=
    Int.mul_le_mul_of_nonneg_right (Int.ofNat_le.mpr h) (Int.natCast_nonneg delay)
  rw [Int.natCast_succ, Int.add_mul, Int.one_mul] at hle
  exact hle

/-! ## 2. The announcements -/

/-- What is kept beside a run of sender `t`: when it was created, when it took its last step, and
when its `up` passes began. -/
structure Beats where
  created : Int
  since : Int
  moments : List Int

/-- The same behind a step; before it is created, both moments are now. -/
def System.beatsAfter (t : Nat) (s : System) (a : Act) (s' : System) (b : Beats) : Beats where
  created := if s.senders[t]? = none then s'.cache.clock else b.created
  since := if s.senders[t]? = none ∨ a.ofSender t = true then s'.cache.clock else b.since
  moments := s.upsAfter t a b.moments

/-- A step of the system, with these moments. -/
def System.beatStep (t : Nat) (x : System × Beats) (a : Act) : Option (System × Beats) :=
  (x.1.step a).map fun s' => (s', x.1.beatsAfter t a s' x.2)

/-- By when a sender takes its next step: `delay` behind its deadline if it sleeps, and otherwise
behind its last step. -/
def SenderPc.nextBy (delay : Nat) (since : Int) : SenderPc → Int
  | .sleeping deadline => deadline + delay
  | _ => since + delay

/-- **Sender `t` is not kept waiting for longer than `delay`.** -/
def Prompt (t delay : Nat) (x : System × Beats) : Act → Prop
  | .tick ns => ∀ th, x.1.senders[t]? = some th → th.pc ≠ .exited →
      x.1.cache.clock + ns ≤ th.pc.nextBy delay x.2.since
  | _ => True

/-- The longest stretch without an announcement. -/
def Environ.beat (e : Environ) (delay : Nat) : Int := e.pace + (7 + maxPods : Nat) * delay

/-- In a pass that has begun. -/
def SenderPc.OnPass : SenderPc → Prop
  | .start => False
  | .check => False
  | .sleeping _ => False
  | .exited => False
  | _ => True

/-- Where a sender stands it is no later than the steps it has taken allow. -/
def SenderPc.OnTime (e : Environ) (delay : Nat) (b : Beats) : SenderPc → Prop
  | .start => b.since = b.created
  | .check => Within (e.pace + (6 + maxPods : Nat) * delay) b.moments b.since ∧
      (b.moments = [] → b.since ≤ b.created + delay)
  | .sleeping deadline => Within (e.pace + (5 + maxPods : Nat) * delay) b.moments deadline ∧
      b.moments ≠ []
  | .exited => True
  | pc => Within ((5 + maxPods - pc.passLeft : Nat) * delay) b.moments b.since ∧ b.moments ≠ []

/-- **What holds of a sender that is not kept waiting.** -/
structure BeatInv (delay : Nat) (c : PodCache) (th : Sender) (b : Beats) : Prop where
  soon : th.pc ≠ .exited → c.clock ≤ th.pc.nextBy delay b.since
  dense : Dense (c.environ.beat delay) b.moments
  first : ∀ x, b.moments.head? = some x → x ≤ b.created + 2 * delay
  onTime : c.closing = true ∨ th.pc.OnTime c.environ delay b

section Sender

variable {c c' : PodCache} {th th' : Sender} {t delay : Nat} {b : Beats} {guid : Text}
  {enableLogging : Bool} {config : Config} {o : SendOutcome}

/-- In a pass the place bounds how long ago the announcement was. -/
theorem SenderPc.onTime_onPass {pc : SenderPc} (hon : pc.OnPass) (e : Environ) (delay : Nat)
    (b : Beats) :
    pc.OnTime e delay b ↔
      Within ((5 + maxPods - pc.passLeft : Nat) * delay) b.moments b.since ∧ b.moments ≠ [] := by
  cases pc with
  | start => exact hon.elim
  | check => exact hon.elim
  | sleeping deadline => exact hon.elim
  | exited => exact hon.elim
  | _ => exact Iff.rfl

theorem SenderPc.OnPass.passLeft {pc : SenderPc} (hon : pc.OnPass) :
    0 < pc.passLeft ∧ pc.passLeft ≤ 5 + maxPods := by
  cases pc with
  | start => exact hon.elim
  | check => exact hon.elim
  | sleeping deadline => exact hon.elim
  | exited => exact hon.elim
  | _ =>
    simp only [SenderPc.passLeft]
    omega

theorem SenderPc.OnPass.nextBy {pc : SenderPc} (hon : pc.OnPass) (delay : Nat) (since : Int) :
    pc.nextBy delay since = since + delay := by
  cases pc with
  | sleeping deadline => exact hon.elim
  | _ => rfl

/-- **Where a step from within a pass leads**: on in the pass, or to the sleep or the end. -/
theorem SenderMove.from_pass
    (h : SenderMove c guid enableLogging config t o th c' th') (hon : th.pc.OnPass) :
    th'.pc.OnPass ∨ th'.pc = .exited ∨
      th'.pc = .sleeping (c'.clock + th.broadcastInterval * nsPerSecond) := by
  have hend : ∀ closing, (th.endPass closing c'.clock).pc = .exited ∨
      (th.endPass closing c'.clock).pc =
        .sleeping (c'.clock + th.broadcastInterval * nsPerSecond) := by
    intro closing
    cases closing with
    | true => exact Or.inl rfl
    | false => exact Or.inr rfl
  cases h with
  | prepare hpc =>
    rw [hpc] at hon
    exact hon.elim
  | beginPass hpc =>
    rw [hpc] at hon
    exact hon.elim
  | woken hpc hw =>
    rw [hpc] at hon
    exact hon.elim
  | acquired hpc hc => exact Or.inl trivial
  | @sent p r ip c' hpc hs hc hip =>
    obtain ⟨l, log, -, -, hnext, heq⟩ := sendTo_eq th p ip enableLogging o
    rw [heq]
    exact Or.inl trivial
  | sendsEnd hpc hc => exact Or.inl trivial
  | reported hpc hc => exact Or.inl trivial
  | toFree hpc hs hc hf => exact Or.inl trivial
  | @released p c' hpc hc => exact Or.inr (hend p.closing)
  | @freed closing c' hpc hc => exact Or.inr (hend closing)

/-- The step of a sender is no step of the clock or of the flag. -/
theorem SenderMove.frame (h : SenderMove c guid enableLogging config t o th c' th')
    (hi : CacheInv c) :
    c'.environ = c.environ ∧ c'.clock = c.clock ∧ c'.closing = c.closing := by
  rcases h.cache with rfl | ⟨a, ha, hc⟩
  · exact ⟨rfl, rfl, rfl⟩
  · have hf := (hi.reader_step ha hc).2.1
    exact ⟨hf.environ, hf.clock, hf.closing⟩

/-- **A step within a pass.** -/
theorem BeatInv.passes (h : BeatInv delay c th b) (hk : PaceInv c th b.moments)
    (hr : c.Reachable) (hs : SenderInv c t th)
    (hmv : SenderMove c guid enableLogging config t o th c' th') (hon : th.pc.OnPass) :
    BeatInv delay c' th' ⟨b.created, c'.clock, b.moments⟩ := by
  obtain ⟨he, hclock, hcl⟩ := hmv.frame hr.inv
  have hexit : th.pc ≠ .exited := by
    intro hno
    rw [hno] at hon
    exact hon
  have hstart : th.pc ≠ .start := by
    intro hno
    rw [hno] at hon
    exact hon
  have hsoon := h.soon hexit
  rw [hon.nextBy] at hsoon
  have hcloser := hmv.passCloser hs hr hon.passLeft.1.ne'
  have hinterval := hk.interval hstart
  have hnext := hmv.from_pass hon
  have hns : (0 : Int) ≤ nsPerSecond := by decide
  have hpos := (getInterval_range c.environ).1
  constructor
  · intro hgoes
    rcases hnext with hon' | hend | hsleep
    · rw [hon'.nextBy]
      exact Int.le_add_of_nonneg_right (Int.natCast_nonneg delay)
    · exact absurd hend hgoes
    · rw [hsleep, hinterval]
      have hwhile : 0 ≤ c.environ.getInterval * nsPerSecond := Int.mul_nonneg (by omega) hns
      simp only [SenderPc.nextBy]
      omega
  · rw [he]
    exact h.dense
  · exact h.first
  · rcases h.onTime with hset | hon'
    · exact Or.inl (hcl.trans hset)
    · refine Or.inr ?_
      rw [SenderPc.onTime_onPass hon] at hon'
      obtain ⟨hwithin, hne⟩ := hon'
      rcases hnext with hin | hend | hsleep
      · rw [SenderPc.onTime_onPass hin]
        refine ⟨hwithin.mono ?_, hne⟩
        have hroom := delays_succ
          (show 5 + maxPods - th.pc.passLeft < 5 + maxPods - th'.pc.passLeft by
            have := hon.passLeft
            omega) delay
        change c'.clock - b.since ≤ _
        omega
      · rw [hend]
        trivial
      · rw [hsleep, hinterval, he]
        refine ⟨hwithin.mono ?_, hne⟩
        have hroom := delays_succ
          (show 5 + maxPods - th.pc.passLeft < 5 + maxPods by
            have := hon.passLeft
            omega) delay
        unfold Environ.pace
        omega

/-- **A step outside a pass**: the sender begins, it begins a pass, or it wakes up. -/
theorem BeatInv.begins (h : BeatInv delay c th b) (hk : PaceInv c th b.moments)
    (hmv : SenderMove c guid enableLogging config t o th c' th') (hoff : ¬ th.pc.OnPass) :
    BeatInv delay c' th'
      ⟨b.created, c'.clock,
        if th.beginsUp c = true then b.moments ++ [c.clock] else b.moments⟩ := by
  have hpaced := hk.paced
  have hsoon := h.soon
  have hon := h.onTime
  -- its next step is not delayed for longer either
  have hwait : ∀ moment : Int, moment ≤ moment + delay := by
    intro moment
    exact Int.le_add_of_nonneg_right (Int.natCast_nonneg delay)
  cases hmv with
  | prepare hpc =>
    have hno : th.beginsUp c = false := by simp only [Sender.beginsUp, hpc]
    rw [hpc] at hpaced hsoon hon
    have hnil : b.moments = [] := hpaced
    have hawake : c.clock ≤ b.since + delay := hsoon (by simp)
    rw [hno, if_neg (by simp)]
    refine ⟨fun _ => hwait c.clock, h.dense, h.first, ?_⟩
    refine hon.imp id fun hcreated => ⟨?_, fun _ => ?_⟩
    · rw [hnil]
      exact within_nil
    · rw [← show b.since = b.created from hcreated]
      exact hawake
  | beginPass hpc =>
    rw [hpc] at hsoon hon
    have hawake : c.clock ≤ b.since + delay := hsoon (by simp)
    cases hcl : c.closing with
    | true =>
      have hno : th.beginsUp c = false := by simp only [Sender.beginsUp, hpc, hcl, Bool.not_true]
      rw [hno, if_neg (by simp)]
      exact ⟨fun _ => hwait c.clock, h.dense, h.first, Or.inl hcl⟩
    | false =>
      have hyes : th.beginsUp c = true := by simp only [Sender.beginsUp, hpc, hcl, Bool.not_false]
      obtain ⟨hwithin, hfirst⟩ := hon.resolve_left (Bool.eq_false_iff.mp hcl)
      have hroom := delays_succ (Nat.lt_succ_self (6 + maxPods)) delay
      rw [hyes, if_pos rfl]
      refine ⟨fun _ => hwait c.clock, h.dense.concat (hwithin.mono ?_), fun x hx => ?_,
        Or.inr ⟨?_, by simp⟩⟩
      · unfold Environ.beat
        rw [show 7 + maxPods = Nat.succ (6 + maxPods) by omega]
        omega
      · -- it is the first one, or there was one before
        cases hm : b.moments with
        | nil =>
          have hbegun := hfirst hm
          rw [hm, List.nil_append, List.head?_cons, Option.some.injEq] at hx
          change x ≤ b.created + 2 * delay
          omega
        | cons y ys =>
          rw [hm, List.cons_append, List.head?_cons] at hx
          exact h.first x (by rw [hm]; exact hx)
      · refine within_concat ?_
        change c.clock ≤ c.clock + ((5 + maxPods - (5 + maxPods) : Nat) : Int) * delay
        rw [Nat.sub_self, Int.natCast_zero, Int.zero_mul, Int.add_zero]
  | @woken deadline hpc hw =>
    have hno : th.beginsUp c = false := by simp only [Sender.beginsUp, hpc]
    rw [hpc] at hsoon hon
    have hawake : c.clock ≤ deadline + delay := hsoon (by simp)
    have hroom := delays_succ (Nat.lt_succ_self (5 + maxPods)) delay
    rw [hno, if_neg (by simp)]
    refine ⟨fun _ => hwait c.clock, h.dense, h.first, ?_⟩
    refine hon.imp id fun hsleep => ⟨hsleep.1.mono ?_, fun hnil => absurd hnil hsleep.2⟩
    change c.clock - deadline ≤ _
    rw [show 6 + maxPods = Nat.succ (5 + maxPods) by omega]
    omega
  | acquired hpc hc => exact absurd (by rw [hpc]; trivial) hoff
  | sent hpc hs hc hip => exact absurd (by rw [hpc]; trivial) hoff
  | sendsEnd hpc hc => exact absurd (by rw [hpc]; trivial) hoff
  | reported hpc hc => exact absurd (by rw [hpc]; trivial) hoff
  | toFree hpc hs hc hf => exact absurd (by rw [hpc]; trivial) hoff
  | released hpc hc => exact absurd (by rw [hpc]; trivial) hoff
  | freed hpc hc => exact absurd (by rw [hpc]; trivial) hoff

/-- **A step of the sender.** -/
theorem BeatInv.own (h : BeatInv delay c th b) (hk : PaceInv c th b.moments) (hr : c.Reachable)
    (hs : SenderInv c t th) (hmv : SenderMove c guid enableLogging config t o th c' th') :
    BeatInv delay c' th'
      ⟨b.created, c'.clock,
        if th.beginsUp c = true then b.moments ++ [c.clock] else b.moments⟩ := by
  by_cases hon : th.pc.OnPass
  · have hno : th.beginsUp c = false := by
      unfold Sender.beginsUp
      split
      · rename_i hpc
        rw [hpc] at hon
        exact hon.elim
      · rfl
    rw [hno, if_neg (by simp)]
    exact h.passes hk hr hs hmv hon
  · exact h.begins hk hmv hon

/-- The step of another thread, which leaves the clock alone or is a tick that does not keep the
sender waiting. -/
theorem BeatInv.stays (h : BeatInv delay c th b) (he : c'.environ = c.environ)
    (hsoon : th.pc ≠ .exited → c'.clock ≤ th.pc.nextBy delay b.since)
    (hcl : th.pc ≠ .exited → c.closing = true → c'.closing = true) : BeatInv delay c' th b := by
  refine ⟨hsoon, he ▸ h.dense, h.first, ?_⟩
  rw [he]
  by_cases hexit : th.pc = .exited
  · rw [hexit]
    exact Or.inr trivial
  · exact h.onTime.imp (hcl hexit) id

theorem Environ.beat_pos (e : Environ) (delay : Nat) : 0 < e.beat delay := by
  have hinterval := (getInterval_range e).1
  have hroom : (0 : Int) ≤ (7 + maxPods : Nat) * delay :=
    Int.mul_nonneg (Int.natCast_nonneg _) (Int.natCast_nonneg delay)
  unfold Environ.beat Environ.pace nsPerSecond
  omega

/-- **Wherever it stands**, the last announcement is not too long ago, or it has not begun. -/
theorem BeatInv.within (h : BeatInv delay c th b) (hk : PaceInv c th b.moments)
    (hopen : c.closing = false) (hexit : th.pc ≠ .exited) :
    Within (c.environ.beat delay) b.moments c.clock ∧
      (b.moments = [] → c.clock ≤ b.created + 2 * delay) := by
  have hpaced := hk.paced
  have hsoon := h.soon hexit
  have hon := h.onTime.resolve_left (Bool.eq_false_iff.mp hopen)
  have hmany : ∀ n < 7 + maxPods, (n : Int) * delay + delay ≤ (7 + maxPods : Nat) * delay := by
    intro n hn
    exact delays_succ hn delay
  have hinterval : 0 ≤ c.environ.pace := by
    have hone := (getInterval_range c.environ).1
    unfold Environ.pace nsPerSecond
    omega
  unfold Environ.beat
  by_cases hpass : th.pc.OnPass
  · rw [hpass.nextBy] at hsoon
    rw [SenderPc.onTime_onPass hpass] at hon
    obtain ⟨hwithin, hne⟩ := hon
    refine ⟨hwithin.mono ?_, fun hnil => absurd hnil hne⟩
    have hroom := hmany (5 + maxPods - th.pc.passLeft) (by omega)
    omega
  · cases hpc : th.pc with
    | start =>
      rw [hpc] at hpaced hsoon hon
      have hnil : b.moments = [] := hpaced
      have hawake : c.clock ≤ b.since + delay := hsoon
      have hcreated : b.since = b.created := hon
      refine ⟨hnil ▸ within_nil, fun _ => ?_⟩
      omega
    | check =>
      rw [hpc] at hsoon hon
      obtain ⟨hwithin, hfirst⟩ := hon
      have hawake : c.clock ≤ b.since + delay := hsoon
      have hroom := hmany (6 + maxPods) (by omega)
      refine ⟨hwithin.mono ?_, fun hnil => ?_⟩
      · omega
      · have hbegun := hfirst hnil
        omega
    | sleeping deadline =>
      rw [hpc] at hsoon hon
      obtain ⟨hwithin, hne⟩ := hon
      have hawake : c.clock ≤ deadline + delay := hsoon
      have hroom := hmany (5 + maxPods) (by omega)
      refine ⟨hwithin.mono ?_, fun hnil => absurd hnil hne⟩
      omega
    | exited => exact absurd hpc hexit
    | _ =>
      rw [hpc] at hpass
      exact absurd trivial hpass

end Sender

section Runs

variable {t delay : Nat} {s s' : System} {b : Beats} {e : Environ} {clock : Int} {config : Config}

/-- The moments agree with the sender, if there is one. -/
structure BeatsKept (t delay : Nat) (e : Environ) (s : System) (b : Beats) : Prop where
  pace : PaceKept t e s b.moments
  kept : ∀ th, s.senders[t]? = some th → BeatInv delay s.cache th b

theorem BeatsKept.step (h : BeatsKept t delay e s b) (hr : s.Reachable) {a : Act}
    (hok : Prompt t delay (s, b) a) (hst : s.step a = some s') :
    BeatsKept t delay e s' (s.beatsAfter t a s' b) := by
  have hmv := System.move_of_step hst
  have he := hmv.environ hr.cache.inv
  have hpace := h.pace.step hr hst
  refine ⟨hpace, fun th' hth' => ?_⟩
  cases hth : s.senders[t]? with
  | none =>
    -- it has just been created
    have hnil : s.upsAfter t a b.moments = [] := by
      unfold System.upsAfter
      rw [hth, if_neg (by simp)]
      exact h.pace.none hth
    obtain ⟨-, a', rfl⟩ := hmv.new_sender (List.getElem?_eq_none_iff.mp hth) hth'
    unfold System.beatsAfter
    rw [hnil, hth, if_pos rfl, if_pos (Or.inl rfl)]
    refine ⟨fun _ => ?_, dense_nil, fun x hx => absurd hx (by simp), Or.inr rfl⟩
    exact Int.le_add_of_nonneg_right (Int.natCast_nonneg delay)
  | some th =>
    have hi := h.kept th hth
    obtain ⟨th1, hth1, hor⟩ := hmv.sender_cases hth
    obtain rfl : th1 = th' := Option.some.inj (hth1.symm.trans hth')
    have hcl : th.pc ≠ .exited → s.cache.closing = true → s'.cache.closing = true := by
      intro hpc hset
      exact hr.closing_kept hst (fun hclosed =>
        hpc (hclosed.senders th (List.mem_of_getElem? hth)).1) hset
    have hstays : a.ofSender t = false → BeatInv delay s'.cache th (s.beatsAfter t a s' b) := by
      intro hact
      have hafter : s.beatsAfter t a s' b = b := by
        unfold System.beatsAfter System.upsAfter
        rw [hth, hact]
        simp
      rw [hafter]
      refine hi.stays he (fun hpc => ?_) hcl
      by_cases htick : ∃ ns, a = .tick ns
      · obtain ⟨ns, rfl⟩ := htick
        cases hmv with
        | tick => exact hok th hth hpc
        | refresher hb hc ha => exact ha.elim
        | cleanup hm hl ha => exact ha.elim
      · rw [hr.clock_kept (fun ns hns => htick ⟨ns, hns⟩) hst]
        exact hi.soon hpc
    cases hact : a.ofSender t with
    | false =>
      rcases hor with rfl | ⟨n, rfl⟩ | ⟨o, rfl, -⟩
      · exact hstays hact
      · have hi' := hstays hact
        exact ⟨hi'.soon, hi'.dense, hi'.first, hi'.onTime⟩
      · exact absurd hact (by simp [Act.ofSender])
    | true =>
      cases a with
      | sender u o =>
        obtain rfl : u = t := by simpa [Act.ofSender] using hact
        cases hmv with
        | @sender u o thu c' th2 hu hown =>
          obtain rfl : thu = th := Option.some.inj (hu.symm.trans hth)
          obtain rfl : th2 = th1 :=
            Option.some.inj ((List.getElem?_set_eq hu th2).symm.trans hth1)
          have hafter : s.beatsAfter u (.sender u o)
              { s with cache := c', senders := s.senders.set u th2 } b =
              ⟨b.created, c'.clock, if thu.beginsUp s.cache = true then b.moments ++ [s.cache.clock]
                else b.moments⟩ := by
            unfold System.beatsAfter System.upsAfter
            rw [hth, hact]
            simp
          rw [hafter]
          exact hi.own (h.pace.kept thu hth) hr.cache (hr.senders.sender u thu hu) hown
        | refresher hb hc ha => exact ha.elim
        | cleanup hm hl ha => exact ha.elim
      | _ => exact absurd hact (by simp [Act.ofSender])

theorem beatsKept_of_run
    (hr : Lts.Run (System.beatStep t) (Prompt t delay)
      (System.init e clock config, ⟨clock, clock, []⟩) (s, b)) : BeatsKept t delay e s b := by
  have hall : s.Reachable ∧ BeatsKept t delay e s b := by
    refine hr.invariant (I := fun x => x.1.Reachable ∧ BeatsKept t delay e x.1 x.2)
      ⟨Lts.Reachable.of_init ⟨e, clock, config, rfl⟩,
        ⟨rfl, fun th hth => absurd hth (by simp [System.init]), fun _ => rfl⟩,
        fun th hth => absurd hth (by simp [System.init])⟩ ?_
    rintro ⟨u, bu⟩ a ⟨v, bv⟩ ⟨hu, hk⟩ hok hst
    obtain ⟨v1, hv, heq⟩ := Option.map_eq_some_iff.mp hst
    obtain ⟨rfl, rfl⟩ := Prod.mk.inj heq
    exact ⟨hu.next hv, hk.step hu hok hv⟩
  exact hall.2

end Runs

/-- **No announcement is late**, in any run in which the sender is not kept waiting for longer than
`delay`, whatever the other threads do and whatever comes of its sends.  Its `up` passes begin no
further apart than the interval and `7 + MAX_PODS` delays; and as long as nobody closes the module,
every stretch of that length since it was created, but for its first two steps, has one. -/
theorem announcements_on_time (t delay : Nat) (e : Environ) (clock : Int) (config : Config)
    (s : System) (b : Beats)
    (hr : Lts.Run (System.beatStep t) (Prompt t delay)
      (System.init e clock config, ⟨clock, clock, []⟩) (s, b))
    (th : Sender) (hth : s.senders[t]? = some th) :
    b.moments.length = th.ups ∧
    Dense (e.getInterval * nsPerSecond + (7 + maxPods : Nat) * delay) b.moments ∧
    (s.cache.closing = false → th.pc ≠ .exited → ∀ start : Int, b.created + 2 * delay ≤ start →
      start + (e.getInterval * nsPerSecond + (7 + maxPods : Nat) * delay) ≤ s.cache.clock →
        ∃ x ∈ b.moments, start ≤ x ∧
          x ≤ start + (e.getInterval * nsPerSecond + (7 + maxPods : Nat) * delay)) := by
  have hall := beatsKept_of_run hr
  have hk := hall.pace.kept th hth
  have h := hall.kept th hth
  obtain rfl := hall.pace.environ
  refine ⟨hk.ups, h.dense, fun hopen hexit start hstart hstop => ?_⟩
  obtain ⟨hwithin, hbegun⟩ := h.within hk hopen hexit
  have hbeat := s.cache.environ.beat_pos delay
  have hend : start + s.cache.environ.beat delay ≤ s.cache.clock := hstop
  cases hm : b.moments with
  | nil =>
    -- it has had no time for one
    have hnone := hbegun hm
    omega
  | cons x rest =>
    have hhead : b.moments.head? = some x := by rw [hm, List.head?_cons]
    rw [← hm]
    have hbefore := (h.first x hhead).trans hstart
    exact h.dense.exists_mem (Int.le_of_lt hbeat) hwithin hhead hbefore hend

/-- Two passes of a sender that is never kept waiting, at the default interval of one second. -/
theorem announcements_on_time_twice :
    ∃ (s : System) (th : Sender), s.senders[0]? = some th ∧ th.ups = 2 ∧
      Dense (1 * nsPerSecond + (7 + maxPods : Nat) * (0 : Nat)) [0, 1000000000] := by
  have hview : (Lts.execIf (System.beatStep 0) (fun x a =>
      match a with
      | .tick ns => x.1.senders[0]?.all fun th => x.1.cache.clock + ns ≤ th.pc.nextBy 0 x.2.since
      | _ => true) (System.init {} 0 (portsConfig (ascii "6379") (ascii "0")), ⟨0, 0, []⟩)
      (startUp ++ refreshRound ++ senderOk :: passOverOne ++
        .tick 1000000000 :: senderOk :: passOverOne)).map
        (fun x => (x.1.senders.length, x.2.moments)) =
        some (1, [0, 1000000000]) := by decide +kernel
  obtain ⟨⟨s, b⟩, hs, hbook⟩ := Option.map_eq_some_iff.mp hview
  obtain ⟨hlen, hmoments⟩ := Prod.mk.inj hbook
  obtain ⟨th, hth⟩ : ∃ th, s.senders[0]? = some th :=
    ⟨_, List.getElem?_eq_getElem (hlen ▸ Nat.one_pos)⟩
  obtain ⟨hups, hdense, -⟩ := announcements_on_time 0 0 {} 0 _ s b
    (Lts.run_of_execIf (fun x a ha => by
      cases a with
      | tick ns =>
        intro th hth _
        rw [hth] at ha
        exact of_decide_eq_true ha
      | _ => trivial) hs) th hth
  rw [show b.moments = [0, 1000000000] from hmoments] at hups hdense
  exact ⟨s, th, hth, hups.symm, hdense⟩

/-! ## 3. The requests -/

/-- The steps the refresher has at most still to take from the end of its request to its sleep. -/
def RefresherPc.toSleep : RefresherPc → Nat
  | .fetched _ _ => 6
  | .publishing _ => 5
  | .swapping _ _ => 4
  | .releasing _ => 3
  | .freeing _ => 2
  | .succeeded => 1
  | .failed _ => 3
  | .judging _ _ => 2
  | .reporting _ _ _ => 1
  | _ => 0

/-- The action is a step of the refresher. -/
def Act.ofRefresher : Act → Bool
  | .refresher => true
  | .fetchEnds _ => true
  | .publishAlloc _ => true
  | _ => false

/-- When the refresher was created, when it took its last step, and when its requests began. -/
def System.requestBeatsAfter (s : System) (a : Act) (s' : System) (b : Beats) : Beats where
  created := if s.cache.refresher.isNone = true then s'.cache.clock else b.created
  since :=
    if s.cache.refresher.isNone = true ∨ a.ofRefresher = true then s'.cache.clock else b.since
  moments := s.cache.requestsAfter s'.cache b.moments

/-- A step of the system, with these moments. -/
def System.requestBeatStep (x : System × Beats) (a : Act) : Option (System × Beats) :=
  (x.1.step a).map fun s' => (s', x.1.requestBeatsAfter a s' x.2)

/-- By when the refresher takes its next step; a request is over when it times out. -/
def Refresher.nextBy (delay : Nat) (since : Int) (th : Refresher) : Int :=
  match th.pc with
  | .fetching startedAt => startedAt + th.timeout * nsPerSecond + delay
  | .sleeping deadline => deadline + delay
  | _ => since + delay

/-- **The refresher is not kept waiting for longer than `delay`**, and libcurl keeps to its
timeout. -/
def RefresherPrompt (delay : Nat) (x : System × Beats) : Act → Prop
  | .tick ns => ∀ th, x.1.cache.refresher = some th → th.pc ≠ .exited →
      x.1.cache.clock + ns ≤ th.nextBy delay x.2.since
  | _ => True

/-- The nanoseconds of a request that times out. -/
def Environ.longRequest (e : Environ) : Int := e.getPodsTimeout * nsPerSecond

/-- The nanoseconds of the longest sleep. -/
def Environ.longSleep (e : Environ) : Int := max e.getPodsRefresh maxRetryDelay * nsPerSecond

/-- The longest stretch without a request. -/
def Environ.requestBeat (e : Environ) (delay : Nat) : Int :=
  e.longRequest + e.longSleep + (9 : Nat) * delay

/-- Where the refresher stands it is no later than the steps it has taken allow. -/
def RefresherPc.OnTime (e : Environ) (delay : Nat) (b : Beats) : RefresherPc → Prop
  | .check => Within (e.longRequest + e.longSleep + (8 : Nat) * delay) b.moments b.since ∧
      (b.moments = [] → b.since = b.created)
  | .fetching startedAt => b.moments.getLast? = some startedAt
  | .sleeping deadline =>
      Within (e.longRequest + e.longSleep + (7 : Nat) * delay) b.moments deadline ∧ b.moments ≠ []
  | .exited => True
  | pc => Within (e.longRequest + (7 - pc.toSleep : Nat) * delay) b.moments b.since ∧ b.moments ≠ []

/-- **What holds of a refresher that is not kept waiting.** -/
structure RequestBeatInv (delay : Nat) (c : PodCache) (th : Refresher) (b : Beats) : Prop where
  soon : th.pc ≠ .exited → c.clock ≤ th.nextBy delay b.since
  dense : Dense (c.environ.requestBeat delay) b.moments
  first : ∀ x, b.moments.head? = some x → x ≤ b.created + delay
  onTime : c.closing = true ∨ th.pc.OnTime c.environ delay b
  timeout : th.timeout = c.environ.getPodsTimeout

section Refresher

variable {c c' : PodCache} {th th' : Refresher} {delay : Nat} {b : Beats}

theorem RefresherPc.onTime_inRound {pc : RefresherPc} (hround : pc.toSleep ≠ 0) (e : Environ)
    (delay : Nat) (b : Beats) :
    pc.OnTime e delay b ↔
      Within (e.longRequest + (7 - pc.toSleep : Nat) * delay) b.moments b.since ∧
        b.moments ≠ [] := by
  cases pc with
  | check => exact absurd rfl hround
  | fetching startedAt => exact absurd rfl hround
  | sleeping deadline => exact absurd rfl hround
  | exited => exact absurd rfl hround
  | _ => exact Iff.rfl

theorem Refresher.nextBy_inRound (hround : th.pc.toSleep ≠ 0) (delay : Nat) (since : Int) :
    th.nextBy delay since = since + delay := by
  unfold Refresher.nextBy
  split
  · rename_i hpc
    rw [hpc] at hround
    exact absurd rfl hround
  · rename_i hpc
    rw [hpc] at hround
    exact absurd rfl hround
  · rfl

theorem RefresherPc.toSleep_le (pc : RefresherPc) : pc.toSleep ≤ 6 := by
  cases pc <;> simp only [RefresherPc.toSleep] <;> omega

/-- Where a step within a round leads: on in the round, out of the loop, or to the sleep. -/
inductive RoundGoesOn (e : Environ) (clock : Int) (th th' : Refresher) : Prop where
  | closer (hround : th'.pc.toSleep ≠ 0) (hlt : th'.pc.toSleep < th.pc.toSleep)
  | leaves (hpc : th'.pc = .exited)
  | sleeps {time : Int} (hpc : th'.pc = .sleeping (clock + time)) (hpos : 0 ≤ time)
      (hle : time ≤ e.longSleep)

theorem Environ.refresh_le_longSleep (e : Environ) :
    0 ≤ e.getPodsRefresh * nsPerSecond ∧ e.getPodsRefresh * nsPerSecond ≤ e.longSleep := by
  have hrange := (getPodsRefresh_range e).1
  have hns : (0 : Int) ≤ nsPerSecond := by decide
  exact ⟨Int.mul_nonneg (by omega) hns, Int.mul_le_mul_of_nonneg_right (le_max_left _ _) hns⟩

/-- Behind a failure it sleeps no longer than the longest sleep. -/
theorem Environ.nextDelay_le_longSleep (e : Environ) {failures : Int} (h : 0 ≤ failures) :
    0 ≤ nextDelay e.getPodsRefresh (failures + 1) * nsPerSecond ∧
      nextDelay e.getPodsRefresh (failures + 1) * nsPerSecond ≤ e.longSleep := by
  have hrange := (getPodsRefresh_range e).1
  have hlow := le_nextDelay e h
  have hns : (0 : Int) ≤ nsPerSecond := by decide
  obtain ⟨k, rfl⟩ := Int.eq_ofNat_of_zero_le h
  refine ⟨Int.mul_nonneg (by omega) hns, Int.mul_le_mul_of_nonneg_right ?_ hns⟩
  rw [nextDelay_succ (by omega)]
  exact retryDelay_le _ k

theorem endFailure_timeout {error : Text} {now : Int} {expired : Bool}
    (h : (c.endFailure th error now expired).refresher = some th') : th'.timeout = th.timeout := by
  unfold PodCache.endFailure at h
  dsimp only at h
  split at h
  · rw [← Option.some.inj h]
  · split at h <;> rw [← Option.some.inj h]

/-- **A step within a round.** -/
theorem RefresherMove.from_round (hmv : RefresherMove c th c') (hi : CacheInv c)
    {moments : List Int} (hk : th.InPace c moments) (hround : th.pc.toSleep ≠ 0) :
    ∃ th', c'.refresher = some th' ∧ th'.timeout = th.timeout ∧
      RoundGoesOn c.environ c.clock th th' := by
  have hquick := c.environ.refresh_le_longSleep
  have hslow := c.environ.nextDelay_le_longSleep hk.failures
  rw [← hk.refresh] at hquick hslow
  cases hmv with
  | leave hpc hcl =>
    rw [hpc] at hround
    exact absurd rfl hround
  | request hpc hcl =>
    rw [hpc] at hround
    exact absurd rfl hround
  | wake hpc hend =>
    rw [hpc] at hround
    exact absurd rfl hround
  | giveUp hpc hcl => exact ⟨_, rfl, rfl, .leaves rfl⟩
  | discard hpc hcl => exact ⟨_, rfl, rfl, .leaves rfl⟩
  | succeed hpc => exact ⟨_, rfl, rfl, .sleeps rfl hquick.1 hquick.2⟩
  | @report error now expired hpc =>
    obtain ⟨log, th', heq, hpc', -⟩ := hi.endFailure_eq th error now expired
    have hth' : (c.endFailure th error now expired).refresher = some th' := by rw [heq]
    exact ⟨th', hth', endFailure_timeout hth', .sleeps hpc' hslow.1 hslow.2⟩
  | _ =>
    refine ⟨_, rfl, rfl, .closer (by simp [RefresherPc.toSleep]) ?_⟩
    rw [‹th.pc = _›]
    simp [RefresherPc.toSleep]

/-- A step of its own, as far as it is none of the clock or of the flag. -/
structure OwnStep (c c' : PodCache) : Prop where
  environ : c'.environ = c.environ
  clock : c'.clock = c.clock
  closing : c'.closing = c.closing

/-- **The round goes on**, and no request begins. -/
theorem RequestBeatInv.goesOn (h : RequestBeatInv delay c th b) (hown : OwnStep c c')
    (hround : th.pc.toSleep ≠ 0) (htimeout : th'.timeout = th.timeout)
    (hnext : RoundGoesOn c.environ c.clock th th') :
    RequestBeatInv delay c' th' ⟨b.created, c'.clock, b.moments⟩ := by
  obtain ⟨he, hclock, hcl⟩ := hown
  have hexit : th.pc ≠ .exited := by
    intro hno
    rw [hno] at hround
    exact hround rfl
  have hsoon := h.soon hexit
  rw [Refresher.nextBy_inRound hround] at hsoon
  have hle := th.pc.toSleep_le
  constructor
  · intro hgoes
    cases hnext with
    | closer hround' hlt =>
      rw [Refresher.nextBy_inRound hround']
      exact Int.le_add_of_nonneg_right (Int.natCast_nonneg delay)
    | leaves hpc => exact absurd hpc hgoes
    | sleeps hpc hpos hmost =>
      simp only [Refresher.nextBy, hpc]
      omega
  · rw [he]
    exact h.dense
  · exact h.first
  · rcases h.onTime with hset | hon
    · exact Or.inl (hcl.trans hset)
    · refine Or.inr ?_
      rw [RefresherPc.onTime_inRound hround] at hon
      obtain ⟨hwithin, hne⟩ := hon
      cases hnext with
      | closer hround' hlt =>
        rw [RefresherPc.onTime_inRound hround', he]
        refine ⟨hwithin.mono ?_, hne⟩
        have hroom := delays_succ
          (show 7 - th.pc.toSleep < 7 - th'.pc.toSleep by omega) delay
        change c'.clock - b.since ≤ _
        omega
      | leaves hpc =>
        rw [hpc]
        trivial
      | @sleeps time hpc hpos hmost =>
        rw [hpc, he]
        refine ⟨hwithin.mono ?_, hne⟩
        have hroom := delays_succ (show 7 - th.pc.toSleep < 7 by omega) delay
        omega
  · rw [he]
    exact htimeout.trans h.timeout

/-- **Its request is over.** -/
theorem RequestBeatInv.answered (h : RequestBeatInv delay c th b) (hown : OwnStep c c')
    {startedAt : Int} (hpc : th.pc = .fetching startedAt) (htimeout : th'.timeout = th.timeout)
    {pods : Option Nat} {error : Text} (hpc' : th'.pc = .fetched pods error) :
    RequestBeatInv delay c' th' ⟨b.created, c'.clock, b.moments⟩ := by
  obtain ⟨he, hclock, hcl⟩ := hown
  have hsoon : c.clock ≤ startedAt + th.timeout * nsPerSecond + delay := by
    have hby := h.soon (by simp [hpc])
    simpa only [Refresher.nextBy, hpc] using hby
  refine ⟨fun _ => ?_, he ▸ h.dense, h.first, ?_, (htimeout.trans h.timeout).trans (by rw [he])⟩
  · simp only [Refresher.nextBy, hpc']
    omega
  · refine h.onTime.imp hcl.trans fun hon => ?_
    rw [hpc] at hon
    have hlast : b.moments.getLast? = some startedAt := hon
    rw [hpc', he]
    refine ⟨fun x hx => ?_, fun hnil => ?_⟩
    · obtain rfl : startedAt = x := Option.some.inj (hlast.symm.trans hx)
      rw [h.timeout] at hsoon
      change c'.clock ≤ startedAt + (c.environ.longRequest + ((7 - 6 : Nat) : Int) * delay)
      unfold Environ.longRequest
      omega
    · have hno : b.moments = [] := hnil
      rw [hno] at hlast
      exact absurd hlast (by simp)

/-- **A step outside a round**: it leaves, it begins a request, or it wakes up. -/
theorem RequestBeatInv.begins (h : RequestBeatInv delay c th b) (hth : c.refresher = some th)
    (hmv : RefresherMove c th c') (hout : th.pc.toSleep = 0) :
    ∃ th', c'.refresher = some th' ∧
      RequestBeatInv delay c' th' ⟨b.created, c'.clock, c.requestsAfter c' b.moments⟩ := by
  have hsoon := h.soon
  have hon := h.onTime
  have htimeout := h.timeout
  unfold Refresher.nextBy at hsoon
  have hwait : ∀ moment : Int, moment ≤ moment + delay := by
    intro moment
    exact Int.le_add_of_nonneg_right (Int.natCast_nonneg delay)
  cases hmv with
  | leave hpc hcl =>
    refine ⟨_, rfl, ?_⟩
    rw [requestsAfter_quiet hth rfl (Or.inr (by simp))]
    exact ⟨fun hno => absurd rfl hno, h.dense, h.first, Or.inr trivial, htimeout⟩
  | request hpc hcl =>
    have hafter :
        c.requestsAfter (c.goto { th with answer := none } (.fetching c.clock)) b.moments =
          b.moments ++ [c.clock] := by
      unfold PodCache.requestsAfter
      simp only [PodCache.goto, hth, hpc]
    rw [hpc] at hsoon hon
    have hawake : c.clock ≤ b.since + delay := hsoon (by simp)
    obtain ⟨hwithin, hfirst⟩ := hon.resolve_left (Bool.eq_false_iff.mp hcl)
    have hroom := delays_succ (Nat.lt_succ_self 8) delay
    have hdense : Dense (c.environ.requestBeat delay) (b.moments ++ [c.clock]) := by
      refine h.dense.concat (hwithin.mono ?_)
      unfold Environ.requestBeat
      omega
    refine ⟨_, rfl, ?_⟩
    rw [hafter]
    refine ⟨fun _ => ?_, hdense, fun x hx => ?_, Or.inr List.getLast?_concat, htimeout⟩
    · have htime : 0 ≤ th.timeout * nsPerSecond := by
        rw [htimeout]
        exact Int.mul_nonneg (by have := (getPodsTimeout_range c.environ).1; omega) (by decide)
      change c.clock ≤ c.clock + th.timeout * nsPerSecond + delay
      omega
    · -- it is the first one, or there was one before
      cases hm : b.moments with
      | nil =>
        have hcreated := hfirst hm
        rw [hm, List.nil_append, List.head?_cons, Option.some.injEq] at hx
        change x ≤ b.created + delay
        omega
      | cons y ys =>
        rw [hm, List.cons_append, List.head?_cons] at hx
        exact h.first x (by rw [hm]; exact hx)
  | @wake deadline hpc hend =>
    rw [hpc] at hsoon hon
    have hawake : c.clock ≤ deadline + delay := hsoon (by simp)
    have hroom := delays_succ (Nat.lt_succ_self 7) delay
    refine ⟨_, rfl, ?_⟩
    rw [requestsAfter_quiet hth rfl (Or.inl (by simp [hpc]))]
    refine ⟨fun _ => hwait c.clock, h.dense, h.first, ?_, htimeout⟩
    refine hon.imp id fun hsleep => ⟨hsleep.1.mono ?_, fun hnil => absurd hnil hsleep.2⟩
    change c.clock - deadline ≤ c.environ.longRequest + c.environ.longSleep + (8 : Nat) * delay -
      (c.environ.longRequest + c.environ.longSleep + (7 : Nat) * delay)
    omega
  | _ =>
    rw [‹th.pc = _›] at hout
    exact absurd hout (by simp [RefresherPc.toSleep])

/-- **A step of the refresher**, or the end of what it waits for. -/
theorem RequestBeatInv.own (h : RequestBeatInv delay c th b) (hk : th.InPace c b.moments)
    (hi : CacheInv c) (hth : c.refresher = some th) {a : CacheAct} (ha : a.OfRefresher)
    (hst : c.step a = some c') :
    ∃ th', c'.refresher = some th' ∧
      RequestBeatInv delay c' th' ⟨b.created, c'.clock, c.requestsAfter c' b.moments⟩ := by
  have hframe := (hi.refresher_step ha hst).2.2
  have hown : OwnStep c c' := ⟨hframe.environ, hframe.clock, hframe.closing⟩
  -- no request begins where the refresher is not at the head of its loop
  have hquiet : ∀ {th₁ : Refresher}, c'.refresher = some th₁ → th.pc ≠ .check →
      c.requestsAfter c' b.moments = b.moments := by
    intro th₁ hth₁ hpc
    exact requestsAfter_quiet hth hth₁ (Or.inl hpc)
  cases hi.move_of_step hst with
  | @refresher th₀ c' hth₀ hmv =>
    obtain rfl : th₀ = th := Option.some.inj (hth₀.symm.trans hth)
    by_cases hround : th₀.pc.toSleep = 0
    · exact h.begins hth hmv hround
    · obtain ⟨th', hth', htimeout, hnext⟩ := hmv.from_round hi hk hround
      refine ⟨th', hth', ?_⟩
      rw [hquiet hth' (by
        intro hno
        rw [hno] at hround
        exact hround rfl)]
      exact h.goesOn hown hround htimeout hnext
  | fetched hth₀ hpc hok =>
    obtain rfl := Option.some.inj (hth₀.symm.trans hth)
    refine ⟨_, rfl, ?_⟩
    rw [hquiet rfl (by simp [hpc])]
    exact h.answered hown hpc rfl rfl
  | fetchFailed hth₀ hpc hno =>
    obtain rfl := Option.some.inj (hth₀.symm.trans hth)
    refine ⟨_, rfl, ?_⟩
    rw [hquiet rfl (by simp [hpc])]
    exact h.answered hown hpc rfl rfl
  | allocated hth₀ hpc =>
    obtain rfl := Option.some.inj (hth₀.symm.trans hth)
    refine ⟨_, rfl, ?_⟩
    rw [hquiet rfl (by simp [hpc])]
    exact h.goesOn hown (by simp [hpc, RefresherPc.toSleep]) rfl
      (.closer (by simp [RefresherPc.toSleep]) (by simp [hpc, RefresherPc.toSleep]))
  | outOfMemory hth₀ hpc =>
    obtain rfl := Option.some.inj (hth₀.symm.trans hth)
    refine ⟨_, rfl, ?_⟩
    rw [hquiet rfl (by simp [hpc])]
    exact h.goesOn hown (by simp [hpc, RefresherPc.toSleep]) rfl
      (.closer (by simp [RefresherPc.toSleep]) (by simp [hpc, RefresherPc.toSleep]))
  | _ => exact ha.elim

/-- The step of another thread. -/
theorem RequestBeatInv.stays (h : RequestBeatInv delay c th b) (he : c'.environ = c.environ)
    (hsoon : th.pc ≠ .exited → c'.clock ≤ th.nextBy delay b.since)
    (hcl : c.closing = true → c'.closing = true) : RequestBeatInv delay c' th b := by
  refine ⟨hsoon, he ▸ h.dense, h.first, ?_, h.timeout.trans (by rw [he])⟩
  rw [he]
  exact h.onTime.imp hcl id

/-- The refresher `pod_cache_start` has just created. -/
theorem RequestBeatInv.fresh (c : PodCache) (delay : Nat) :
    RequestBeatInv delay c (Refresher.create c.environ) ⟨c.clock, c.clock, []⟩ := by
  refine ⟨fun _ => ?_, dense_nil, fun x hx => absurd hx (by simp), Or.inr ?_, rfl⟩
  · exact Int.le_add_of_nonneg_right (Int.natCast_nonneg delay)
  · exact ⟨within_nil, fun _ => rfl⟩

/-- Whoever else takes a step leaves the refresher alone, joins it or creates it. -/
theorem CacheInv.refresher_cases (h : CacheInv c) {a : CacheAct} (ha : ¬ a.OfRefresher)
    (hst : c.step a = some c') :
    c'.refresher = c.refresher ∨ c'.refresher = none ∨
      c.refresher = none ∧ c'.refresher = some (Refresher.create c.environ) := by
  cases h.move_of_step hst with
  | start hs hmv =>
    cases hmv with
    | started hrun =>
      have hnone : c.refresher = none := by simpa [h.running] using hrun
      exact Or.inr (Or.inr ⟨hnone, rfl⟩)
    | _ => exact Or.inl rfl
  | stop hmv =>
    obtain ⟨-, hsame | hnone, -⟩ := hmv.frame
    · exact Or.inl hsame
    · exact Or.inr (Or.inl hnone)
  | refresher hth hmv => exact absurd trivial ha
  | fetched hth hpc hok => exact absurd trivial ha
  | fetchFailed hth hpc hno => exact absurd trivial ha
  | allocated hth hpc => exact absurd trivial ha
  | outOfMemory hth hpc => exact absurd trivial ha
  | _ => exact Or.inl rfl

/-- **Wherever it stands**, the last request is not too long ago, or it has not begun. -/
theorem RequestBeatInv.within (h : RequestBeatInv delay c th b) (hopen : c.closing = false)
    (hexit : th.pc ≠ .exited) :
    Within (c.environ.requestBeat delay) b.moments c.clock ∧
      (b.moments = [] → c.clock ≤ b.created + delay) := by
  have hsoon := h.soon hexit
  have hon := h.onTime.resolve_left (Bool.eq_false_iff.mp hopen)
  have hsleep : 0 ≤ c.environ.longSleep := by
    have hle := c.environ.refresh_le_longSleep
    omega
  have hle := th.pc.toSleep_le
  unfold Environ.requestBeat
  by_cases hround : th.pc.toSleep = 0
  · unfold Refresher.nextBy at hsoon
    cases hpc : th.pc with
    | check =>
      rw [hpc] at hsoon hon
      obtain ⟨hwithin, hfirst⟩ := hon
      have hawake : c.clock ≤ b.since + delay := hsoon
      refine ⟨hwithin.mono (by omega), fun hnil => ?_⟩
      have hcreated := hfirst hnil
      omega
    | fetching startedAt =>
      rw [hpc] at hsoon hon
      have hlast : b.moments.getLast? = some startedAt := hon
      have hawake : c.clock ≤ startedAt + th.timeout * nsPerSecond + delay := hsoon
      rw [h.timeout] at hawake
      refine ⟨fun x hx => ?_, fun hnil => ?_⟩
      · obtain rfl : startedAt = x := Option.some.inj (hlast.symm.trans hx)
        unfold Environ.longRequest
        omega
      · rw [hnil] at hlast
        exact absurd hlast (by simp)
    | sleeping deadline =>
      rw [hpc] at hsoon hon
      obtain ⟨hwithin, hne⟩ := hon
      have hawake : c.clock ≤ deadline + delay := hsoon
      exact ⟨hwithin.mono (by omega), fun hnil => absurd hnil hne⟩
    | exited => exact absurd hpc hexit
    | _ =>
      rw [hpc] at hround
      exact absurd hround (by simp [RefresherPc.toSleep])
  · rw [Refresher.nextBy_inRound hround] at hsoon
    rw [RefresherPc.onTime_inRound hround] at hon
    obtain ⟨hwithin, hne⟩ := hon
    have hroom := delays_succ (show 7 - th.pc.toSleep < 9 by omega) delay
    exact ⟨hwithin.mono (by omega), fun hnil => absurd hnil hne⟩

theorem Environ.requestBeat_pos (e : Environ) (delay : Nat) : 0 < e.requestBeat delay := by
  have hsleep := e.refresh_le_longSleep
  have htimeout := (getPodsTimeout_range e).1
  unfold Environ.requestBeat Environ.longRequest nsPerSecond
  omega

end Refresher

section Runs

variable {delay : Nat} {s s' : System} {a : Act} {b : Beats} {e : Environ} {clock : Int}
  {config : Config}

theorem Act.OfRefresher.ofRefresher (h : a.OfRefresher) : a.ofRefresher = true := by
  cases a with
  | refresher => rfl
  | fetchEnds x => rfl
  | publishAlloc ok => rfl
  | _ => exact h.elim

/-- A step of the refresher is one of the cache. -/
theorem Move.of_refresher (h : Move s a s') (ha : a.ofRefresher = true) :
    ∃ x c', x.OfRefresher ∧ s.cache.step x = some c' ∧ s' = { s with cache := c' } := by
  cases h with
  | refresher hb hc ha' => exact ⟨_, _, hb, hc, rfl⟩
  | cleanup hm hl ha' =>
    cases a with
    | shutdown => exact absurd ha (by simp [Act.ofRefresher])
    | unload => exact absurd ha (by simp [Act.ofRefresher])
    | _ => exact ha'.elim
  | _ => exact absurd ha (by simp [Act.ofRefresher])

/-- Whoever else takes a step of the system leaves the refresher alone, joins it or creates it. -/
theorem Move.refresher_cases (h : Move s a s') (hi : CacheInv s.cache)
    (ha : a.ofRefresher = false) :
    s'.cache.refresher = s.cache.refresher ∨ s'.cache.refresher = none ∨
      s.cache.refresher = none ∧ s'.cache.refresher = some (Refresher.create s.cache.environ) := by
  cases h with
  | refresher hb hc ha' => exact absurd (ha'.ofRefresher.symm.trans ha) (by simp)
  | sender hth hmv =>
    rcases hmv.cache with rfl | ⟨x, hx, hc⟩
    · exact Or.inl rfl
    · exact Or.inl (hi.reader_step hx hc).2.2.1
  | cron hm hhook hcron =>
    rcases cronBroadcastOnce_eq hcron with rfl | ⟨-, -, c', hc, ⟨-, rfl⟩ | ⟨-, rfl⟩⟩
    · exact Or.inl rfl
    · exact hi.refresher_cases id hc
    · rw [sendUdpMessage_cache]
      exact hi.refresher_cases id hc
  | main hmain =>
    rcases mainStep_eq hmain with ⟨-, rfl⟩ | ⟨ifa, todo, -, rfl⟩ | ⟨i, caller, s₁, -, -, hj, rfl⟩ |
      ⟨i, caller, -, -, rfl⟩ | ⟨caller, c', -, hc, rfl⟩
    · exact Or.inl rfl
    · refine Or.inl ?_
      rcases spawnStep_eq s ifa _ with heq | heq | ⟨x, slots, -, -, -, heq⟩ <;> rw [heq]
    · refine Or.inl ?_
      rcases joinStep_eq hj with ⟨rfl, -⟩ | ⟨t, th, -, -, -, rfl⟩ <;> rfl
    · exact Or.inl rfl
    · have hcases := hi.refresher_cases id hc
      split
      · cases caller <;> exact hcases
      · exact hcases
  | _ => exact Or.inl rfl

/-- The moments agree with the refresher, if there is one. -/
structure RequestBeatsKept (delay : Nat) (e : Environ) (s : System) (b : Beats) : Prop where
  environ : s.cache.environ = e
  pace : RequestsInv s.cache b.moments
  kept : ∀ th, s.cache.refresher = some th → RequestBeatInv delay s.cache th b

/-- The flag is not lowered while there is a refresher. -/
theorem System.Reachable.closing_while_refreshing (h : s.Reachable) (hst : s.step a = some s')
    (hth : s.cache.refresher ≠ none) (hcl : s.cache.closing = true) : s'.cache.closing = true := by
  refine h.closing_kept hst (fun hclosed => ?_) hcl
  exact hth hclosed.refresher

theorem RequestsInv.system_step (h : RequestsInv s.cache b.moments) (hr : s.Reachable)
    (hst : s.step a = some s') :
    RequestsInv s'.cache (s.cache.requestsAfter s'.cache b.moments) := by
  have hkept := fun hne => hr.closing_while_refreshing hst hne
  rcases (System.move_of_step hst).cache with hsame | ⟨x, hx⟩
  · exact h.still (congrArg PodCache.refresher hsame) (congrArg PodCache.environ hsame)
      (le_of_eq (congrArg PodCache.clock hsame).symm) hkept
  · exact h.step hr.cache.inv hx hkept

theorem RequestBeatsKept.step (h : RequestBeatsKept delay e s b) (hr : s.Reachable)
    (hok : RefresherPrompt delay (s, b) a) (hst : s.step a = some s') :
    RequestBeatsKept delay e s' (s.requestBeatsAfter a s' b) := by
  have hmv := System.move_of_step hst
  have hi := hr.cache.inv
  have he := hmv.environ hi
  refine ⟨he.trans h.environ, h.pace.system_step hr hst, fun th' hth' => ?_⟩
  cases hth : s.cache.refresher with
  | none =>
    -- it has just been created
    have hnew : s'.cache.refresher = some (Refresher.create s'.cache.environ) := by
      cases hact : a.ofRefresher with
      | true =>
        obtain ⟨x, c', hx, hc, -⟩ := hmv.of_refresher hact
        exact absurd hth (hi.refresher_step hx hc).1
      | false =>
        rcases hmv.refresher_cases hi hact with hsame | hnone | ⟨-, hcreated⟩
        · exact absurd (hth'.symm.trans (hsame.trans hth)) (by simp)
        · exact absurd (hth'.symm.trans hnone) (by simp)
        · rw [he]
          exact hcreated
    obtain rfl := Option.some.inj (hnew.symm.trans hth')
    unfold System.requestBeatsAfter
    rw [requestsAfter_none hth, hth, Option.isNone_none, if_pos rfl, if_pos (Or.inl rfl)]
    exact .fresh s'.cache delay
  | some th =>
    have hb := h.kept th hth
    cases hact : a.ofRefresher with
    | true =>
      obtain ⟨x, c', hx, hc, rfl⟩ := hmv.of_refresher hact
      obtain ⟨th₁, hth₁, hnext⟩ := hb.own (h.pace.refresher th hth) hi hth hx hc
      obtain rfl := Option.some.inj (hth₁.symm.trans hth')
      unfold System.requestBeatsAfter
      rw [hth, hact]
      exact hnext
    | false =>
      rcases hmv.refresher_cases hi hact with hsame | hnone | ⟨hno, -⟩
      · obtain rfl : th = th' := Option.some.inj (hth.symm.trans (hsame.symm.trans hth'))
        have hafter : s.requestBeatsAfter a s' b = b := by
          unfold System.requestBeatsAfter
          rw [requestsAfter_same hsame, hth, hact]
          simp
        rw [hafter]
        refine hb.stays he (fun hpc => ?_) (hr.closing_while_refreshing hst (by simp [hth]))
        by_cases htick : ∃ ns, a = .tick ns
        · obtain ⟨ns, rfl⟩ := htick
          cases hmv with
          | tick => exact hok th hth hpc
          | refresher hx hc ha => exact ha.elim
          | cleanup hm hl ha => exact ha.elim
        · rw [hr.clock_kept (fun ns hns => htick ⟨ns, hns⟩) hst]
          exact hb.soon hpc
      · exact absurd (hth'.symm.trans hnone) (by simp)
      · exact absurd (hth.symm.trans hno) (by simp)

theorem requestBeatsKept_of_run
    (hr : Lts.Run System.requestBeatStep (RefresherPrompt delay)
      (System.init e clock config, ⟨clock, clock, []⟩) (s, b)) : RequestBeatsKept delay e s b := by
  have hall : s.Reachable ∧ RequestBeatsKept delay e s b := by
    refine hr.invariant (I := fun x => x.1.Reachable ∧ RequestBeatsKept delay e x.1 x.2)
      ⟨Lts.Reachable.of_init ⟨e, clock, config, rfl⟩, rfl,
        RequestsInv.fresh fun th hth => absurd hth (by simp [System.init, PodCache.init]),
        fun th hth => absurd hth (by simp [System.init, PodCache.init])⟩ ?_
    rintro ⟨u, bu⟩ x ⟨v, bv⟩ ⟨hu, hk⟩ hok hst
    obtain ⟨v1, hv, heq⟩ := Option.map_eq_some_iff.mp hst
    obtain ⟨rfl, rfl⟩ := Prod.mk.inj heq
    exact ⟨hu.next hv, hk.step hu hok hv⟩
  exact hall.2

end Runs

/-- **No request is late**, in any run in which the refresher is not kept waiting for longer than
`delay` and libcurl keeps to its timeout, whether the requests succeed or fail.  They begin no
further apart than the timeout, the longest sleep and nine delays; and as long as nobody closes the
module, every stretch of that length since its first step has one. -/
theorem requests_on_time (delay : Nat) (e : Environ) (clock : Int) (config : Config) (s : System)
    (b : Beats)
    (hr : Lts.Run System.requestBeatStep (RefresherPrompt delay)
      (System.init e clock config, ⟨clock, clock, []⟩) (s, b))
    (th : Refresher) (hth : s.cache.refresher = some th) :
    Dense (e.getPodsTimeout * nsPerSecond + max e.getPodsRefresh maxRetryDelay * nsPerSecond +
      (9 : Nat) * delay) b.moments ∧
    (s.cache.closing = false → th.pc ≠ .exited → ∀ start : Int, b.created + delay ≤ start →
      start + (e.getPodsTimeout * nsPerSecond + max e.getPodsRefresh maxRetryDelay * nsPerSecond +
        (9 : Nat) * delay) ≤ s.cache.clock →
        ∃ x ∈ b.moments, start ≤ x ∧
          x ≤ start + (e.getPodsTimeout * nsPerSecond +
            max e.getPodsRefresh maxRetryDelay * nsPerSecond + (9 : Nat) * delay)) := by
  have hall := requestBeatsKept_of_run hr
  have h := hall.kept th hth
  obtain rfl := hall.environ
  refine ⟨h.dense, fun hopen hexit start hstart hstop => ?_⟩
  obtain ⟨hwithin, hbegun⟩ := h.within hopen hexit
  have hbeat := s.cache.environ.requestBeat_pos delay
  have hend : start + s.cache.environ.requestBeat delay ≤ s.cache.clock := hstop
  cases hm : b.moments with
  | nil =>
    -- it has had no time for one
    have hnone := hbegun hm
    omega
  | cons x rest =>
    have hhead : b.moments.head? = some x := by rw [hm, List.head?_cons]
    rw [← hm]
    have hbefore := (h.first x hhead).trans hstart
    exact h.dense.exists_mem (Int.le_of_lt hbeat) hwithin hhead hbefore hend

/-- A request that fails and the next one, five seconds later by the default, of a refresher that
is never kept waiting. -/
theorem requests_on_time_retry :
    ∃ (s : System) (th : Refresher), s.cache.refresher = some th ∧
      Dense (5 * nsPerSecond + 30 * nsPerSecond + (9 : Nat) * (0 : Nat)) [0, 5000000000] := by
  have hview : (Lts.execIf System.requestBeatStep (fun x a =>
      match a with
      | .tick ns => x.1.cache.refresher.all fun th =>
          x.1.cache.clock + ns ≤ th.nextBy 0 x.2.since
      | _ => true) (System.init {} 0 (portsConfig (ascii "6379") (ascii "0")), ⟨0, 0, []⟩)
      (startUp ++ [.refresher, .fetchEnds (onePod none), .refresher, .refresher, .refresher,
        .refresher, .tick 5000000000, .refresher, .refresher])).map
        (fun x => (x.1.cache.refresher.isSome, x.2.moments)) =
        some (true, [0, 5000000000]) := by decide +kernel
  obtain ⟨⟨s, b⟩, hs, hbook⟩ := Option.map_eq_some_iff.mp hview
  obtain ⟨hsome, hmoments⟩ := Prod.mk.inj hbook
  obtain ⟨th, hth⟩ := Option.isSome_iff_exists.mp hsome
  obtain ⟨hdense, -⟩ := requests_on_time 0 {} 0 _ s b
    (Lts.run_of_execIf (fun x a ha => by
      cases a with
      | tick ns =>
        intro th hth _
        rw [hth] at ha
        exact of_decide_eq_true ha
      | _ => trivial) hs) th hth
  rw [show b.moments = [0, 5000000000] from hmoments] at hdense
  exact ⟨s, th, hth, hdense⟩

end Unicaster
