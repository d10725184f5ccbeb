/-
# A pass is the sender's own business

`unicast_thread` says of the pod list that a slow or failing API delays its refresh, never this
loop.  Here is what that means: between two sleeps a sender waits for nobody.  Its next step is
always possible, wherever the refresher, the main thread and the other senders stand, and its own
steps, counted over any run, take it to the end of its pass.
-/
import Unicaster.Cleanup
import Unicaster.Listed

namespace Unicaster

open CLib

/-! ## 1. The steps of a pass -/

/-- The steps a sender has at most still to take up to the end of its pass. -/
def SenderPc.passLeft : SenderPc → Nat
  | .start => 7 + maxPods
  | .check => 6 + maxPods
  | .acquiring _ => 5 + maxPods
  | .sending p => 4 + (maxPods - p.i)
  | .reporting _ => 3
  | .releasing _ => 2
  | .freeing _ => 1
  | .sleeping _ => 0
  | .exited => 0

theorem SenderPc.passLeft_le (pc : SenderPc) : pc.passLeft ≤ 7 + maxPods := by
  cases pc <;> simp only [SenderPc.passLeft] <;> omega

theorem passLeft_endPass (th : Sender) (closing : Bool) (clock : Int) :
    (th.endPass closing clock).pc.passLeft = 0 := by
  cases closing <;> rfl

section Sender

variable {c c' : PodCache} {th th' : Sender} {t : Nat}

/-- The address a sender is at is one of at most `MAX_PODS`. -/
theorem SenderInv.index_lt (h : SenderInv c t th) (hc : c.Reachable) {p : PassLocals} {r : Nat}
    {ip : Text} (hpc : th.pc = .sending p) (hs : p.snapshot = some r)
    (hip : (c.podsOf r)[p.i]? = some ip) : p.i < maxPods := by
  obtain ⟨rd, hrd, hreads⟩ := h.reader
  rw [hpc] at hreads
  have hheld : rd.held = some r := hreads.1.trans hs
  have hlive := hc.inv.owned (mem_owners_of_reader (List.mem_of_getElem? hrd) hheld)
  have hlen := hc.podsOf_length_le hlive.1
  have hlt : p.i < (c.podsOf r).length := (List.getElem?_eq_some_iff.mp hip).1
  omega

/-- **Every step of a sender in its pass brings it closer to the end of the pass.** -/
theorem SenderMove.passCloser {guid : Text} {enableLogging : Bool} {config : Config}
    {o : SendOutcome} (h : SenderMove c guid enableLogging config t o th c' th')
    (hi : SenderInv c t th) (hc : c.Reachable) (hpass : th.pc.passLeft ≠ 0) :
    th'.pc.passLeft < th.pc.passLeft := by
  cases h with
  | prepare hpc =>
    rw [hpc]
    simp only [Sender.prepare, SenderPc.passLeft]
    omega
  | beginPass hpc =>
    rw [hpc]
    simp only [Sender.beginPass, SenderPc.passLeft]
    omega
  | acquired hpc hst =>
    rw [hpc]
    simp only [Sender.acquired, SenderPc.passLeft]
    omega
  | @sent p r ip c' hpc hs hst hip =>
    obtain rfl : c' = c := hc.inv.readStep hst
    have hlt := hi.index_lt hc hpc hs hip
    obtain ⟨l, log, -, -, hnext, heq⟩ := sendTo_eq th p ip enableLogging o
    rw [heq, hpc]
    simp only [SenderPc.passLeft]
    rw [hnext]
    omega
  | sendsEnd hpc hst =>
    rw [hpc]
    simp only [SenderPc.passLeft]
    omega
  | reported hpc hst =>
    rw [hpc]
    simp only [Sender.report, SenderPc.passLeft]
    omega
  | toFree hpc hs hst hf =>
    rw [hpc]
    simp only [SenderPc.passLeft]
    omega
  | released hpc hst =>
    rw [passLeft_endPass]
    exact Nat.pos_of_ne_zero hpass
  | freed hpc hst =>
    rw [passLeft_endPass]
    exact Nat.pos_of_ne_zero hpass
  | woken hpc hw =>
    rw [hpc] at hpass
    exact absurd rfl hpass

/-- **A sender can go on**, unless it has ended or sleeps for a reason. -/
theorem SenderInv.enabled (h : SenderInv c t th) (hc : c.Reachable) (hpc : th.pc ≠ .exited)
    (hawake : ∀ d, th.pc = .sleeping d → c.closing = true ∨ d ≤ c.clock) (guid : Text)
    (enableLogging : Bool) (config : Config) (o : SendOutcome) :
    ∃ r, th.step c guid enableLogging config t o = some r := by
  have hfrom : th.GoesOn c t → ∃ r, th.step c guid enableLogging config t o = some r := by
    intro hgo
    obtain ⟨c', th', hst, -⟩ := hgo guid enableLogging config o
    exact ⟨(c', th'), hst⟩
  cases hp : th.pc with
  | start => exact ⟨_, by simp only [Sender.step, hp]; rfl⟩
  | check => exact ⟨_, by simp only [Sender.step, hp]; rfl⟩
  | acquiring closing => exact hfrom (h.goes_on_acquiring hc hp)
  | sending p => exact hfrom (h.goes_on_sending hc hp)
  | reporting p => exact hfrom (h.goes_on_reporting hc hp)
  | releasing p => exact hfrom (h.goes_on_releasing hc hp)
  | freeing closing => exact hfrom (h.goes_on_freeing hc hp)
  | sleeping d => exact ⟨_, by simp only [Sender.step, hp, if_pos (hawake d hp)]; rfl⟩
  | exited => exact absurd hp hpc

end Sender

/-! ## 2. A pass in the system -/

/-- Sender `t` is in a pass: it does not sleep, and it has not ended. -/
def System.OnPass (s : System) (t : Nat) : Prop :=
  ∃ th, s.senders[t]? = some th ∧ th.pc.passLeft ≠ 0

/-- The action is a step of sender `t`. -/
def Act.ofSender (t : Nat) : Act → Bool
  | .sender u _ => u == t
  | _ => false

def System.passLeft (s : System) (t : Nat) : Nat :=
  match s.senders[t]? with
  | some th => th.pc.passLeft
  | none => 0

section Pass

variable {s s' : System} {t : Nat} {a : Act}

/-- The others do not delay a sender, and its own steps count. -/
theorem System.Reachable.passLeft_step (h : s.Reachable) (hon : s.OnPass t)
    (hst : s.step a = some s') :
    s'.passLeft t + (if a.ofSender t then 1 else 0) ≤ s.passLeft t := by
  obtain ⟨th, hth, hpass⟩ := hon
  have hmv := System.move_of_step hst
  -- where the sender does not move the action is not its own: its own step lowers the measure
  have hown : ∀ o, a = .sender t o → s'.passLeft t < s.passLeft t := by
    rintro o rfl
    cases hmv with
    | @sender u o thu c' th' hu hmv =>
      obtain rfl : thu = th := Option.some.inj (hu.symm.trans hth)
      have hlt := hmv.passCloser (h.senders.sender t thu hth) h.cache hpass
      simp only [System.passLeft, hth, List.getElem?_set_eq hu]
      exact hlt
    | refresher hb hc ha => exact ha.elim
    | cleanup hm hl ha => exact ha.elim
  cases hact : a.ofSender t with
  | true =>
    cases a with
    | sender u o =>
      obtain rfl : u = t := by simpa [Act.ofSender] using hact
      exact hown o rfl
    | _ => exact absurd hact (by simp [Act.ofSender])
  | false =>
    obtain ⟨th', hth', rfl | ⟨n, rfl⟩ | ⟨o, rfl, -⟩⟩ := hmv.sender_cases hth
    · simp [System.passLeft, hth, hth']
    · simp [System.passLeft, hth, hth']
    · exact absurd hact (by simp [Act.ofSender])

end Pass

/-- **A pass waits for nobody.**  Whatever the other threads do in the meantime, also a request that
never ends, a sender that begins a pass comes to its end within `7 + MAX_PODS` steps of its own.
In every state of the run it can take the next one; a sender that cannot has ended, or it sleeps,
with the flag clear and its deadline to come. -/
theorem pass_never_waits (s s' : System) (h : s.Reachable) (t : Nat) (as : List Act)
    (htr : Lts.Trace System.step (fun u _ => u.OnPass t) s as s') :
    as.countP (·.ofSender t) ≤ 7 + maxPods ∧
    (s'.undefined = false → ∀ (th : Sender) (o : SendOutcome), s'.senders[t]? = some th →
      s'.step (.sender t o) = none → th.pc = .exited ∨
        ∃ d, th.pc = .sleeping d ∧ s'.cache.closing = false ∧ s'.cache.clock < d) := by
  refine ⟨?_, fun hdef th o hth hnone => ?_⟩
  · have hpay := htr.countP_add_le (I := System.Reachable) (System.passLeft · t) (·.ofSender t)
      (fun u a v hu hok hst => ⟨hu.next hst, hu.passLeft_step hok hst⟩) h
    have hle : s.passLeft t ≤ 7 + maxPods := by
      unfold System.passLeft
      split
      · exact SenderPc.passLeft_le _
      · exact Nat.zero_le _
    omega
  · have hs' : s'.Reachable := Lts.Reachable.run h htr.run
    by_contra hno
    obtain ⟨hpc, hsleep⟩ := not_or.mp hno
    have hawake : ∀ d, th.pc = .sleeping d → s'.cache.closing = true ∨ d ≤ s'.cache.clock := by
      intro d hd
      by_contra hearly
      obtain ⟨hcl, hlt⟩ := not_or.mp hearly
      exact hsleep ⟨d, hd, Bool.eq_false_iff.mpr hcl, Int.not_le.mp hlt⟩
    obtain ⟨r, hr⟩ := (hs'.senders.sender t th hth).enabled hs'.cache hpc hawake
      s'.statics.redisGuid s'.statics.enableLogging s'.host.config o
    simp only [System.step, hdef, System.senderStep, hth, Option.bind_some, hr] at hnone
    exact absurd hnone (by simp)

/-- A request is under way and does not end; meanwhile the one sender makes its pass. -/
theorem pass_never_waits_onePod :
    ∃ s s' : System, Lts.Trace System.step (fun u _ => u.OnPass 0) s (senderOk :: passOverOne) s' ∧
      s'.senders.map (fun th => th.passes.map (·.attempts)) = [[[ascii "10.0.0.7"]]] ∧
      (senderOk :: passOverOne).countP (·.ofSender 0) ≤ 7 + maxPods := by
  have hview : ((Lts.exec System.step
      (System.init {} 0 (portsConfig (ascii "6379") (ascii "0")))
      (startUp ++ refreshRound ++ [.tick 5000000000, .refresher, .refresher])).bind
        (Lts.execIf System.step (fun u _ => u.senders[0]?.any fun th => th.pc.passLeft != 0) ·
          (senderOk :: passOverOne))).map
        (fun s => s.senders.map fun th => th.passes.map (·.attempts)) =
        some [[[ascii "10.0.0.7"]]] := by decide +kernel
  obtain ⟨s', hs', hpass⟩ := Option.map_eq_some_iff.mp hview
  obtain ⟨s, hs, hexec⟩ := Option.bind_eq_some_iff.mp hs'
  have htr : Lts.Trace System.step (fun u _ => u.OnPass 0) s (senderOk :: passOverOne) s' := by
    refine Lts.trace_of_execIf (fun u a hu => ?_) hexec
    obtain ⟨th, hth, hleft⟩ := (Option.any_eq_true _ _).mp hu
    exact ⟨th, hth, by simpa using hleft⟩
  have hcount := (pass_never_waits s s' (Lts.reachable_of_exec ⟨_, _, _, rfl⟩ hs) 0 _ htr).1
  exact ⟨s, s', htr, hpass, hcount⟩

end Unicaster
