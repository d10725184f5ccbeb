/-
# The last announcement

What the senders have announced at any moment, and what they still announce once the closing
signal is raised: `down` once, last, with the `down` record, to every pod of the list they acquire,
and that list is there unless none came or it is too old.
-/
import Unicaster.Senders

namespace Unicaster

open CLib

/-! ## 1. Histories of passes -/

/-- How many `up` passes a sender has begun. -/
def Sender.ups (th : Sender) : Nat := th.passes.countP (·.up)

/-- Some `up` passes, then at most one `down` pass, all over but the latest. -/
structure UpsThenDown (ps : List Pass) : Prop where
  split : ∃ downs ups : List Pass, ps = downs ++ ups ∧ downs.length ≤ 1 ∧
    (∀ p ∈ downs, p.up = false) ∧ ∀ p ∈ ups, p.up = true
  earlier : ∀ p ∈ ps.tail, p.attempts = p.ips

section Histories

variable {s s' : System} {th th' : Sender} {t : Nat}

theorem UpPasses.upsThenDown {ps : List Pass} (h : UpPasses ps) : UpsThenDown ps :=
  ⟨⟨[], ps, rfl, Nat.zero_le 1, fun p hp => absurd hp (by simp), fun p hp => (h p hp).1⟩,
    fun p hp => (h p (List.mem_of_mem_tail hp)).2⟩

theorem LatestPass.upsThenDown {ps : List Pass} {closing : Bool} {P : Pass → Prop}
    (h : LatestPass ps closing P) : UpsThenDown ps := by
  obtain ⟨p, rest, rfl, hup, -, hrest⟩ := h
  refine ⟨?_, fun q hq => (hrest q hq).2⟩
  cases closing with
  | true =>
    refine ⟨[p], rest, rfl, Nat.le_refl 1, fun q hq => ?_, fun q hq => (hrest q hq).1⟩
    rw [List.mem_singleton.mp hq]
    exact hup
  | false =>
    refine ⟨[], p :: rest, rfl, Nat.zero_le 1, fun q hq => absurd hq (by simp), fun q hq => ?_⟩
    rcases List.mem_cons.mp hq with rfl | hq
    · exact hup
    · exact (hrest q hq).1

/-- The shape of a history, at every place. -/
theorem SenderPc.Passes.upsThenDown {pc : SenderPc} {ps : List Pass} (h : pc.Passes ps) :
    UpsThenDown ps := by
  cases pc with
  | start =>
    obtain rfl : ps = [] := h
    exact UpPasses.upsThenDown fun p hp => absurd hp (by simp)
  | check => exact UpPasses.upsThenDown h
  | acquiring closing => exact LatestPass.upsThenDown h
  | sending l => exact LatestPass.upsThenDown h
  | reporting l => exact LatestPass.upsThenDown h
  | releasing l => exact LatestPass.upsThenDown h
  | freeing closing => exact LatestPass.upsThenDown h
  | sleeping deadline => exact UpPasses.upsThenDown h
  | exited => exact LatestPass.upsThenDown h

theorem UpPasses.prefix {ps : List Pass} (h : UpPasses ps) : ∀ p ∈ ps, p.attempts <+: p.ips :=
  fun p hp => (h p hp).2 ▸ List.prefix_refl _

theorem LatestPass.prefix {ps : List Pass} {closing : Bool} {P : Pass → Prop}
    (h : LatestPass ps closing P) (hp : ∀ p, P p → p.attempts <+: p.ips) :
    ∀ p ∈ ps, p.attempts <+: p.ips := by
  obtain ⟨p, rest, rfl, -, hpp, hrest⟩ := h
  intro q hq
  rcases List.mem_cons.mp hq with rfl | hq
  · exact hp q hpp
  · exact UpPasses.prefix hrest q hq

/-- A pass attempts the addresses in the order of the list. -/
theorem SenderPc.Passes.prefix {pc : SenderPc} {ps : List Pass} (h : pc.Passes ps) :
    ∀ p ∈ ps, p.attempts <+: p.ips := by
  have hall : ∀ p : Pass, p.attempts = p.ips → p.attempts <+: p.ips :=
    fun p hp => hp ▸ List.prefix_refl _
  cases pc with
  | start =>
    obtain rfl : ps = [] := h
    exact fun p hp => absurd hp (by simp)
  | check => exact UpPasses.prefix h
  | acquiring closing =>
    refine LatestPass.prefix h fun p hp => ?_
    rw [hp.2.2]
    exact List.nil_prefix
  | sending l =>
    refine LatestPass.prefix h fun p hp => ?_
    rw [hp.2]
    exact List.take_prefix _ _
  | reporting l => exact LatestPass.prefix h hall
  | releasing l => exact LatestPass.prefix h hall
  | freeing closing => exact LatestPass.prefix h hall
  | sleeping deadline => exact UpPasses.prefix h
  | exited => exact LatestPass.prefix h hall

/-! ## 2. What a step adds -/

/-- The step begins a pass at the check of the flag, or none. -/
def Begins (c : PodCache) (th th' : Sender) : Prop :=
  th'.passes.map (·.up) = th.passes.map (·.up) ∨
    th.pc = .check ∧ ∃ p, th'.passes = p :: th.passes ∧ p.up = !c.closing

/-- What the step does to the lists of the passes: nothing, or a pass begins without one, or the
pass that has begun gets what `pod_cache_acquire` returns. -/
def Acquires (c : PodCache) (th th' : Sender) : Prop :=
  th'.passes.map (·.snapshot) = th.passes.map (·.snapshot) ∨
    th.pc = .check ∧ th'.passes.map (·.snapshot) = none :: th.passes.map (·.snapshot) ∨
    (∃ closing, th.pc = .acquiring closing) ∧ ∃ p rest, th.passes = p :: rest ∧
      th'.passes.map (·.snapshot) = c.podCacheAcquire.2 :: rest.map (·.snapshot)

theorem map_onPass {α : Type} (th : Sender) {g : Pass → α} (f : Pass → Pass)
    (hf : ∀ p, g (f p) = g p) : (th.onPass f).passes.map g = th.passes.map g := by
  unfold Sender.onPass
  cases hps : th.passes with
  | nil => rfl
  | cons p rest => simp only [List.map_cons, hf]

theorem SenderMove.begins {c c' : PodCache} {guid : Text} {enableLogging : Bool}
    {config : Config} {o : SendOutcome}
    (h : SenderMove c guid enableLogging config t o th c' th') : Begins c th th' := by
  cases h with
  | prepare hpc => exact Or.inl rfl
  | beginPass hpc => exact Or.inr ⟨hpc, _, rfl, rfl⟩
  | acquired hpc hc => exact Or.inl (map_onPass th _ fun _ => rfl)
  | @sent p r ip c' hpc hs hc hip =>
    obtain ⟨l, log, -, -, -, heq⟩ := sendTo_eq th p ip enableLogging o
    rw [heq]
    exact Or.inl (map_onPass th _ fun _ => rfl)
  | sendsEnd hpc hc => exact Or.inl rfl
  | reported hpc hc => exact Or.inl rfl
  | toFree hpc hs hc hf => exact Or.inl rfl
  | @released p c' hpc hc =>
    obtain ⟨pc, heq⟩ := endPass_eq th p.closing c'.clock
    rw [heq]
    exact Or.inl rfl
  | @freed closing c' hpc hc =>
    obtain ⟨pc, heq⟩ := endPass_eq th closing c'.clock
    rw [heq]
    exact Or.inl rfl
  | woken hpc hw => exact Or.inl rfl

theorem podCacheAcquire_readers (c : PodCache) : c.podCacheAcquire.1.readers = c.readers := by
  unfold PodCache.podCacheAcquire PodCache.touchSnap
  cases c.current with
  | none => rfl
  | some r =>
    dsimp only
    split <;> rfl

/-- What the reader has in its hands behind `pod_cache_acquire` is what that returned. -/
theorem acquire_held {c c' : PodCache} (hst : c.step (.acquire t) = some c') :
    c'.readers[t]?.bind (·.held) = c.podCacheAcquire.2 := by
  change c.acquireStep t = some c' at hst
  unfold PodCache.acquireStep at hst
  split at hst
  · rename_i acquired hrd
    have hlt : t < c.readers.length := (List.getElem?_eq_some_iff.mp hrd).1
    have hreaders := podCacheAcquire_readers c
    split at hst
    · rename_i d hacq
      obtain rfl := Option.some.inj hst
      rw [hacq] at hreaders ⊢
      rw [hreaders, hrd]
      rfl
    · rename_i d r hacq
      obtain rfl := Option.some.inj hst
      rw [hacq] at hreaders ⊢
      change (d.readers.set t _)[t]?.bind (·.held) = some r
      rw [hreaders, List.getElem?_set_self hlt]
      rfl
  · exact absurd hst (by simp)

theorem SenderMove.acquires {c c' : PodCache} {guid : Text} {enableLogging : Bool}
    {config : Config} {o : SendOutcome}
    (h : SenderMove c guid enableLogging config t o th c' th') (hi : SenderInv c t th) :
    Acquires c th th' := by
  cases h with
  | prepare hpc => exact Or.inl rfl
  | beginPass hpc => exact Or.inr (Or.inl ⟨hpc, rfl⟩)
  | @acquired closing c' hpc hc =>
    have hpasses := hi.passes
    rw [hpc] at hpasses
    obtain ⟨p, rest, hps, -, -, -⟩ := hpasses
    refine Or.inr (Or.inr ⟨⟨closing, hpc⟩, p, rest, hps, ?_⟩)
    rw [acquire_held hc]
    unfold Sender.acquired Sender.onPass
    rw [hps]
    rfl
  | @sent p r ip c' hpc hs hc hip =>
    obtain ⟨l, log, -, -, -, heq⟩ := sendTo_eq th p ip enableLogging o
    rw [heq]
    exact Or.inl (map_onPass th _ fun _ => rfl)
  | sendsEnd hpc hc => exact Or.inl rfl
  | reported hpc hc => exact Or.inl rfl
  | toFree hpc hs hc hf => exact Or.inl rfl
  | @released p c' hpc hc =>
    obtain ⟨pc, heq⟩ := endPass_eq th p.closing c'.clock
    rw [heq]
    exact Or.inl rfl
  | @freed closing c' hpc hc =>
    obtain ⟨pc, heq⟩ := endPass_eq th closing c'.clock
    rw [heq]
    exact Or.inl rfl
  | woken hpc hw => exact Or.inl rfl

/-- **What a step of the system does to one sender**: nothing, or it is joined, or it takes a
step of its own. -/
theorem Move.sender_cases {a : Act} (h : Move s a s') (hth : s.senders[t]? = some th) :
    ∃ th', s'.senders[t]? = some th' ∧
      (th' = th ∨ (∃ n, th' = { th with joined := n }) ∨
        ∃ o, a = .sender t o ∧ SenderMove s.cache s.statics.redisGuid s.statics.enableLogging
          s.host.config t o th s'.cache th') := by
  have hlt : t < s.senders.length := (List.getElem?_eq_some_iff.mp hth).1
  have hsame : s'.senders = s.senders → ∃ th', s'.senders[t]? = some th' ∧
      (th' = th ∨ (∃ n, th' = { th with joined := n }) ∨
        ∃ o, a = .sender t o ∧ SenderMove s.cache s.statics.redisGuid s.statics.enableLogging
          s.host.config t o th s'.cache th') := fun he => ⟨th, he ▸ hth, Or.inl rfl⟩
  cases h with
  | tick => exact hsame rfl
  | refresher hb hc ha => exact hsame rfl
  | @sender u o thu c' th' hu hmv =>
    by_cases hut : u = t
    · subst hut
      obtain rfl : thu = th := Option.some.inj (hu.symm.trans hth)
      exact ⟨th', List.getElem?_set_self hlt, Or.inr (Or.inr ⟨o, rfl, hmv⟩)⟩
    · exact ⟨th, (List.getElem?_set_ne hut).trans hth, Or.inl rfl⟩
  | configSet hm => exact hsame rfl
  | refused hm hbusy => exact hsame rfl
  | curlFails hm hloaded hbusy hcurl => exact hsame rfl
  | load hm hloaded hbusy hcurl => exact hsame rfl
  | cron hm hhook hst => exact hsame (cronBroadcastOnce_frame hst).1
  | cleanup hm hloaded ha => exact hsame rfl
  | @main o s' hst =>
    rcases mainStep_eq hst with ⟨hm, rfl⟩ | ⟨ifa, todo, hm, rfl⟩ |
      ⟨i, caller, s1, hm, hi, hj, rfl⟩ | ⟨i, caller, hm, hi, rfl⟩ | ⟨caller, c', hm, hc, rfl⟩
    · exact hsame rfl
    · rcases spawnStep_eq s ifa o with heq | heq | ⟨a, slots, -, -, -, heq⟩
      · rw [heq] at hsame ⊢
        exact hsame rfl
      · rw [heq] at hsame ⊢
        exact hsame rfl
      · rw [heq]
        exact ⟨th, (List.getElem?_append_left hlt).trans hth, Or.inl rfl⟩
    · rcases joinStep_eq hj with ⟨rfl, -⟩ | ⟨u, thu, -, hu, -, rfl⟩
      · exact hsame rfl
      · by_cases hut : u = t
        · subst hut
          obtain rfl : thu = th := Option.some.inj (hu.symm.trans hth)
          exact ⟨_, List.getElem?_set_self hlt, Or.inr (Or.inl ⟨_, rfl⟩)⟩
        · exact ⟨th, (List.getElem?_set_ne hut).trans hth, Or.inl rfl⟩
    · exact hsame rfl
    · refine hsame ?_
      split
      · cases caller <;> rfl
      · rfl

/-- A sender that was not there before is the next one, created for an interface with the
variables of the announcement; the hook led there. -/
theorem Move.new_sender {a : Act} (h : Move s a s') (ht : s.senders.length ≤ t)
    (hth : s'.senders[t]? = some th) :
    (∃ todo, s.main = .spawning todo) ∧
      ∃ a, th = Sender.create (BroadcastTask.create (inetNtop a) s.statics.globalRedisPort
        s.statics.globalRedisTls) := by
  have hlt : t < s'.senders.length := (List.getElem?_eq_some_iff.mp hth).1
  have hsame : s'.senders.length ≤ s.senders.length → False := fun hle => by omega
  cases h with
  | tick => exact (hsame (Nat.le_refl _)).elim
  | refresher hb hc ha => exact (hsame (Nat.le_refl _)).elim
  | sender hth hst => exact (hsame (le_of_eq List.length_set)).elim
  | configSet hm => exact (hsame (Nat.le_refl _)).elim
  | refused hm hbusy => exact (hsame (Nat.le_refl _)).elim
  | curlFails hm hloaded hbusy hcurl => exact (hsame (Nat.le_refl _)).elim
  | load hm hloaded hbusy hcurl => exact (hsame (Nat.le_refl _)).elim
  | @cron o s' hm hhook hst =>
    exact (hsame (congrArg List.length (cronBroadcastOnce_frame hst).1).le).elim
  | cleanup hm hloaded ha => exact (hsame (Nat.le_refl _)).elim
  | @main o s' hst =>
    rcases mainStep_eq hst with ⟨hm, rfl⟩ | ⟨ifa, todo, hm, rfl⟩ |
      ⟨i, caller, s1, hm, hi, hj, rfl⟩ | ⟨i, caller, hm, hi, rfl⟩ | ⟨caller, c', hm, hc, rfl⟩
    · exact (hsame (Nat.le_refl _)).elim
    · rcases spawnStep_eq s ifa o with heq | heq | ⟨a, slots, -, -, -, heq⟩ <;>
        rw [heq] at hsame hth
      · exact (hsame (Nat.le_refl _)).elim
      · exact (hsame (Nat.le_refl _)).elim
      · rcases List.getElem?_concat_cases hth with ⟨hold, -⟩ | ⟨-, rfl⟩
        · omega
        · exact ⟨⟨_, hm⟩, a, rfl⟩
    · rcases joinStep_eq hj with ⟨rfl, -⟩ | ⟨u, thu, -, hu, -, rfl⟩
      · exact (hsame (Nat.le_refl _)).elim
      · exact (hsame (le_of_eq List.length_set)).elim
    · exact (hsame (Nat.le_refl _)).elim
    · refine (hsame ?_).elim
      split
      · cases caller <;> exact Nat.le_refl _
      · exact Nat.le_refl _

theorem System.Reachable.begins_step (h : s.Reachable) {a : Act} (hst : s.step a = some s')
    (hth : s.senders[t]? = some th) :
    ∃ th', s'.senders[t]? = some th' ∧ Begins s.cache th th' ∧ Acquires s.cache th th' := by
  obtain ⟨th', hth', rfl | ⟨n, rfl⟩ | ⟨o, -, hmv⟩⟩ :=
    (System.move_of_step hst).sender_cases hth
  · exact ⟨_, hth', Or.inl rfl, Or.inl rfl⟩
  · exact ⟨_, hth', Or.inl rfl, Or.inl rfl⟩
  · exact ⟨_, hth', hmv.begins, hmv.acquires (h.senders.sender t th hth)⟩

theorem ups_eq_countP (th : Sender) : th.ups = (th.passes.map (·.up)).countP id := by
  rw [List.countP_map]
  rfl

/-- **Behind the closing signal no `up` pass begins**, within one load. -/
theorem System.Reachable.ups_run (h : s.Reachable) (hcl : s.cache.closing = true)
    (hr : Lts.Run System.step SameLoad s s') (hth : s.senders[t]? = some th) :
    ∃ th', s'.senders[t]? = some th' ∧ th'.ups = th.ups := by
  have hall : (s'.Reachable ∧ s'.cache.closing = true) ∧
      ∃ th', s'.senders[t]? = some th' ∧ th'.ups = th.ups := by
    refine hr.invariant (I := fun u => (u.Reachable ∧ u.cache.closing = true) ∧
      ∃ th', u.senders[t]? = some th' ∧ th'.ups = th.ups) ⟨⟨h, hcl⟩, th, hth, rfl⟩ ?_
    rintro u a v ⟨⟨hu, hclu⟩, thu, hthu, hups⟩ hok hst
    refine ⟨⟨hu.next hst, (hu.closing_step hclu hok hst).1⟩, ?_⟩
    obtain ⟨thv, hthv, hb, -⟩ := hu.begins_step hst hthu
    refine ⟨thv, hthv, ?_⟩
    rcases hb with hsame | ⟨-, p, hp, hup⟩
    · rw [ups_eq_countP, hsame, ← ups_eq_countP, hups]
    · rw [hclu] at hup
      rw [← hups, Sender.ups, Sender.ups, hp, List.countP_cons_of_neg (by simp [hup])]
  exact hall.2

/-! ## 3. What a sender says -/

/-- The messages of a sender, of this broker. -/
def Sender.SpeaksFor (th : Sender) (e : Environ) (guid : Text) : Prop :=
  th.upMessage = Unicaster.upMessage e.getServiceName guid th.task e.getInterval ∧
    th.downMessage = Unicaster.downMessage e.getServiceName guid th.task

/-- What a pass sends, on behalf of this broker. -/
def Pass.SpeaksFor (p : Pass) (e : Environ) (guid : Text) (task : BroadcastTask) : Prop :=
  p.message =
    if p.up then upMessage e.getServiceName guid task e.getInterval
    else downMessage e.getServiceName guid task

/-- **A sender writes its messages once.** -/
theorem SenderMove.messages_eq {c c' : PodCache} {guid : Text} {enableLogging : Bool}
    {config : Config} {o : SendOutcome}
    (h : SenderMove c guid enableLogging config t o th c' th') :
    th'.SpeaksFor c.environ guid ∨
      th.pc ≠ .start ∧ th'.upMessage = th.upMessage ∧ th'.downMessage = th.downMessage := by
  cases h with
  | prepare hpc => exact Or.inl ⟨rfl, rfl⟩
  | beginPass hpc => exact Or.inr ⟨by simp [hpc], rfl, rfl⟩
  | acquired hpc hc => exact Or.inr ⟨by simp [hpc], rfl, rfl⟩
  | @sent p r ip c' hpc hs hc hip =>
    obtain ⟨l, log, -, -, -, heq⟩ := sendTo_eq th p ip enableLogging o
    rw [heq]
    exact Or.inr ⟨by simp [hpc], rfl, rfl⟩
  | sendsEnd hpc hc => exact Or.inr ⟨by simp [hpc], rfl, rfl⟩
  | reported hpc hc => exact Or.inr ⟨by simp [hpc], rfl, rfl⟩
  | toFree hpc hs hc hf => exact Or.inr ⟨by simp [hpc], rfl, rfl⟩
  | @released p c' hpc hc =>
    obtain ⟨pc, heq⟩ := endPass_eq th p.closing c'.clock
    rw [heq]
    exact Or.inr ⟨by simp [hpc], rfl, rfl⟩
  | @freed closing c' hpc hc =>
    obtain ⟨pc, heq⟩ := endPass_eq th closing c'.clock
    rw [heq]
    exact Or.inr ⟨by simp [hpc], rfl, rfl⟩
  | woken hpc hw => exact Or.inr ⟨by simp [hpc], rfl, rfl⟩

/-- **What a sender has formatted stays**, or is formatted in this step; `P` is what is known of the
GUID. -/
theorem Move.speaks {a : Act} (h : Move s a s') {P : Text → Prop} (hP : P s.statics.redisGuid)
    (hth : s.senders[t]? = some th) (hth' : s'.senders[t]? = some th')
    (hold : th.pc = .start ∨ ∃ guid, P guid ∧ th.SpeaksFor s.cache.environ guid) :
    th'.pc = .start ∨ ∃ guid, P guid ∧ th'.SpeaksFor s.cache.environ guid := by
  obtain ⟨th1, hth1, hor⟩ := h.sender_cases hth
  obtain rfl : th1 = th' := Option.some.inj (hth1.symm.trans hth')
  rcases hor with rfl | ⟨n, rfl⟩ | ⟨o, -, hown⟩
  · exact hold
  · exact hold
  · -- a step of its own: it formats the two messages, or keeps them
    rcases hown.messages_eq with hnew | ⟨hpc, hup, hdown⟩
    · exact Or.inr ⟨_, hP, hnew⟩
    · obtain ⟨guid, hguid, hspeaks⟩ := hold.resolve_left hpc
      have htask := hown.fixed.1.2
      exact Or.inr ⟨guid, hguid, by rw [hup, htask, hspeaks.1], by rw [hdown, htask, hspeaks.2]⟩

/-- A sender that has begun has formatted both messages, of one broker. -/
theorem System.Reachable.speaks (h : s.Reachable) (hth : s.senders[t]? = some th) :
    th.pc = .start ∨ ∃ guid, th.SpeaksFor s.cache.environ guid := by
  have hall : s.Reachable ∧ ∀ (u : Nat) (thu : Sender), s.senders[u]? = some thu →
      thu.pc = .start ∨ ∃ guid, thu.SpeaksFor s.cache.environ guid := by
    refine Lts.Reachable.invariant (I := fun x => x.Reachable ∧ ∀ (u : Nat) (thu : Sender),
      x.senders[u]? = some thu → thu.pc = .start ∨
        ∃ guid, thu.SpeaksFor x.cache.environ guid) h ?_ ?_
    · rintro x ⟨e, clock, config, rfl⟩
      exact ⟨Lts.Reachable.of_init ⟨e, clock, config, rfl⟩, fun u thu hu => absurd hu (by
        simp [System.init])⟩
    · rintro x a y ⟨hx, hsp⟩ hst
      refine ⟨hx.next hst, fun u thv hv => ?_⟩
      have hmv := System.move_of_step hst
      rcases Nat.lt_or_ge u x.senders.length with hlt | hge
      · obtain ⟨thu, hu⟩ : ∃ thu, x.senders[u]? = some thu := ⟨_, List.getElem?_eq_getElem hlt⟩
        rw [hmv.environ hx.cache.inv]
        have hany := hmv.speaks (P := fun _ => True) trivial hu hv
        simp only [true_and] at hany
        exact hany (hsp u thu hu)
      · obtain ⟨-, a, rfl⟩ := hmv.new_sender hge hv
        exact Or.inl rfl
  exact hall.2 t th hth

/-- What goes out names the broker and says which kind of announcement it is, as far as the buffer
reaches. -/
def Pass.Announces (p : Pass) (name guid : Text) : Prop :=
  ∃ rest, p.message = snprintf messageSize
    (name ++ 9 :: guid ++ (if p.up then ascii "\tup\t" else ascii "\tdown\t") ++ rest)

theorem Pass.SpeaksFor.announces {p : Pass} {e : Environ} {guid : Text} {task : BroadcastTask}
    (h : p.SpeaksFor e guid task) : p.Announces e.getServiceName guid := by
  unfold Pass.SpeaksFor at h
  unfold Pass.Announces
  rw [h]
  cases p.up with
  | true =>
    refine ⟨task.sourceIp ++ 58 :: decimal task.redisPort ++ 9 :: decimal e.getInterval
      ++ 9 :: transport task.redisTls, ?_⟩
    simp only [if_true, upMessage, upText, List.append_assoc, List.cons_append]
  | false =>
    refine ⟨task.sourceIp ++ 58 :: decimal task.redisPort, ?_⟩
    simp only [Bool.false_eq_true, if_false, downMessage, downText, List.append_assoc,
      List.cons_append]

/-- **Every pass says what it is**: an `up` pass sends the `up` record, the closing pass the `down`
record, and both are of the same broker. -/
theorem System.Reachable.passes_speak (h : s.Reachable) (hth : s.senders[t]? = some th) :
    ∃ guid, ∀ p ∈ th.passes, p.SpeaksFor s.cache.environ guid th.task := by
  have hi := h.senders.sender t th hth
  rcases h.speaks hth with hpc | ⟨guid, hspeaks⟩
  · -- a sender that has not begun has no passes
    have hnone := hi.passes
    rw [hpc] at hnone
    exact ⟨[], fun p hp => absurd (show th.passes = [] from hnone) (List.ne_nil_of_mem hp)⟩
  · refine ⟨guid, fun p hp => ?_⟩
    rw [Pass.SpeaksFor, hi.message p hp, hspeaks.1, hspeaks.2]

/-! ## 4. The law -/

/-- **An acquire returns nothing** only because nothing was published in this load, or because
of the age of what was. -/
theorem System.Reachable.acquire_none (h : s.Reachable) (hth : s.senders[t]? = some th)
    (hpc : th.pc ≠ .exited) (hnone : s.cache.podCacheAcquire.2 = none) :
    s.cache.current = none ∧ s.cache.nextSnap = s.history.base ∨
      ∃ r, s.cache.current = some r ∧ s.cache.environ.getPodsMaxAge > 0 ∧
        s.cache.nowSeconds - (s.cache.snaps r).receivedAt > s.cache.environ.getPodsMaxAge := by
  have hl := h.life
  -- a sender that lives is one of this load, and so the refresher has not been joined
  have hk : 0 < s.statics.threadCount := by
    rcases Nat.lt_or_ge t s.settled with hlt | hge
    · exact absurd (hl.joined t th hth hlt).2 hpc
    · have hlt : t < s.senders.length := (List.getElem?_eq_some_iff.mp hth).1
      have hle : s.senders.length - s.statics.threadCount ≤ s.settled := Nat.le_add_right _ _
      omega
  obtain ⟨hrun, -⟩ := hl.running hk
  have hmax := h.cache.books.maxAge hrun
  unfold PodCache.podCacheAcquire at hnone
  cases hcur : s.cache.current with
  | none => exact Or.inl ⟨rfl, hl.unpublished (Or.inl hrun) hcur⟩
  | some r =>
    have hlive := h.cache.inv.owned (mem_owners_of_current hcur)
    simp only [hcur, PodCache.touchSnap_of_live hlive] at hnone
    split at hnone
    · rename_i hold
      rw [hmax] at hold
      exact Or.inr ⟨r, rfl, hold⟩
    · exact absurd hnone (by simp)

/-- **`down` once, last, and to the known pods.** -/
theorem down_once_last (s : System) (h : s.Reachable) :
    (∀ th ∈ s.senders, UpsThenDown th.passes) ∧
    (∀ a s', s.step a = some s' → ∀ (t : Nat) (th : Sender), s.senders[t]? = some th →
      ∃ th', s'.senders[t]? = some th' ∧ Begins s.cache th th' ∧ Acquires s.cache th th') ∧
    (s.cache.closing = true → ∀ s', Lts.Run System.step SameLoad s s' →
      ∀ (t : Nat) (th : Sender), s.senders[t]? = some th →
        ∃ th', s'.senders[t]? = some th' ∧ th'.ups = th.ups) ∧
    (∀ th ∈ s.senders, 0 < th.joined → ∃ down ups, th.passes = down :: ups ∧
      down.up = false ∧ down.attempts = down.ips ∧ ∀ p ∈ ups, p.up = true) ∧
    (∀ th ∈ s.senders, ∃ guid, ∀ p ∈ th.passes, p.SpeaksFor s.cache.environ guid th.task ∧
      p.Announces s.cache.environ.getServiceName guid) ∧
    (∀ th ∈ s.senders, ∀ p ∈ th.passes,
      p.ips = s.cache.addresses p.snapshot ∧ p.attempts <+: p.ips) ∧
    ∀ th ∈ s.senders, th.pc ≠ .exited → s.cache.podCacheAcquire.2 = none →
      s.cache.current = none ∧ s.cache.nextSnap = s.history.base ∨
        ∃ r, s.cache.current = some r ∧ s.cache.environ.getPodsMaxAge > 0 ∧
          s.cache.nowSeconds - (s.cache.snaps r).receivedAt > s.cache.environ.getPodsMaxAge := by
  refine ⟨?_, ?_, ?_, ?_, ?_, ?_, ?_⟩
  · intro th hth
    obtain ⟨t, ht⟩ := List.mem_iff_getElem?.mp hth
    exact (h.senders.sender t th ht).passes.upsThenDown
  · exact fun a s' hst t th hth => h.begins_step hst hth
  · exact fun hcl s' hr t th hth => h.ups_run hcl hr hth
  · intro th hth hj
    obtain ⟨t, ht⟩ := List.mem_iff_getElem?.mp hth
    have hexit : th.pc = .exited := by
      rcases Nat.lt_or_ge t s.settled with hlt | hge
      · exact (h.life.joined t th ht hlt).2
      · exact absurd (h.life.fresh t th ht hge) (by omega)
    have hp := (h.senders.sender t th ht).passes
    rw [hexit] at hp
    obtain ⟨p, rest, hps, hup, hover, hrest⟩ := hp
    exact ⟨p, rest, hps, hup, hover, fun q hq => (hrest q hq).1⟩
  · intro th hth
    obtain ⟨t, ht⟩ := List.mem_iff_getElem?.mp hth
    obtain ⟨guid, hguid⟩ := h.passes_speak ht
    exact ⟨guid, fun p hp => ⟨hguid p hp, (hguid p hp).announces⟩⟩
  · intro th hth p hp
    obtain ⟨t, ht⟩ := List.mem_iff_getElem?.mp hth
    have hi := h.senders.sender t th ht
    exact ⟨hi.ips p hp, hi.passes.prefix p hp⟩
  · intro th hth hpc hnone
    obtain ⟨t, ht⟩ := List.mem_iff_getElem?.mp hth
    exact h.acquire_none ht hpc hnone

/-- The joins, and for each pass what it announced and to whom. -/
def System.told (s : System) : List (Nat × List (Bool × List Text)) :=
  s.senders.map fun th => (th.joined, th.passes.map fun p => (p.up, p.attempts))

/-- One pass and a shutdown: the joined sender announced `up` and then `down` to its pod, and the
last record it sent is the `down` record. -/
theorem down_once_last_onePod :
    ∃ s : System, s.Reachable ∧ ∃ th ∈ s.senders, th.joined = 1 ∧ UpsThenDown th.passes ∧
      ∃ down ups guid, th.passes = down :: ups ∧ down.up = false ∧
        down.ips = [ascii "10.0.0.7"] ∧
        down.message = downMessage s.cache.environ.getServiceName guid th.task := by
  have hrun : (Lts.exec System.step
      (System.init {} 0 (portsConfig (ascii "6379") (ascii "0")))
      (startUp ++ refreshRound ++ senderOk :: passOverOne ++ shutDown)).map System.told =
        some [(1, [(false, [ascii "10.0.0.7"]), (true, [ascii "10.0.0.7"])])] := rfl
  obtain ⟨s, hs, htold⟩ := Option.map_eq_some_iff.mp hrun
  have hreach : s.Reachable := Lts.reachable_of_exec ⟨_, _, _, rfl⟩ hs
  obtain ⟨th, hth, htold⟩ := List.map_eq_singleton_iff.mp htold
  obtain ⟨hjoined, hpasses⟩ := Prod.mk.inj htold
  have hm : th ∈ s.senders := by
    rw [hth]
    exact List.mem_singleton_self th
  obtain ⟨hshape, -, -, hdown, hspeak, -, -⟩ := down_once_last s hreach
  obtain ⟨down, ups, hps, hup, hall, -⟩ := hdown th hm (by rw [hjoined]; exact Nat.one_pos)
  obtain ⟨guid, hguid⟩ := hspeak th hm
  have hsaid := (hguid down (by rw [hps]; exact List.mem_cons_self)).1
  refine ⟨s, hreach, th, hm, hjoined, hshape th hm, down, ups, guid, hps, hup, ?_, ?_⟩
  · rw [hps, List.map_cons] at hpasses
    rw [← hall]
    exact (Prod.mk.inj (List.cons.inj hpasses).1).2
  · rw [Pass.SpeaksFor, hup] at hsaid
    exact hsaid

end Histories

end Unicaster
