/-
# Where the addresses come from

Every list in the heap is what `parse_pod_list` made of some answer.  `Listed` keeps a property of
such lists over the steps of the cache: for what was published from snapshot number `base` on, and
for the list in the hands of the refresher.  A list reaches a sender only by way of `current`, so
the same property holds of whatever a sender attempts.

With the property "it is the list of an answer of this run" this says that no datagram goes to an
address the API did not list (`announced_to_listed`).
-/
import Unicaster.Port
import Unicaster.PodParse

namespace Unicaster

open CLib

/-! ## 1. Lists in the heap -/

/-- What was published from number `base` on is as `P` says, and so is the list in flight. -/
structure Listed (P : List Text → Prop) (base : Nat) (c : PodCache) : Prop where
  snaps : ∀ r, base ≤ r → r < c.nextSnap → P (c.podsOf r)
  flight : ∀ l, c.inFlight = some l → P (c.lists l).ips
  current : ∀ r, c.current = some r → base ≤ r

section Cache

variable {P P' : List Text → Prop} {base : Nat} {c c' : PodCache}

/-- **A step of the cache keeps it**, if the lists that requests bring are as it says. -/
theorem Listed.step (h : Listed P base c) (hc : c.Reachable) (hbase : base ≤ c.nextSnap)
    {a : CacheAct} (hst : c.step a = some c') (himp : ∀ ips, P ips → P' ips)
    (hnew : ∀ b ips, a = .fetchEnds b → (podListFetch c.environ.deploymentEnv b).list = .ok ips →
      P' ips) : Listed P' base c' := by
  have hi := hc.inv
  have hflight : ∀ l, c'.inFlight = some l → P' (c'.lists l).ips := by
    intro l hl
    rcases hi.inFlight_step hst hl with ⟨hin, hips⟩ | ⟨b, ips, hb, hok, hips⟩
    · rw [hips]
      exact himp _ (h.flight l hin)
    · rw [hips]
      exact hnew b ips hb hok
  have hold : ∀ r, base ≤ r → r < c.nextSnap → P' (c'.podsOf r) := by
    intro r hr hlt
    obtain ⟨-, -, hpods⟩ := hc.content_step hst hlt
    rw [hpods]
    exact himp _ (h.snaps r hr hlt)
  refine ⟨fun r hr hlt => ?_, hflight, fun r hcur => ?_⟩
  · rcases hi.step_cases hst with hq | ⟨th, receivedAt, l, -, hth, hpc, rfl⟩ | ⟨-, -, rfl⟩
    · exact hold r hr (hq.nextSnap ▸ hlt)
    · -- the one new snapshot holds what was in flight
      rcases Nat.lt_or_ge r c.nextSnap with hlt' | hge
      · exact hold r hr hlt'
      · have hlt' : r < c.nextSnap + 1 := hlt
        obtain rfl : r = c.nextSnap := by omega
        have hin : c.inFlight = some l := by
          simp only [PodCache.inFlight, hth, Option.bind_some, hpc, RefresherPc.inFlight]
        have hpods : (c.swap th receivedAt l).podsOf c.nextSnap = (c.lists l).ips := by
          simp only [PodCache.podsOf, PodCache.swap, Function.update_self]
        rw [hpods]
        exact himp _ (h.flight l hin)
    · exact hold r hr hlt
  · rcases hi.step_cases hst with hq | ⟨th, receivedAt, l, -, hth, hpc, rfl⟩ | ⟨-, -, rfl⟩
    · exact h.current r (hq.current ▸ hcur)
    · obtain rfl : c.nextSnap = r := Option.some.inj hcur
      exact hbase
    · exact absurd hcur (by simp)

/-- **What `pod_list_fetch` returns was made of its answer**: a transfer that was made and ended
well, with a body that is a pod list. -/
theorem podListFetch_exact {env : Option CString} {a : Answer} {ips : List Text}
    (h : (podListFetch env a).list = .ok ips) :
    a.Asked env ∧ a.res = 0 ∧ a.code = 200 ∧
      ∃ root items, a.body = .data root ∧ podItems root = some items ∧ Exact items ips := by
  obtain ⟨hasked, hres, hcode, root, hbody, hparse⟩ := podListFetch_ok h
  obtain ⟨hmalloc, items, hitems⟩ := parsePodList_ok hparse
  obtain ⟨ips', hok, hexact⟩ := parsePodList_of_items hitems
  rw [hmalloc, hok] at hparse
  obtain rfl : ips' = ips := Except.ok.inj hparse
  exact ⟨hasked, hres, hcode, root, items, hbody, hitems, hexact⟩

/-- No list is longer than `MAX_PODS`. -/
theorem PodCache.Reachable.podsOf_length_le (h : c.Reachable) {r : Nat} (hr : r < c.nextSnap) :
    (c.podsOf r).length ≤ maxPods := by
  have hall : c.Reachable ∧ Listed (fun ips => ips.length ≤ maxPods) 0 c := by
    refine Lts.Reachable.invariant
      (I := fun d => d.Reachable ∧ Listed (fun ips => ips.length ≤ maxPods) 0 d) h ?_ ?_
    · rintro d ⟨e, clock, rfl⟩
      refine ⟨Lts.Reachable.of_init ⟨e, clock, rfl⟩, fun r _ hlt => absurd hlt (Nat.not_lt_zero r),
        fun l hl => absurd hl (by simp [PodCache.inFlight, PodCache.init]),
        fun r _ => Nat.zero_le r⟩
    · rintro d a d' ⟨hd, hl⟩ hst
      refine ⟨hd.next hst, hl.step hd (Nat.zero_le _) hst (fun _ => id) ?_⟩
      intro b ips _ hok
      obtain ⟨-, -, -, root, items, -, -, hexact⟩ := podListFetch_exact hok
      exact hexact.short.trans (Nat.min_le_right _ _)
  exact hall.2.snaps r (Nat.zero_le r) hr

end Cache

/-! ## 2. One load -/

/-- What a sender of this load acquired was published in this load. -/
structure LoadListed (P : List Text → Prop) (first : Nat) (s : System) : Prop where
  cache : Listed P s.history.base s.cache
  base : s.history.base ≤ s.cache.nextSnap
  count : first ≤ s.senders.length
  passes : ∀ (t : Nat) (th : Sender), first ≤ t → s.senders[t]? = some th → ∀ p ∈ th.passes,
    ∀ r, p.snapshot = some r → s.history.base ≤ r

section Load

variable {P P' : List Text → Prop} {first : Nat} {s s' : System}

/-- The passes of a sender behind its own step: the old ones, or with what is current. -/
theorem SenderMove.snapshots {c c' : PodCache} {guid : Text} {enableLogging : Bool}
    {config : Config} {t : Nat} {o : SendOutcome} {th th' : Sender} (hc : c.Reachable)
    (h : SenderMove c guid enableLogging config t o th c' th') :
    ∀ p' ∈ th'.passes, ∀ r, p'.snapshot = some r →
      (∃ p ∈ th.passes, p.snapshot = some r) ∨ c.current = some r := by
  have hsame : th'.passes = th.passes → ∀ p' ∈ th'.passes, ∀ r, p'.snapshot = some r →
      (∃ p ∈ th.passes, p.snapshot = some r) ∨ c.current = some r := by
    intro heq p' hp' r hr
    exact Or.inl ⟨p', heq ▸ hp', hr⟩
  cases h with
  | prepare hpc => exact hsame rfl
  | beginPass hpc =>
    intro p' hp' r hr
    rcases List.mem_cons.mp hp' with rfl | hp'
    · exact absurd hr (by simp)
    · exact Or.inl ⟨p', hp', hr⟩
  | @acquired closing c' hpc hst =>
    intro p' hp' r hr
    rcases mem_onPass hp' with ⟨q, -, rfl⟩ | hold
    · obtain ⟨rd, hrd, -, hheld, -⟩ := hc.acquired_reader hst
      have hsnap : rd.held = some r := by
        rw [← hr, hrd, Option.bind_some]
      exact Or.inr (hheld r hsnap).1
    · exact Or.inl ⟨p', hold, hr⟩
  | @sent p r₀ ip c' hpc hs hst hip =>
    obtain ⟨l, log, -, -, -, heq⟩ := sendTo_eq th p ip enableLogging o
    rw [heq]
    intro p' hp' r hr
    rcases mem_onPass hp' with ⟨q, hq, rfl⟩ | hold
    · exact Or.inl ⟨q, hq, hr⟩
    · exact Or.inl ⟨p', hold, hr⟩
  | sendsEnd hpc hst => exact hsame rfl
  | reported hpc hst => exact hsame rfl
  | toFree hpc hs hst hf => exact hsame rfl
  | @released p c' hpc hst =>
    obtain ⟨pc, heq⟩ := endPass_eq th p.closing c'.clock
    rw [heq] at hsame ⊢
    exact hsame rfl
  | @freed closing c' hpc hst =>
    obtain ⟨pc, heq⟩ := endPass_eq th closing c'.clock
    rw [heq] at hsame ⊢
    exact hsame rfl
  | woken hpc hw => exact hsame rfl

/-- Within one load its history stays, but for what a start notes in it. -/
theorem Move.base {a : Act} (h : Move s a s') (hok : SameLoad s a) :
    s'.history.base = s.history.base := by
  cases h with
  | curlFails hm hloaded hbusy hcurl => exact absurd ⟨_, rfl, hloaded, hbusy⟩ hok
  | load hm hloaded hbusy hcurl => exact absurd ⟨_, rfl, hloaded, hbusy⟩ hok
  | @cron o s' hm hhook hst =>
    rcases cronBroadcastOnce_eq hst with rfl | ⟨-, -, c', -, ⟨-, rfl⟩ | ⟨-, rfl⟩⟩
    · rfl
    · rfl
    · rcases sendUdpMessage_eq { s with
          cache := c'
          statics := { s.statics with announced := true }
          history :=
            { s.history with starts := s.history.starts + 1, cacheStarted := true } } o with
        heq | heq | heq | ⟨ifaddr, patterns, heq⟩ <;> rw [heq]
  | @main o s' hst =>
    rcases mainStep_eq hst with ⟨hm, rfl⟩ | ⟨ifa, todo, hm, rfl⟩ |
      ⟨i, caller, s1, hm, hi, hj, rfl⟩ | ⟨i, caller, hm, hi, rfl⟩ | ⟨caller, c', hm, hc, rfl⟩
    · rfl
    · rcases spawnStep_eq s ifa o with heq | heq | ⟨a, slots, -, -, -, heq⟩ <;> rw [heq]
    · rcases joinStep_eq hj with ⟨rfl, -⟩ | ⟨t, th, -, -, -, rfl⟩ <;> rfl
    · rfl
    · split
      · cases caller <;> rfl
      · rfl
  | _ => rfl

/-- The step of the cache in a step of the system, if it takes one; requests end in their own
steps. -/
theorem System.cache_act {a : Act} (hst : s.step a = some s') :
    s'.cache = s.cache ∨ ∃ b, s.cache.step b = some s'.cache ∧
      ∀ x, b = .fetchEnds x → a = .fetchEnds x := by
  have hmv := System.move_of_step hst
  cases hmv with
  | @tick ns => exact Or.inr ⟨.tick ns, rfl, fun x hx => absurd hx (by simp)⟩
  | @refresher a b c' hb hc ha =>
    have hdef : s.undefined = false := by
      rw [← Bool.not_eq_true]
      intro hno
      unfold System.step at hst
      rw [if_pos hno] at hst
      exact absurd hst (by simp)
    have hown : ∀ d, s.step a = s.cacheStep d → (∀ x, d = .fetchEnds x → a = .fetchEnds x) →
        ∃ b, s.cache.step b = some c' ∧ ∀ x, b = .fetchEnds x → a = .fetchEnds x := by
      intro d hd hx
      rw [hst] at hd
      obtain ⟨c1, hc1, heq⟩ := cacheStep_eq hd.symm
      obtain rfl : c' = c1 := congrArg System.cache heq
      exact ⟨d, hc1, hx⟩
    refine Or.inr ?_
    cases a with
    | refresher =>
      exact hown .refresher (by simp [System.step, hdef]) fun x hx => absurd hx (by simp)
    | fetchEnds x =>
      refine hown (.fetchEnds x) (by simp [System.step, hdef]) fun y hy => ?_
      obtain rfl := CacheAct.fetchEnds.inj hy
      rfl
    | publishAlloc ok =>
      exact hown (.publishAlloc ok) (by simp [System.step, hdef]) fun x hx => absurd hx (by simp)
    | _ => exact ha.elim
  | sender hth hown =>
    rcases hown.cache with rfl | ⟨b, hb, hc⟩
    · exact Or.inl rfl
    · refine Or.inr ⟨b, hc, fun x hx => ?_⟩
      rw [hx] at hb
      exact hb.elim
  | configSet hm => exact Or.inl rfl
  | refused hm hbusy => exact Or.inr ⟨.closingBegin, rfl, fun x hx => absurd hx (by simp)⟩
  | curlFails hm hloaded hbusy hcurl =>
    exact Or.inr ⟨.closingReset, rfl, fun x hx => absurd hx (by simp)⟩
  | load hm hloaded hbusy hcurl =>
    exact Or.inr ⟨.closingReset, rfl, fun x hx => absurd hx (by simp)⟩
  | @cron o s' hm hhook hcron =>
    rcases cronBroadcastOnce_eq hcron with rfl | ⟨-, -, c', hc, ⟨-, rfl⟩ | ⟨-, rfl⟩⟩
    · exact Or.inl rfl
    · exact Or.inr ⟨_, hc, fun x hx => absurd hx (by simp)⟩
    · rw [sendUdpMessage_cache]
      exact Or.inr ⟨_, hc, fun x hx => absurd hx (by simp)⟩
  | cleanup hm hloaded ha => exact Or.inr ⟨.closingBegin, rfl, fun x hx => absurd hx (by simp)⟩
  | main hmain =>
    rcases mainStep_eq hmain with ⟨-, rfl⟩ | ⟨ifa, todo, -, rfl⟩ | ⟨i, caller, s1, -, -, hj, rfl⟩ |
      ⟨i, caller, -, -, rfl⟩ | ⟨caller, c', -, hc, rfl⟩
    · exact Or.inl rfl
    · rcases spawnStep_eq s ifa _ with h | h | ⟨a, slots, -, -, -, h⟩
      · rw [h]
        exact Or.inl rfl
      · rw [h]
        exact Or.inl rfl
      · rw [h]
        exact Or.inr ⟨.spawnReader, rfl, fun x hx => absurd hx (by simp)⟩
    · rcases joinStep_eq hj with ⟨rfl, -⟩ | ⟨t, th, -, -, -, rfl⟩ <;> exact Or.inl rfl
    · exact Or.inl rfl
    · refine Or.inr ⟨.stop, ?_, fun x hx => absurd hx (by simp)⟩
      split
      · rw [returnTo_cache]
        exact hc
      · exact hc

/-- **Every step within one load keeps it.** -/
theorem LoadListed.step (h : LoadListed P first s) (hr : s.Reachable) {a : Act}
    (hok : SameLoad s a) (hst : s.step a = some s') (himp : ∀ ips, P ips → P' ips)
    (hnew : ∀ b ips, a = .fetchEnds b →
      (podListFetch s.cache.environ.deploymentEnv b).list = .ok ips → P' ips) :
    LoadListed P' first s' := by
  have hmv := System.move_of_step hst
  have hbase := hmv.base hok
  have hcache : Listed P' s.history.base s'.cache ∧ s.cache.nextSnap ≤ s'.cache.nextSnap := by
    rcases System.cache_act hst with heq | ⟨b, hb, hact⟩
    · rw [heq]
      exact ⟨⟨fun r hr hlt => himp _ (h.cache.snaps r hr hlt),
        fun l hl => himp _ (h.cache.flight l hl), h.cache.current⟩, Nat.le_refl _⟩
    · refine ⟨h.cache.step hr.cache h.base hb himp fun x ips hx hok => hnew x ips (hact x hx) hok,
        ?_⟩
      rcases hr.cache.inv.step_cases hb with hq | ⟨th, receivedAt, l, -, -, -, heq⟩ | ⟨-, -, heq⟩
      · exact le_of_eq hq.nextSnap.symm
      · rw [heq]
        exact Nat.le_succ _
      · exact le_of_eq (congrArg PodCache.nextSnap heq).symm
  refine ⟨hbase ▸ hcache.1, hbase ▸ h.base.trans hcache.2, h.count.trans hmv.length_le, ?_⟩
  intro t th' hge hth' p' hp' r hsnap
  rw [hbase]
  rcases Nat.lt_or_ge t s.senders.length with hlt | hnew'
  · obtain ⟨th, hth⟩ : ∃ th, s.senders[t]? = some th := ⟨_, List.getElem?_eq_getElem hlt⟩
    obtain ⟨th1, hth1, hor⟩ := hmv.sender_cases hth
    obtain rfl : th1 = th' := Option.some.inj (hth1.symm.trans hth')
    rcases hor with rfl | ⟨m, rfl⟩ | ⟨o, -, hown⟩
    · exact h.passes t th1 hge hth p' hp' r hsnap
    · exact h.passes t th hge hth p' hp' r hsnap
    · rcases hown.snapshots hr.cache p' hp' r hsnap with ⟨p, hp, hsame⟩ | hcur
      · exact h.passes t th hge hth p hp r hsame
      · exact h.cache.current r hcur
  · obtain ⟨-, a, rfl⟩ := hmv.new_sender hnew' hth'
    exact absurd hp' (by simp [Sender.create])

end Load

/-! ## 3. From the answers to the datagrams -/

/-- Some request that ended in these actions brought this list. -/
def Brought (e : Environ) (as : List Act) (ips : List Text) : Prop :=
  ∃ b, Act.fetchEnds b ∈ as ∧ (podListFetch e.deploymentEnv b).list = .ok ips

section Provenance

variable {e : Environ} {s₀ s₁ s : System} {o : LoadOutcome} {as : List Act}

/-- A load begins with nothing of an earlier one alive. -/
theorem System.Reachable.closed_of_newLoad (h : s.Reachable) {a : Act} {s' : System}
    (hnew : NewLoad s a) (hst : s.step a = some s') : Closed s := by
  obtain ⟨o, rfl, hloaded, -⟩ := hnew
  have hclosed : s.main = .idle → Closed s := by
    intro hm
    refine h.closed hm fun hlive => ?_
    rw [hlive.1] at hloaded
    exact absurd hloaded (by simp)
  cases System.move_of_step hst with
  | refresher hb hc ha => exact ha.elim
  | refused hm hbusy => exact hclosed hm
  | curlFails hm => exact hclosed hm
  | load hm => exact hclosed hm
  | cleanup hm hl ha => exact ha.elim

/-- A load finds nothing published, nothing in flight and none of its own senders. -/
theorem LoadListed.start (h₀ : s₀.Reachable) (hnew : NewLoad s₀ (.load o))
    (hst : s₀.step (.load o) = some s₁) (P : List Text → Prop) :
    LoadListed P s₁.senders.length s₁ ∧ s₁.senders = s₀.senders ∧
      ∀ th ∈ s₀.senders, th.pc = .exited := by
  have hcl := h₀.closed_of_newLoad hnew hst
  obtain ⟨o', heq, hloaded, hfree⟩ := hnew
  obtain rfl := Act.load.inj heq
  have hmv := System.move_of_step hst
  have hfrom : s₁.cache = { s₀.cache with closing := false } →
      s₁.history.base = s₀.cache.nextSnap → s₁.senders = s₀.senders →
      LoadListed P s₁.senders.length s₁ ∧ s₁.senders = s₀.senders ∧
        ∀ th ∈ s₀.senders, th.pc = .exited := by
    intro hcache hbase hsenders
    refine ⟨⟨⟨?_, ?_, ?_⟩, ?_, Nat.le_refl _, ?_⟩, hsenders, fun th hth => (hcl.senders th hth).1⟩
    · intro r hr hlt
      rw [hbase] at hr
      rw [hcache] at hlt
      exact absurd (Nat.lt_of_le_of_lt hr hlt) (Nat.lt_irrefl _)
    · intro l hl
      rw [hcache, PodCache.inFlight, hcl.refresher] at hl
      exact absurd hl (by simp)
    · intro r hr
      rw [hcache, hcl.current] at hr
      exact absurd hr (by simp)
    · rw [hbase, hcache]
    · intro t th hge hth
      have := (List.getElem?_eq_some_iff.mp hth).1
      omega
  cases hmv with
  | refresher hb hc ha => exact ha.elim
  | refused hm hbusy => simp [hloaded, hfree] at hbusy
  | curlFails hm => exact hfrom rfl rfl rfl
  | load hm => exact hfrom rfl rfl rfl
  | cleanup hm hl ha => exact ha.elim

/-- Whatever is published within the load was brought by a request of the load. -/
theorem LoadListed.trace (h : LoadListed (Brought s₁.cache.environ []) s₁.senders.length s₁)
    (hr : s₁.Reachable) (htr : Lts.Trace System.step SameLoad s₁ as s) :
    LoadListed (Brought s₁.cache.environ as) s₁.senders.length s ∧ s.Reachable := by
  have hall : (s.Reachable ∧ s.cache.environ = s₁.cache.environ) ∧
      LoadListed (Brought s₁.cache.environ as) s₁.senders.length s := by
    refine Lts.Trace.history (l := []) (I := fun pre t => (t.Reachable ∧
      t.cache.environ = s₁.cache.environ) ∧
        LoadListed (Brought s₁.cache.environ pre) s₁.senders.length t) ?_ htr ⟨⟨hr, rfl⟩, h⟩
    rintro pre t a u ⟨⟨ht, henv⟩, hl⟩ hok hst
    refine ⟨⟨ht.next hst, ((System.move_of_step hst).environ ht.cache.inv).trans henv⟩, ?_⟩
    refine hl.step ht hok hst ?_ ?_
    · rintro ips ⟨b, hb, hips⟩
      exact ⟨b, List.mem_append_left _ hb, hips⟩
    · intro b ips hb hips
      rw [henv] at hips
      exact ⟨b, List.mem_append_right _ (List.mem_singleton.mpr hb.symm), hips⟩
  exact ⟨hall.2, hall.1.1⟩

/-- **No datagram goes to an address the API did not list in this load.**  A pass of a sender of
the load that got a list got all of it from one answer of the load, a good one: exactly the
addresses of the eligible pods of that answer.  What it attempted is a part of that list, each
address once, and each one that `send_unicast_message` sends to.  A pass that got no list attempts
nothing, and the senders of earlier loads make no pass. -/
theorem announced_to_listed (s₀ s₁ : System) (o : LoadOutcome) (h₀ : s₀.Reachable)
    (hnew : NewLoad s₀ (.load o)) (hst : s₀.step (.load o) = some s₁) (as : List Act) (s : System)
    (htr : Lts.Trace System.step SameLoad s₁ as s) :
    (∀ (t : Nat) (th : Sender), s₁.senders[t]? = some th →
      ∃ th', s.senders[t]? = some th' ∧ th'.passes = th.passes) ∧
    ∀ (t : Nat) (th : Sender), s₁.senders.length ≤ t → s.senders[t]? = some th →
      ∀ p ∈ th.passes,
        (p.snapshot = none → p.attempts = []) ∧
        (p.snapshot ≠ none → ∃ b root items, Act.fetchEnds b ∈ as ∧
          b.Asked s₁.cache.environ.deploymentEnv ∧ b.res = 0 ∧ b.code = 200 ∧
          b.body = .data root ∧ podItems root = some items ∧ Exact items p.ips) ∧
        p.attempts <+: p.ips ∧ p.attempts.Nodup ∧
        ∀ ip ∈ p.attempts, ∀ sent : SendOutcome, sent.socketOk = true → sent.sendtoOk = true →
          sendUnicastMessage ip sent = none := by
  obtain ⟨hload, hsame, hexited⟩ := LoadListed.start h₀ hnew hst (Brought s₁.cache.environ [])
  obtain ⟨hl, hs⟩ := hload.trace (h₀.next hst) htr
  refine ⟨?_, ?_⟩
  · intro t th hth
    exact exited_run hth (hexited th (hsame ▸ List.mem_of_getElem? hth)) htr.run
  · intro t th hge hth p hp
    have hi := hs.senders.sender t th hth
    have hips := hi.ips p hp
    have hpre := hi.passes.prefix p hp
    cases hsnap : p.snapshot with
    | none =>
      have hempty : p.ips = [] := by
        rw [hips, hsnap]
        rfl
      have hnil : p.attempts = [] := List.prefix_nil.mp (hempty ▸ hpre)
      refine ⟨fun _ => hnil, fun hne => absurd rfl hne, hpre, ?_, fun ip hip => ?_⟩
      · rw [hnil]
        exact List.nodup_nil
      · rw [hnil] at hip
        exact absurd hip (by simp)
    | some r =>
      have hpods : p.ips = s.cache.podsOf r := by
        rw [hips, hsnap]
        rfl
      obtain ⟨b, hb, hok⟩ := hl.cache.snaps r (hl.passes t th hge hth p hp r hsnap)
        (hi.known p hp r hsnap)
      rw [← hpods] at hok
      obtain ⟨hasked, hres, hcode, root, items, hbody, hitems, hexact⟩ :=
        podListFetch_exact hok
      refine ⟨fun hno => absurd hno (by simp), fun _ => ⟨b, root, items, hb, hasked, hres, hcode,
        hbody, hitems, hexact⟩, hpre, ?_, ?_⟩
      · refine hpre.sublist.nodup (hexact.sorted.imp fun hlt heq => ?_)
        exact Std.lt_irrefl (heq ▸ hlt)
      · intro ip hip sent hso hto
        exact (hexact.quad ip (hpre.subset hip)).sent sent hso hto

/-- The first round of the refresher, and then the first pass of the one sender. -/
def listedRun : List Act :=
  [oneInterface, mainOk, mainOk] ++ refreshRound ++ List.replicate 4 senderOk

theorem announced_to_listed_onePod :
    ∃ s, Lts.Trace System.step SameLoad (loadedWith (ascii "6379") (ascii "0")) listedRun s ∧
      ∃ th ∈ s.senders, ∃ p ∈ th.passes, p.attempts = [ascii "10.0.0.7"] ∧
        p.attempts <+: p.ips := by
  have hview : (Lts.execIf System.step (fun _ a => !a.isLoad)
      (loadedWith (ascii "6379") (ascii "0")) listedRun).map
        (fun s => s.senders.map fun th => th.passes.map (·.attempts)) =
          some [[[ascii "10.0.0.7"]]] := by decide +kernel
  obtain ⟨s, hs, hpass⟩ := Option.map_eq_some_iff.mp hview
  have htr :
      Lts.Trace System.step SameLoad (loadedWith (ascii "6379") (ascii "0")) listedRun s := by
    refine Lts.trace_of_execIf (fun t a ha => ?_) hs
    rintro ⟨o, rfl, -⟩
    exact absurd ha (by simp [Act.isLoad])
  obtain ⟨th, hth, hps⟩ := List.map_eq_singleton_iff.mp hpass
  obtain ⟨p, hp, hatt⟩ := List.map_eq_singleton_iff.mp hps
  have hload := successfulLoad_loadedWith (ascii "6379") (ascii "0")
  have h := (announced_to_listed _ _ _ hload.reachable ⟨_, rfl, rfl, rfl⟩ hload.step listedRun s
    htr).2 0 th (Nat.le_refl 0) (by rw [hth]; rfl) p (by rw [hp]; exact List.mem_singleton_self p)
  exact ⟨s, htr, th, by rw [hth]; exact List.mem_singleton_self th, p,
    by rw [hp]; exact List.mem_singleton_self p, hatt, h.2.2.1⟩

end Provenance

end Unicaster
