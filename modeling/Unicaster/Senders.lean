/-
# What a sender announces

The passes of a sender can be read off the place where it stands (`SenderPc.Passes`), and so can
what it holds of the cache (`SenderPc.Reads`).  From the two follow the shape of every history
(`up` passes, then at most one `down` pass), that a pass attempts every address of the snapshot
it acquired, and that what it acquires is lost only to age while the senders live.
-/
import Unicaster.LifeCycle

namespace Unicaster

open CLib

/-! ## 1. The passes, place by place -/

/-- The addresses of what `pod_cache_acquire` returned. -/
def PodCache.addresses (c : PodCache) (snapshot : Option Nat) : List Text :=
  (snapshot.map c.podsOf).getD []

/-- Passes that are over, all of them `up`. -/
def UpPasses (ps : List Pass) : Prop := ∀ p ∈ ps, p.up = true ∧ p.attempts = p.ips

/-- The latest pass began with this value of the flag and is as `P` says; the earlier ones are
over, and `up`. -/
def LatestPass (ps : List Pass) (closing : Bool) (P : Pass → Prop) : Prop :=
  ∃ p rest, ps = p :: rest ∧ p.up = !closing ∧ P p ∧ UpPasses rest

/-- The passes of a sender that stands there. -/
def SenderPc.Passes : SenderPc → List Pass → Prop
  | .start, ps => ps = []
  | .check, ps => UpPasses ps
  | .acquiring closing, ps =>
    LatestPass ps closing fun p => p.snapshot = none ∧ p.ips = [] ∧ p.attempts = []
  | .sending l, ps =>
    LatestPass ps l.closing fun p => p.snapshot = l.snapshot ∧ p.attempts = p.ips.take l.i
  | .reporting l, ps => LatestPass ps l.closing fun p => p.attempts = p.ips
  | .releasing l, ps => LatestPass ps l.closing fun p => p.attempts = p.ips
  | .freeing closing, ps => LatestPass ps closing fun p => p.attempts = p.ips
  | .sleeping _, ps => UpPasses ps
  | .exited, ps => LatestPass ps true fun p => p.attempts = p.ips

/-- What it holds of the cache, and what it is about to free. -/
def SenderPc.Reads : SenderPc → Option Nat → Option Nat → Prop
  | .sending l, held, dying => held = l.snapshot ∧ dying = none
  | .reporting l, held, dying => held = l.snapshot ∧ dying = none
  | .releasing l, held, dying => held = l.snapshot ∧ dying = none
  | .freeing _, held, dying => held = none ∧ dying ≠ none
  | _, held, dying => held = none ∧ dying = none

structure SenderInv (c : PodCache) (t : Nat) (th : Sender) : Prop where
  passes : th.pc.Passes th.passes
  reader : ∃ rd, c.readers[t]? = some rd ∧ th.pc.Reads rd.held rd.freeing
  ips : ∀ p ∈ th.passes, p.ips = c.addresses p.snapshot
  known : ∀ p ∈ th.passes, ∀ r, p.snapshot = some r → r < c.nextSnap
  message : ∀ p ∈ th.passes, p.message = if p.up then th.upMessage else th.downMessage

section Sender

variable {c c' : PodCache} {th th' : Sender} {t : Nat}

/-- The addresses of a snapshot stay what they are. -/
theorem PodCache.Reachable.addresses_step (h : c.Reachable) {b : CacheAct}
    (hst : c.step b = some c') {snapshot : Option Nat}
    (hlt : ∀ r, snapshot = some r → r < c.nextSnap) :
    c'.addresses snapshot = c.addresses snapshot ∧
      ∀ r, snapshot = some r → r < c'.nextSnap := by
  cases snapshot with
  | none => exact ⟨rfl, fun r hr => absurd hr (by simp)⟩
  | some r =>
    obtain ⟨h1, -, h2⟩ := h.content_step hst (hlt r rfl)
    exact ⟨h2, fun q hq => Option.some.inj hq ▸ h1⟩

/-- A sender stays as it is while others move. -/
theorem SenderInv.stays (h : SenderInv c t th) (hc : c.Reachable) {b : CacheAct}
    (hst : c.step b = some c') (hrd : c'.readers[t]? = c.readers[t]?) : SenderInv c' t th where
  passes := h.passes
  reader := by
    rw [hrd]
    exact h.reader
  ips := fun p hp => (h.ips p hp).trans (hc.addresses_step hst (h.known p hp)).1.symm
  known := fun p hp => (hc.addresses_step hst (h.known p hp)).2
  message := h.message

/-- A reader's step is about that reader. -/
theorem CacheInv.readers_step (h : CacheInv c) {b : CacheAct} (hb : b.OfReader t)
    (hst : c.step b = some c') :
    c'.readers.length = c.readers.length ∧ ∀ u, u ≠ t → c'.readers[u]? = c.readers[u]? := by
  obtain ⟨-, -, -, -, rfl | ⟨rd, hrd⟩⟩ := h.reader_step hb hst
  · exact ⟨rfl, fun _ _ => rfl⟩
  · rw [hrd]
    exact ⟨List.length_set, fun u hu => List.getElem?_set_ne (Ne.symm hu)⟩

/-- What an acquire leaves its reader with. -/
theorem PodCache.Reachable.acquired_reader (h : c.Reachable)
    (hst : c.step (.acquire t) = some c') :
    ∃ rd, c'.readers[t]? = some rd ∧ rd.freeing = none ∧
      (∀ r, rd.held = some r → c.current = some r ∧ r < c'.nextSnap) ∧
      (rd.held = none → c' = c ∧ c.podCacheAcquire = (c, none)) := by
  have hi := h.inv
  cases hi.move_of_step hst with
  | refused hrd hacq => exact ⟨_, hrd, rfl, fun r hr => absurd hr (by simp), fun _ => ⟨rfl, hacq⟩⟩
  | @acquired t r acquired hrd hcur hfresh =>
    have hlt : t < c.readers.length := (List.getElem?_eq_some_iff.mp hrd).1
    have hrlt := (hi.owned (mem_owners_of_current hcur)).1
    refine ⟨⟨some r, none, r :: acquired⟩, List.getElem?_set_self hlt, rfl, fun q hq => ?_,
      fun hno => absurd hno (by simp)⟩
    obtain rfl : r = q := Option.some.inj hq
    exact ⟨hcur, hrlt⟩

/-- What a release leaves its reader with. -/
theorem CacheInv.released_reader (h : CacheInv c) (hst : c.step (.release t) = some c') :
    ∃ rd, c'.readers[t]? = some rd ∧ rd.held = none := by
  cases h.move_of_step hst with
  | releasedLast hrd h0 =>
    exact ⟨_, List.getElem?_set_self (List.getElem?_eq_some_iff.mp hrd).1, rfl⟩
  | released hrd h0 =>
    exact ⟨_, List.getElem?_set_self (List.getElem?_eq_some_iff.mp hrd).1, rfl⟩

theorem CacheInv.freed_reader (h : CacheInv c) (hst : c.step (.free t) = some c') :
    ∃ rd, c'.readers[t]? = some rd ∧ rd.held = none ∧ rd.freeing = none := by
  cases h.move_of_step hst with
  | freed hrd =>
    exact ⟨_, List.getElem?_set_self (List.getElem?_eq_some_iff.mp hrd).1, rfl, rfl⟩

theorem LatestPass.imp {ps : List Pass} {closing : Bool} {P Q : Pass → Prop}
    (h : LatestPass ps closing P) (hpq : ∀ p ∈ ps, P p → Q p) : LatestPass ps closing Q := by
  obtain ⟨p, rest, rfl, hup, hp, hrest⟩ := h
  exact ⟨p, rest, rfl, hup, hpq p List.mem_cons_self hp, hrest⟩

/-- The pass that is going on changes, but for its datagram. -/
theorem LatestPass.onPass {closing : Bool} {P Q : Pass → Prop} {f : Pass → Pass}
    (h : LatestPass th.passes closing P) (hup : ∀ p, (f p).up = p.up)
    (hpq : ∀ p ∈ th.passes, P p → Q (f p)) : LatestPass (th.onPass f).passes closing Q := by
  obtain ⟨p, rest, hps, hpup, hp, hrest⟩ := h
  refine ⟨f p, rest, ?_, (hup p).trans hpup, hpq p ?_ hp, hrest⟩
  · simp only [Sender.onPass, hps]
  · rw [hps]
    exact List.mem_cons_self

/-- The passes of a sender whose latest one changed. -/
theorem mem_onPass {f : Pass → Pass} {p : Pass} (h : p ∈ (th.onPass f).passes) :
    (∃ q ∈ th.passes, p = f q) ∨ p ∈ th.passes := by
  unfold Sender.onPass at h
  cases hps : th.passes with
  | nil =>
    rw [hps] at h
    exact absurd h (by simp)
  | cons q rest =>
    rw [hps] at h
    rcases List.mem_cons.mp h with rfl | hm
    · exact Or.inl ⟨q, List.mem_cons_self, rfl⟩
    · exact Or.inr (List.mem_cons_of_mem _ hm)

/-- What holds of the passes and of a changed pass holds of the passes behind the change. -/
theorem forall_onPass {f : Pass → Pass} {P : Pass → Prop} (hf : ∀ q ∈ th.passes, P (f q))
    (h : ∀ q ∈ th.passes, P q) : ∀ p ∈ (th.onPass f).passes, P p := by
  intro p hm
  rcases mem_onPass hm with ⟨q, hq, rfl⟩ | hm
  · exact hf q hq
  · exact h p hm

/-- Where a round ends, its pass is over: the last one if it was `down`. -/
theorem LatestPass.ends {ps : List Pass} {closing : Bool} (th : Sender) (clock : Int)
    (h : LatestPass ps closing fun p => p.attempts = p.ips) :
    (th.endPass closing clock).pc.Passes ps := by
  cases closing with
  | true => exact h
  | false =>
    obtain ⟨p, rest, rfl, hup, hover, hrest⟩ := h
    intro q hq
    rcases List.mem_cons.mp hq with rfl | hq
    · exact ⟨hup, hover⟩
    · exact hrest q hq

theorem endPass_reads (th : Sender) (closing : Bool) (clock : Int) :
    (th.endPass closing clock).pc.Reads none none := by
  cases closing <;> exact ⟨rfl, rfl⟩

theorem endPass_eq (th : Sender) (closing : Bool) (clock : Int) :
    ∃ pc, th.endPass closing clock = { th with pc := pc } := by
  cases closing <;> exact ⟨_, rfl⟩

theorem report_eq (th : Sender) (p : PassLocals) (count : Nat) :
    ∃ log wasFailing, th.report p count =
      { th with pc := .releasing p, log := log, wasFailing := wasFailing } := ⟨_, _, rfl⟩

/-- A send, whatever comes of it: one more attempt, and the next index. -/
theorem sendTo_eq (th : Sender) (p : PassLocals) (ip : Text) (enableLogging : Bool)
    (o : SendOutcome) :
    ∃ l log, l.closing = p.closing ∧ l.snapshot = p.snapshot ∧ l.i = p.i + 1 ∧
      th.sendTo p ip enableLogging o =
        { th.onPass fun q => { q with attempts := q.attempts ++ [ip] } with
          pc := .sending l
          log := log } := by
  unfold Sender.sendTo
  dsimp only
  split
  · rename_i errno _
    exact ⟨{ p with i := p.i + 1, failed := p.failed + 1, lastErrno := errno,
                    lastFailedIp := some ip }, th.log, rfl, rfl, rfl, rfl⟩
  · exact ⟨{ p with i := p.i + 1 }, _, rfl, rfl, rfl, rfl⟩

/-- What earlier passes acquired is still what it was. -/
def PassesKept (c : PodCache) (th : Sender) : Prop :=
  ∀ p ∈ th.passes, p.ips = c.addresses p.snapshot ∧ ∀ r, p.snapshot = some r → r < c.nextSnap

theorem SenderInv.kept (h : SenderInv c t th) (hc : c.Reachable) {b : CacheAct}
    (hst : c.step b = some c') : PassesKept c' th := by
  intro p hm
  obtain ⟨hsame, hlt⟩ := hc.addresses_step hst (h.known p hm)
  exact ⟨(h.ips p hm).trans hsame.symm, hlt⟩

theorem SenderInv.passesKept (h : SenderInv c t th) : PassesKept c th := fun p hm =>
  ⟨h.ips p hm, h.known p hm⟩

/-- The messages are formatted before the first pass. -/
theorem SenderInv.prepared (h : SenderInv c t th) (hpc : th.pc = .start) (guid : Text) :
    SenderInv c t (th.prepare c.environ guid) := by
  have hnil : th.passes = [] := by
    have hp := h.passes
    rwa [hpc] at hp
  obtain ⟨rd, hrd, hreads⟩ := h.reader
  rw [hpc] at hreads
  refine ⟨?_, ⟨rd, hrd, hreads⟩, h.ips, h.known, ?_⟩
  · change UpPasses th.passes
    rw [hnil]
    exact fun p hm => absurd hm (by simp)
  · change ∀ p ∈ th.passes, _
    rw [hnil]
    exact fun p hm => absurd hm (by simp)

/-- A pass begins. -/
theorem SenderInv.beginsPass (h : SenderInv c t th) (hpc : th.pc = .check) (config : Config) :
    SenderInv c t (th.beginPass c.closing config) := by
  have hp := h.passes
  obtain ⟨rd, hrd, hreads⟩ := h.reader
  rw [hpc] at hp hreads
  refine ⟨⟨_, _, rfl, rfl, ⟨rfl, rfl, rfl⟩, hp⟩, ⟨rd, hrd, hreads⟩, ?_, ?_, ?_⟩
  · intro p hm
    rcases List.mem_cons.mp hm with rfl | hm
    · rfl
    · exact h.ips p hm
  · intro p hm r hr
    rcases List.mem_cons.mp hm with rfl | hm
    · exact absurd hr (by simp)
    · exact h.known p hm r hr
  · intro p hm
    rcases List.mem_cons.mp hm with rfl | hm
    · cases c.closing <;> rfl
    · exact h.message p hm

/-- It acquires the list. -/
theorem SenderInv.acquires (h : SenderInv c t th) (hc : c.Reachable) {closing : Bool}
    (hpc : th.pc = .acquiring closing) (hst : c.step (.acquire t) = some c') :
    SenderInv c' t (th.acquired closing (c'.readers[t]?.bind (·.held))
      (((c'.readers[t]?.bind (·.held)).map c'.podsOf).getD [])) := by
  have hp := h.passes
  have hkept := h.kept hc hst
  rw [hpc] at hp
  obtain ⟨rd', hrd', hfree, hheld, -⟩ := hc.acquired_reader hst
  have hsnap : c'.readers[t]?.bind (·.held) = rd'.held := by rw [hrd', Option.bind_some]
  rw [hsnap]
  refine ⟨?_, ⟨rd', hrd', rfl, hfree⟩, ?_, ?_, ?_⟩
  · exact LatestPass.onPass hp (fun _ => rfl) fun p _ hpp => ⟨rfl, by
      rw [List.take_zero]
      exact hpp.2.2⟩
  · exact forall_onPass (fun _ _ => rfl) fun p hm => (hkept p hm).1
  · exact forall_onPass (fun _ _ r hr => (hheld r hr).2) fun p hm => (hkept p hm).2
  · exact forall_onPass h.message h.message

/-- It attempts the next address. -/
theorem SenderInv.sends (h : SenderInv c t th) {p : PassLocals} {r : Nat} {ip : Text}
    (hpc : th.pc = .sending p) (hs : p.snapshot = some r) (hip : (c.podsOf r)[p.i]? = some ip)
    (enableLogging : Bool) (o : SendOutcome) : SenderInv c t (th.sendTo p ip enableLogging o) := by
  have hp := h.passes
  obtain ⟨rd, hrd, hreads⟩ := h.reader
  rw [hpc] at hp hreads
  obtain ⟨l, log, hl1, hl2, hl3, heq⟩ := sendTo_eq th p ip enableLogging o
  rw [heq]
  refine ⟨?_, ⟨rd, hrd, ?_⟩, ?_, ?_, ?_⟩
  · change LatestPass _ l.closing _
    rw [hl1, hl2, hl3]
    refine LatestPass.onPass hp (fun _ => rfl) fun q hq hqq => ⟨hqq.1, ?_⟩
    have hips : q.ips = c.podsOf r := by
      rw [h.ips q hq, hqq.1, hs]
      rfl
    change q.attempts ++ [ip] = q.ips.take (p.i + 1)
    rw [hqq.2, List.take_add_one, hips, hip, Option.toList_some]
  · change rd.held = l.snapshot ∧ rd.freeing = none
    rw [hl2]
    exact hreads
  · exact forall_onPass h.ips h.ips
  · exact forall_onPass h.known h.known
  · exact forall_onPass h.message h.message

/-- It has come to the end of the list. -/
theorem SenderInv.sendsEnd (h : SenderInv c t th) {p : PassLocals} (hpc : th.pc = .sending p)
    (hend : ∀ q ∈ th.passes, q.snapshot = p.snapshot → q.ips.length ≤ p.i) :
    SenderInv c t { th with pc := .reporting p } := by
  have hp := h.passes
  obtain ⟨rd, hrd, hreads⟩ := h.reader
  rw [hpc] at hp hreads
  refine ⟨?_, ⟨rd, hrd, hreads⟩, h.ips, h.known, h.message⟩
  refine LatestPass.imp hp fun q hq hqq => ?_
  rw [hqq.2]
  exact List.take_of_length_le (hend q hq hqq.1)

/-- It has given the list back, and its pass is over. -/
theorem SenderInv.endsPass (h : SenderInv c t th) {closing : Bool}
    (hover : LatestPass th.passes closing fun p => p.attempts = p.ips) (hkept : PassesKept c' th)
    {rd : Reader} (hrd : c'.readers[t]? = some rd) (hheld : rd.held = none)
    (hfreeing : rd.freeing = none) : SenderInv c' t (th.endPass closing c'.clock) := by
  have hends := LatestPass.ends th c'.clock hover
  have hreads := endPass_reads th closing c'.clock
  obtain ⟨pc, heq⟩ := endPass_eq th closing c'.clock
  rw [heq] at hends hreads ⊢
  exact ⟨hends, ⟨rd, hrd, by rw [hheld, hfreeing]; exact hreads⟩, fun q hm => (hkept q hm).1,
    fun q hm => (hkept q hm).2, h.message⟩

/-- **A sender's own step keeps its invariant.** -/
theorem SenderInv.move {guid : Text} {enableLogging : Bool} {config : Config} {o : SendOutcome}
    (h : SenderInv c t th) (hc : c.Reachable)
    (hmv : SenderMove c guid enableLogging config t o th c' th') : SenderInv c' t th' := by
  have hp := h.passes
  obtain ⟨rd, hrd, hreads⟩ := h.reader
  cases hmv with
  | prepare hpc => exact h.prepared hpc guid
  | beginPass hpc => exact h.beginsPass hpc config
  | acquired hpc hst => exact h.acquires hc hpc hst
  | @sent p r ip c' hpc hs hst hip =>
    obtain rfl : c' = c := hc.inv.readStep hst
    exact h.sends hpc hs hip enableLogging o
  | @sendsEnd p c' hpc hst =>
    have hsame : c' = c ∧ ∀ q ∈ th.passes, q.snapshot = p.snapshot → q.ips.length ≤ p.i := by
      rcases hst with ⟨hs, rfl⟩ | ⟨r, hs, hst, hend⟩
      · refine ⟨rfl, fun q hq hqs => ?_⟩
        rw [h.ips q hq, hqs, hs]
        exact Nat.zero_le _
      · obtain rfl : c' = c := hc.inv.readStep hst
        refine ⟨rfl, fun q hq hqs => ?_⟩
        rw [h.ips q hq, hqs, hs]
        exact List.getElem?_eq_none_iff.mp hend
    obtain ⟨rfl, hend⟩ := hsame
    exact h.sendsEnd hpc hend
  | @reported p count c' hpc hst =>
    rw [hpc] at hp hreads
    have hsame : c' = c := by
      rcases hst with ⟨-, rfl⟩ | ⟨r, -, hst⟩
      · rfl
      · exact hc.inv.readStep hst
    obtain rfl := hsame
    obtain ⟨log, wasFailing, heq⟩ := report_eq th p count
    rw [heq]
    exact ⟨hp, ⟨rd, hrd, hreads⟩, h.ips, h.known, h.message⟩
  | @toFree p r q c' hpc hs hst hf =>
    rw [hpc] at hp
    have hkept := h.kept hc hst
    obtain ⟨rd', hrd', hheld⟩ := hc.inv.released_reader hst
    rw [hrd', Option.bind_some] at hf
    refine ⟨hp, ⟨rd', hrd', hheld, by rw [hf]; simp⟩, fun q hm => (hkept q hm).1,
      fun q hm => (hkept q hm).2, h.message⟩
  | @released p c' hpc hst =>
    rw [hpc] at hp hreads
    rcases hst with ⟨hs, rfl⟩ | ⟨r, hs, hst, hf⟩
    · exact h.endsPass hp h.passesKept hrd (hreads.1.trans hs) hreads.2
    · obtain ⟨rd', hrd', hheld⟩ := hc.inv.released_reader hst
      rw [hrd', Option.bind_some] at hf
      exact h.endsPass hp (h.kept hc hst) hrd' hheld hf
  | @freed closing c' hpc hst =>
    rw [hpc] at hp
    obtain ⟨rd', hrd', hheld, hfreeing⟩ := hc.inv.freed_reader hst
    exact h.endsPass hp (h.kept hc hst) hrd' hheld hfreeing
  | woken hpc hw =>
    rw [hpc] at hp hreads
    exact ⟨hp, ⟨rd, hrd, hreads⟩, h.ips, h.known, h.message⟩

end Sender

/-! ## 2. All the senders -/

structure SendersInv (s : System) : Prop where
  length : s.cache.readers.length = s.senders.length
  sender : ∀ t th, s.senders[t]? = some th → SenderInv s.cache t th

section Senders

variable {s s' : System}

/-- Nobody is created, nobody is joined, and no reader moves. -/
theorem SendersInv.same (h : SendersInv s) (hr : s.cache.Reachable) {a : Act} (hmv : Move s a s')
    (hs : s'.senders = s.senders) (hrd : s'.cache.readers = s.cache.readers) :
    SendersInv s' where
  length := by
    rw [hs, hrd]
    exact h.length
  sender := by
    intro t th hth
    rw [hs] at hth
    rcases hmv.cache with heq | ⟨b, hb⟩
    · rw [heq]
      exact h.sender t th hth
    · exact (h.sender t th hth).stays hr hb (by rw [hrd])

theorem SendersInv.senderMove (h : SendersInv s) (hr : s.cache.Reachable) {t : Nat}
    {o : SendOutcome} {th th' : Sender} {c' : PodCache} (hth : s.senders[t]? = some th)
    (hmv : SenderMove s.cache s.statics.redisGuid s.statics.enableLogging s.host.config t o th
      c' th') : SendersInv { s with cache := c', senders := s.senders.set t th' } := by
  have hrds : c'.readers.length = s.cache.readers.length ∧
      ∀ u, u ≠ t → c'.readers[u]? = s.cache.readers[u]? := by
    rcases hmv.cache with rfl | ⟨b, hb, hc⟩
    · exact ⟨rfl, fun _ _ => rfl⟩
    · exact hr.inv.readers_step hb hc
  refine ⟨?_, fun u thu hu => ?_⟩
  · change c'.readers.length = (s.senders.set t th').length
    rw [List.length_set, hrds.1]
    exact h.length
  · rcases List.getElem?_set_cases hu with ⟨hne, hold⟩ | ⟨rfl, rfl, -⟩
    · rcases hmv.cache with rfl | ⟨b, -, hc⟩
      · exact h.sender u thu hold
      · exact (h.sender u thu hold).stays hr hc (hrds.2 u hne)
    · exact (h.sender u th hth).move hr hmv

/-- A sender is created, with its reader. -/
theorem SendersInv.spawned (h : SendersInv s) (hr : s.cache.Reachable) (task : BroadcastTask)
    (statics : Statics) (main : MainPc) :
    SendersInv
      { s with
        cache := { s.cache with readers := s.cache.readers ++ [⟨none, none, []⟩] }
        senders := s.senders ++ [Sender.create task]
        statics := statics
        main := main } := by
  refine ⟨?_, fun t th hth => ?_⟩
  · change (s.cache.readers ++ [_]).length = (s.senders ++ [_]).length
    rw [List.length_append, List.length_append, h.length]
    rfl
  · rcases List.getElem?_concat_cases hth with ⟨hlt, hth⟩ | ⟨rfl, rfl⟩
    · refine (h.sender t th hth).stays hr (b := .spawnReader) rfl ?_
      exact List.getElem?_append_left (h.length ▸ hlt)
    · refine ⟨rfl, ⟨⟨none, none, []⟩, ?_, rfl, rfl⟩,
        fun p hp => absurd hp (by simp [Sender.create]),
        fun p hp => absurd hp (by simp [Sender.create]),
        fun p hp => absurd hp (by simp [Sender.create])⟩
      change (s.cache.readers ++ [_])[s.senders.length]? = _
      rw [← h.length, List.getElem?_concat_length]

/-- A sender is joined. -/
theorem SendersInv.joined (h : SendersInv s) {t : Nat} {th : Sender}
    (hth : s.senders[t]? = some th) (n : Nat) (main : MainPc) :
    SendersInv { s with senders := s.senders.set t { th with joined := n }, main := main } := by
  refine ⟨?_, fun u thu hu => ?_⟩
  · change _ = (s.senders.set t _).length
    rw [List.length_set]
    exact h.length
  · rcases List.getElem?_set_cases hu with ⟨-, hu⟩ | ⟨rfl, rfl, -⟩
    · exact h.sender u thu hu
    · have hi := h.sender u th hth
      exact ⟨hi.passes, hi.reader, hi.ips, hi.known, hi.message⟩

theorem SendersInv.move (h : SendersInv s) (hr : s.cache.Reachable) (hl : LifeInv s) {a : Act}
    (hmv : Move s a s') : SendersInv s' := by
  have hmv' := hmv
  cases hmv with
  | tick => exact h.same hr hmv' rfl rfl
  | refresher hb hc ha => exact h.same hr hmv' rfl (hr.inv.refresher_step hb hc).2.1
  | sender hth hst => exact h.senderMove hr hth hst
  | configSet hm => exact h.same hr hmv' rfl rfl
  | refused hm hbusy => exact h.same hr hmv' rfl rfl
  | curlFails hm hloaded hbusy hcurl => exact h.same hr hmv' rfl rfl
  | load hm hloaded hbusy hcurl => exact h.same hr hmv' rfl rfl
  | @cron o s' hm hhook hst =>
    rcases cronBroadcastOnce_eq hst with rfl | ⟨-, -, c', hc, hor⟩
    · exact h
    · have hrd : c'.readers = s.cache.readers := by
        simp only [PodCache.step, hl.stopper_idle hm, Option.some.injEq] at hc
        rw [← hc]
        exact (s.cache.startMove o.clientOk o.threadOk).frame.1
      refine h.same hr hmv' (cronBroadcastOnce_frame hst).1 ?_
      rcases hor with ⟨-, rfl⟩ | ⟨-, rfl⟩
      · exact hrd
      · rw [sendUdpMessage_cache]
        exact hrd
  | cleanup hm hloaded ha => exact h.same hr hmv' rfl rfl
  | @main o s' hst =>
    rcases mainStep_eq hst with ⟨hm, rfl⟩ | ⟨ifa, todo, hm, rfl⟩ |
      ⟨i, caller, s1, hm, hi, hj, rfl⟩ | ⟨i, caller, hm, hi, rfl⟩ | ⟨caller, c', hm, hc, rfl⟩
    · exact h.same hr hmv' rfl rfl
    · rcases spawnStep_eq s ifa o with heq | heq | ⟨a, slots, -, -, -, heq⟩
      · rw [heq] at hmv' ⊢
        exact h.same hr hmv' rfl rfl
      · rw [heq] at hmv' ⊢
        exact h.same hr hmv' rfl rfl
      · rw [heq]
        exact h.spawned hr _ _ _
    · rcases joinStep_eq hj with ⟨rfl, -⟩ | ⟨t, th, -, hth, -, rfl⟩
      · exact h.same hr hmv' rfl rfl
      · exact h.joined hth _ _
    · exact h.same hr hmv' rfl rfl
    · have hrd : c'.readers = s.cache.readers := (hr.inv.stopMove hc).frame.1
      split
      · rename_i hidle
        rw [if_pos hidle] at hmv'
        refine h.same hr hmv' ?_ ?_
        · cases caller <;> rfl
        · rw [returnTo_cache]
          exact hrd
      · rename_i hidle
        rw [if_neg hidle] at hmv'
        exact h.same hr hmv' rfl hrd

theorem SendersInv.init (h : s.Initial) : SendersInv s := by
  obtain ⟨e, clock, config, rfl⟩ := h
  exact ⟨rfl, fun t th hth => absurd hth (by simp [System.init])⟩

/-- **Every sender is where its passes say.** -/
theorem System.Reachable.senders (h : s.Reachable) : SendersInv s := by
  have hboth : s.Reachable ∧ SendersInv s := by
    refine Lts.Reachable.invariant (I := fun t => t.Reachable ∧ SendersInv t) h
      (fun t ht => ⟨Lts.Reachable.of_init ht, SendersInv.init ht⟩) ?_
    intro t a u ht hst
    exact ⟨ht.1.next hst, ht.2.move ht.1.cache ht.1.life (System.move_of_step hst)⟩
  exact hboth.2

end Senders

end Unicaster
