/-
# What a sender says about failed sends

`unicast_thread` says once when sends start failing and once when they stop.  `SendBook` is kept
beside a run for the proofs: the sends of sender `t` that failed in the pass going on, and for each
pass it has reported on that had a list, the sends of it that failed and the list.

A pass with a list is a reading of a level, whether any of its sends failed; what the sender logs
are the edges of these readings (`failures_told`).  A pass without a list is no reading.
-/
import Unicaster.Port
import Unicaster.Lib.Edges

namespace Unicaster

open CLib Edges

/-! ## 1. The book -/

/-- A pass with a list that was reported on: the sends that failed, with their `errno`, and the
list. -/
structure PassReading where
  failures : List (Text × Int)
  ips : List Text

structure SendBook where
  /-- the sends that failed in the pass going on -/
  failures : List (Text × Int)
  passes : List PassReading

def SendBook.empty : SendBook := ⟨[], []⟩

/-- The address a sender is about to send to. -/
def Sender.next (th : Sender) (c : PodCache) : Option Text :=
  match th.pc with
  | .sending p => p.snapshot.bind fun r => (c.podsOf r)[p.i]?
  | _ => none

namespace SendBook

variable (b : SendBook)

/-- The book behind a step of the sender. -/
def own (c : PodCache) (th : Sender) (o : SendOutcome) : SendBook :=
  match th.pc with
  | .acquiring _ => { b with failures := [] }
  | .sending _ =>
    match (th.next c).bind fun ip => (sendUnicastMessage ip o).map fun errno => (ip, errno) with
    | some failure => { b with failures := b.failures ++ [failure] }
    | none => b
  | .reporting p =>
    match p.snapshot with
    | some r => { b with passes := b.passes ++ [⟨b.failures, c.podsOf r⟩] }
    | none => b
  | _ => b

/-- The book of sender `t` behind a step of the system. -/
def after (t : Nat) (s : System) (a : Act) : SendBook :=
  match a with
  | .sender u o =>
    if u = t then
      match s.senders[t]? with
      | some th => b.own s.cache th o
      | none => b
    else b
  | _ => b

/-- Whether the passes failed, in their order. -/
def readings : List (Bool × PassReading) := b.passes.map fun p => (!p.failures.isEmpty, p)

end SendBook

/-- A step of the system, with the book of sender `t`. -/
def System.sendStep (t : Nat) (x : System × SendBook) (a : Act) : Option (System × SendBook) :=
  (x.1.step a).map fun s' => (s', x.2.after t x.1 a)

/-- The address and the `errno` of the last of these sends. -/
def lastFailure (failures : List (Text × Int)) : Option Text × Int :=
  (failures.getLast?.map (·.1), (failures.getLast?.map (·.2)).getD 0)

/-- How an edge is told. -/
def edgeLine (edge : Bool × PassReading) : SenderLog :=
  if edge.1 then
    .failing edge.2.failures.length edge.2.ips.length (lastFailure edge.2.failures).1
      (lastFailure edge.2.failures).2
  else .deliveredAgain

def SenderLog.isSent : SenderLog → Bool
  | .sent _ _ => true
  | _ => false

def SenderLog.isFailing : SenderLog → Bool
  | .failing _ _ _ _ => true
  | _ => false

/-- What the sender logged about failures. -/
def Sender.told (th : Sender) : List SenderLog := th.log.filter fun line => !line.isSent

/-! ## 2. The invariant -/

/-- The locals of the pass agree with the sends that failed; each was to an address of the list,
before index `n`. -/
structure Counted (c : PodCache) (p : PassLocals) (n : Nat) (failures : List (Text × Int)) :
    Prop where
  failed : p.failed = failures.length
  last : (p.lastFailedIp, p.lastErrno) = lastFailure failures
  among : (failures.map (·.1)).Sublist ((c.addresses p.snapshot).take n)

/-- What the pass going on has counted, where the sender stands. -/
def SenderPc.Counted (c : PodCache) (b : SendBook) : SenderPc → Prop
  | .start => b.passes = []
  | .sending p => Unicaster.Counted c p p.i b.failures
  | .reporting p => Unicaster.Counted c p (c.addresses p.snapshot).length b.failures
  | _ => True

structure SendTold (c : PodCache) (th : Sender) (b : SendBook) : Prop where
  told : th.told = (edges false b.readings).map edgeLine
  level : th.wasFailing = level false b.readings
  among : ∀ p ∈ b.passes, (p.failures.map (·.1)).Sublist p.ips
  counted : th.pc.Counted c b

section Told

variable {c c' : PodCache} {th th' : Sender} {t : Nat} {b : SendBook}

/-- What a sender holds is in the heap. -/
theorem SenderInv.held_lt (h : SenderInv c t th) (hc : c.Reachable) {p : PassLocals}
    (hpc : th.pc = .sending p ∨ th.pc = .reporting p) {r : Nat} (hr : p.snapshot = some r) :
    r < c.nextSnap := by
  obtain ⟨rd, hrd, hreads⟩ := h.reader
  have hheld : rd.held = p.snapshot := by
    rcases hpc with hpc | hpc <;> rw [hpc] at hreads <;> exact hreads.1
  exact (hc.inv.owned (mem_owners_of_reader (List.mem_of_getElem? hrd) (hheld.trans hr))).1

/-- The step of another thread. -/
theorem SendTold.stays (h : SendTold c th b) (hi : SenderInv c t th) (hc : c.Reachable)
    {a : CacheAct} (hst : c.step a = some c') : SendTold c' th b := by
  refine ⟨h.told, h.level, h.among, ?_⟩
  have hcounted := h.counted
  cases hpc : th.pc with
  | sending p =>
    rw [hpc] at hcounted
    have hsame := (hc.addresses_step hst fun r hr => hi.held_lt hc (Or.inl hpc) hr).1
    exact ⟨hcounted.failed, hcounted.last, hsame ▸ hcounted.among⟩
  | reporting p =>
    rw [hpc] at hcounted
    have hsame := (hc.addresses_step hst fun r hr => hi.held_lt hc (Or.inr hpc) hr).1
    unfold SenderPc.Counted
    dsimp only
    rw [hsame]
    refine ⟨hcounted.failed, hcounted.last, ?_⟩
    rw [hsame]
    exact hcounted.among
  | start =>
    rw [hpc] at hcounted
    exact hcounted
  | _ => trivial

theorem lastFailure_concat (failures : List (Text × Int)) (ip : Text) (errno : Int) :
    lastFailure (failures ++ [(ip, errno)]) = (some ip, errno) := by
  simp [lastFailure]

theorem told_concat_sent (log : List SenderLog) (ip message : Text) :
    (log ++ [SenderLog.sent ip message]).filter (fun line => !line.isSent) =
      log.filter fun line => !line.isSent := by
  simp [SenderLog.isSent]

/-- A step at which nothing is sent and nothing reported. -/
theorem SendTold.goto (h : SendTold c th b) {q : SenderPc} (hlog : th'.log = th.log)
    (hfail : th'.wasFailing = th.wasFailing) (hpc : th'.pc = q) (hcounted : q.Counted c' b) :
    SendTold c' th' b := by
  refine ⟨?_, hfail.trans h.level, h.among, hpc ▸ hcounted⟩
  rw [Sender.told, hlog]
  exact h.told

section Own

variable {guid : Text} {enableLogging : Bool} {config : Config} {o : SendOutcome}

/-- **One send**: the locals of the pass count what the book notes. -/
theorem SendTold.sent (h : SendTold c th b) {p : PassLocals} {r : Nat} {ip : Text}
    (hpc : th.pc = .sending p) (hs : p.snapshot = some r) (hip : (c.podsOf r)[p.i]? = some ip) :
    SendTold c (th.sendTo p ip enableLogging o) (b.own c th o) := by
  have hcounted := h.counted
  rw [hpc] at hcounted
  obtain ⟨hfailed, hlast, hamong⟩ := hcounted
  have hnext : th.next c = some ip := by
    simp only [Sender.next, hpc, hs, Option.bind_some, hip]
  have htake : (c.addresses p.snapshot).take (p.i + 1) =
      (c.addresses p.snapshot).take p.i ++ [ip] := by
    have haddr : c.addresses p.snapshot = c.podsOf r := by
      rw [hs]
      rfl
    rw [haddr, List.take_add_one, hip]
    rfl
  unfold Sender.sendTo
  cases hsend : sendUnicastMessage ip o with
  | some errno =>
    have hown : b.own c th o = { b with failures := b.failures ++ [(ip, errno)] } := by
      simp only [SendBook.own, hpc, hnext, Option.bind_some, hsend, Option.map_some]
    rw [hown]
    refine ⟨h.told, h.level, h.among, ⟨?_, (lastFailure_concat _ _ _).symm, ?_⟩⟩
    · change p.failed + 1 = (b.failures ++ [(ip, errno)]).length
      rw [List.length_append, hfailed]
      rfl
    · change ((b.failures ++ [(ip, errno)]).map (·.1)).Sublist
        ((c.addresses p.snapshot).take (p.i + 1))
      rw [htake, List.map_append]
      exact hamong.append (List.Sublist.refl _)
  | none =>
    have hown : b.own c th o = b := by
      simp only [SendBook.own, hpc, hnext, Option.bind_some, hsend, Option.map_none]
    rw [hown]
    refine ⟨?_, h.level, h.among, ⟨hfailed, hlast, ?_⟩⟩
    · have htold := h.told
      cases enableLogging with
      | false => exact htold
      | true =>
        refine Eq.trans ?_ htold
        exact told_concat_sent _ _ _
    · change (b.failures.map (·.1)).Sublist ((c.addresses p.snapshot).take (p.i + 1))
      rw [htake]
      exact hamong.trans (List.sublist_append_left _ _)

/-- A pass without a list has nothing to report. -/
theorem SendTold.reported_none (h : SendTold c th b) {p : PassLocals}
    (hpc : th.pc = .reporting p) (hs : p.snapshot = none) :
    SendTold c' (th.report p 0) (b.own c th o) := by
  have hcounted := h.counted
  rw [hpc] at hcounted
  have hnil : b.failures = [] := by
    have hamong := hcounted.among
    rw [hs] at hamong
    exact List.map_eq_nil_iff.mp (List.sublist_nil.mp hamong)
  have hzero : p.failed = 0 := by
    rw [hcounted.failed, hnil]
    rfl
  have hown : b.own c th o = b := by
    simp only [SendBook.own, hpc, hs]
  rw [hown]
  refine h.goto ?_ ?_ (q := .releasing p) rfl trivial
  · simp [Sender.report, hzero, hs]
  · simp [Sender.report, hs]

/-- **One report**: it is the edge that the reading of the pass makes, if it makes one. -/
theorem SendTold.reported (h : SendTold c th b) {p : PassLocals} {r : Nat}
    (hpc : th.pc = .reporting p) (hs : p.snapshot = some r) :
    SendTold c' (th.report p (c.podsOf r).length) (b.own c th o) := by
  have hcounted := h.counted
  rw [hpc] at hcounted
  obtain ⟨hfailed, hlast, hamong⟩ := hcounted
  rw [List.take_length, hs] at hamong
  have hown : b.own c th o = { b with passes := b.passes ++ [⟨b.failures, c.podsOf r⟩] } := by
    simp only [SendBook.own, hpc, hs]
  have hreadings : SendBook.readings { b with passes := b.passes ++ [⟨b.failures, c.podsOf r⟩] } =
      b.readings ++ [(!b.failures.isEmpty, ⟨b.failures, c.podsOf r⟩)] := by
    simp only [SendBook.readings, List.map_append, List.map_cons, List.map_nil]
  have hread : (!b.failures.isEmpty) = decide (p.failed > 0) := by
    rw [hfailed]
    cases b.failures with
    | nil => rfl
    | cons x xs => simp
  rw [hown]
  refine ⟨?_, ?_, ?_, trivial⟩
  · rw [hreadings, edges_concat, List.map_append, ← h.level, ← h.told, hread]
    simp only [Sender.told, Sender.report, hs, Option.isSome_some, and_true]
    by_cases h0 : p.failed = 0
    · cases hwas : th.wasFailing with
      | false => simp [h0]
      | true => simp [h0, edgeLine, SenderLog.isSent]
    · have hpos : 0 < p.failed := Nat.pos_of_ne_zero h0
      cases hwas : th.wasFailing with
      | false =>
        have hline : edgeLine (true, ⟨b.failures, c.podsOf r⟩) =
            .failing p.failed (c.podsOf r).length p.lastFailedIp p.lastErrno := by
          simp only [edgeLine, if_true, ← hlast, hfailed]
        simp [h0, hpos, hline, SenderLog.isSent]
      | true => simp [h0, hpos]
  · rw [hreadings, level_concat, hread]
    simp [Sender.report, hs]
  · intro q hq
    rcases List.mem_append.mp hq with hq | hq
    · exact h.among q hq
    · rw [List.mem_singleton.mp hq]
      exact hamong

/-- **A step of the sender keeps it.** -/
theorem SendTold.own (h : SendTold c th b) (hi : SenderInv c t th) (hc : c.Reachable)
    (hst : th.step c guid enableLogging config t o = some (c', th')) :
    SendTold c' th' (b.own c th o) := by
  have hmv := Sender.move_of_step hst
  have hquiet : (∀ closing, th.pc ≠ .acquiring closing) → (∀ p, th.pc ≠ .sending p) →
      (∀ p, th.pc ≠ .reporting p) → b.own c th o = b := by
    intro h1 h2 h3
    unfold SendBook.own
    split
    · rename_i closing hpc
      exact absurd hpc (h1 closing)
    · rename_i p hpc
      exact absurd hpc (h2 p)
    · rename_i p hpc
      exact absurd hpc (h3 p)
    · rfl
  have hcounted := h.counted
  cases hmv with
  | prepare hpc =>
    rw [hpc] at hcounted
    rw [hquiet (by simp [hpc]) (by simp [hpc]) (by simp [hpc])]
    refine ⟨h.told, ?_, h.among, trivial⟩
    rw [SendBook.readings, show b.passes = [] from hcounted]
    rfl
  | beginPass hpc =>
    rw [hquiet (by simp [hpc]) (by simp [hpc]) (by simp [hpc])]
    exact h.goto rfl rfl rfl trivial
  | @acquired closing c' hpc hc' =>
    have hown : b.own c th o = { b with failures := [] } := by
      simp only [SendBook.own, hpc]
    rw [hown]
    exact ⟨h.told, h.level, h.among, rfl, rfl, List.nil_sublist _⟩
  | @sent p r ip c' hpc hs hst' hip =>
    obtain rfl : c' = c := hc.inv.readStep hst'
    exact h.sent hpc hs hip
  | @sendsEnd p c' hpc hor =>
    have hend : c' = c ∧ th.next c = none ∧ (c.addresses p.snapshot)[p.i]? = none := by
      rcases hor with ⟨hs, rfl⟩ | ⟨r, hs, hst', hip⟩
      · refine ⟨rfl, ?_, ?_⟩
        · simp only [Sender.next, hpc, hs, Option.bind_none]
        · rw [hs]
          rfl
      · obtain rfl : c' = c := hc.inv.readStep hst'
        refine ⟨rfl, ?_, ?_⟩
        · simp only [Sender.next, hpc, hs, Option.bind_some, hip]
        · rw [hs]
          exact hip
    obtain ⟨rfl, hnext, hlast⟩ := hend
    have hown : b.own c' th o = b := by
      simp only [SendBook.own, hpc, hnext, Option.bind_none]
    rw [hpc] at hcounted
    rw [hown]
    refine h.goto rfl rfl rfl ⟨hcounted.failed, hcounted.last, ?_⟩
    rw [List.take_length]
    exact hcounted.among.trans (List.take_sublist _ _)
  | @reported p count c' hpc hor =>
    -- the move does not say what was counted, the step does
    unfold Sender.step at hst
    rw [hpc] at hst
    dsimp only at hst
    rcases hor with ⟨hs, rfl⟩ | ⟨r, hs, hst'⟩
    · rw [hs] at hst
      obtain ⟨-, heq⟩ := Prod.mk.inj (Option.some.inj hst)
      rw [← heq]
      exact h.reported_none hpc hs
    · obtain rfl : c' = c := hc.inv.readStep hst'
      rw [hs] at hst
      simp only [hst', Option.map_some, Option.some.injEq, Prod.mk.injEq, true_and] at hst
      rw [← hst]
      exact h.reported hpc hs
  | toFree hpc hs hc' hf =>
    rw [hquiet (by simp [hpc]) (by simp [hpc]) (by simp [hpc])]
    exact h.goto rfl rfl rfl trivial
  | @released p c' hpc hor =>
    rw [hquiet (by simp [hpc]) (by simp [hpc]) (by simp [hpc])]
    cases hcl : p.closing <;> exact h.goto rfl rfl rfl trivial
  | @freed closing c' hpc hc' =>
    rw [hquiet (by simp [hpc]) (by simp [hpc]) (by simp [hpc])]
    cases closing <;> exact h.goto rfl rfl rfl trivial
  | woken hpc hw =>
    rw [hquiet (by simp [hpc]) (by simp [hpc]) (by simp [hpc])]
    exact h.goto rfl rfl rfl trivial

end Own

end Told

/-! ## 3. Every run -/

section Runs

variable {t : Nat} {s s' : System} {b b' : SendBook} {e : Environ} {clock : Int}
  {config : Config}

/-- The book and the sender agree; before there is a sender the book is empty. -/
structure BookTold (t : Nat) (s : System) (b : SendBook) : Prop where
  told : ∀ th, s.senders[t]? = some th → SendTold s.cache th b
  empty : s.senders[t]? = none → b = .empty

theorem BookTold.step (h : BookTold t s b) (hr : s.Reachable) {a : Act}
    (hst : System.sendStep t (s, b) a = some (s', b')) : BookTold t s' b' := by
  obtain ⟨s1, hs, heq⟩ := Option.map_eq_some_iff.mp hst
  obtain ⟨rfl, rfl⟩ := Prod.mk.inj heq
  have hmv := System.move_of_step hs
  cases hth : s.senders[t]? with
  | none =>
    have hafter : b.after t s a = .empty := by
      have hb := h.empty hth
      unfold SendBook.after
      split
      · split
        · rw [hth]
          exact hb
        · exact hb
      · exact hb
    rw [hafter]
    refine ⟨fun th' hth' => ?_, fun _ => rfl⟩
    obtain ⟨-, a', rfl⟩ := hmv.new_sender (List.getElem?_eq_none_iff.mp hth) hth'
    exact ⟨rfl, rfl, fun p hp => absurd hp (by simp [SendBook.empty]), rfl⟩
  | some th =>
    have htold := h.told th hth
    have hi := hr.senders.sender t th hth
    by_cases hown : ∃ o, a = .sender t o
    · obtain ⟨o, rfl⟩ := hown
      have hsender : s.senderStep t o = some s1 := by
        unfold System.step at hs
        split at hs
        · exact absurd hs (by simp)
        · exact hs
      obtain ⟨th1, c', th', hth1, hstep, rfl⟩ := senderStep_eq hsender
      obtain rfl : th = th1 := Option.some.inj (hth.symm.trans hth1)
      have hafter : b.after t s (.sender t o) = b.own s.cache th o := by
        simp only [SendBook.after, if_true, hth]
      rw [hafter]
      refine ⟨fun th2 hth2 => ?_, fun hnone => ?_⟩
      · obtain rfl : th' = th2 := Option.some.inj ((List.getElem?_set_eq hth th').symm.trans hth2)
        exact htold.own hi hr.cache hstep
      · exact absurd ((List.getElem?_set_eq hth th').symm.trans hnone) (by simp)
    · have hafter : b.after t s a = b := by
        unfold SendBook.after
        split
        · rename_i u o
          rw [if_neg fun hu => hown ⟨o, by rw [hu]⟩]
        · rfl
      have hold : SendTold s1.cache th b := by
        rcases hmv.cache with heq | ⟨c, hc⟩
        · rw [heq]
          exact htold
        · exact htold.stays hi hr.cache hc
      rw [hafter]
      obtain ⟨th', hth', hor⟩ := hmv.sender_cases hth
      refine ⟨fun th1 hth1 => ?_, fun hnone => absurd (hth'.symm.trans hnone) (by simp)⟩
      obtain rfl : th' = th1 := Option.some.inj (hth'.symm.trans hth1)
      rcases hor with rfl | ⟨n, rfl⟩ | ⟨o, ha, -⟩
      · exact hold
      · exact ⟨hold.told, hold.level, hold.among, hold.counted⟩
      · exact absurd ⟨o, ha⟩ hown

theorem bookTold_of_run
    (hr : Lts.Run (System.sendStep t) Lts.free (System.init e clock config, .empty) (s, b)) :
    s.Reachable ∧ BookTold t s b := by
  refine hr.invariant (I := fun x => x.1.Reachable ∧ BookTold t x.1 x.2)
    ⟨Lts.Reachable.of_init ⟨e, clock, config, rfl⟩,
      fun th hth => absurd hth (by simp [System.init]), fun _ => rfl⟩ ?_
  rintro ⟨u, bu⟩ a ⟨v, bv⟩ ⟨hu, hb⟩ - hst
  obtain ⟨v1, hv, heq⟩ := Option.map_eq_some_iff.mp hst
  obtain ⟨rfl, -⟩ := Prod.mk.inj heq
  exact ⟨hu.next hv, hb.step hu hst⟩

/-- What a line about a failure says. -/
theorem SendTold.failing {c : PodCache} {th : Sender} (h : SendTold c th b) {failed count : Nat}
    {ip : Option Text} {errno : Int} (hm : .failing failed count ip errno ∈ th.told) :
    ∃ p ∈ b.passes, 1 ≤ failed ∧ failed ≤ count ∧ failed = p.failures.length ∧
      count = p.ips.length ∧ ∃ last ∈ p.ips, ip = some last ∧ (last, errno) ∈ p.failures := by
  rw [h.told] at hm
  obtain ⟨⟨l, p⟩, hedge, hline⟩ := List.mem_map.mp hm
  have hreading := (edges_sublist false b.readings).subset hedge
  obtain ⟨q, hq, heq⟩ := List.mem_map.mp hreading
  obtain ⟨hl, rfl⟩ := Prod.mk.inj heq
  unfold edgeLine at hline
  dsimp only at hline
  split at hline
  · rename_i htrue
    have hne : q.failures ≠ [] := by
      rintro hnil
      rw [← hl, hnil] at htrue
      exact absurd htrue (by simp)
    obtain ⟨h1, h2, h3, h4⟩ := SenderLog.failing.inj hline
    have hsub := h.among q hq
    have hlen : q.failures.length ≤ q.ips.length := by
      have := hsub.length_le
      rwa [List.length_map] at this
    have hpos := List.length_pos_of_ne_nil hne
    have hlast := List.getLast?_eq_some_getLast hne
    have hmem := List.getLast_mem hne
    refine ⟨q, hq, by omega, by omega, h1.symm, h2.symm, (q.failures.getLast hne).1,
      hsub.subset (List.mem_map_of_mem hmem), ?_, ?_⟩
    · rw [← h3, lastFailure, hlast]
      rfl
    · rw [← h4, lastFailure, hlast]
      exact hmem
  · exact absurd hline (by simp)

/-- **A sender says when its sends start failing and when they stop, and nothing else about
them**, over every run and whatever the other threads do.  The passes it has reported on that had a
list are the readings of a level, whether any send of the pass failed, and its lines are the edges
of these readings.  So they alternate and begin with a failure, and of the two kinds there are
equally many, but for a failure that goes on.  A line about a failure counts the failed sends of
its pass and the addresses of its list, and names an address of that list and the `errno` of its
last failed send. -/
theorem failures_told (t : Nat) (e : Environ) (clock : Int) (config : Config) (s : System)
    (b : SendBook)
    (hr : Lts.Run (System.sendStep t) Lts.free (System.init e clock config, .empty) (s, b))
    (th : Sender) (hth : s.senders[t]? = some th) :
    th.told = (edges false b.readings).map edgeLine ∧
    (∀ i line, th.told[i]? = some line →
      (line = .deliveredAgain ↔ i % 2 = 1)) ∧
    th.told.countP (·.isFailing) =
      th.told.countP (fun line => !line.isFailing) + th.wasFailing.toNat ∧
    (∀ failed count ip errno, .failing failed count ip errno ∈ th.told →
      ∃ p ∈ b.passes, 1 ≤ failed ∧ failed ≤ count ∧ failed = p.failures.length ∧
        count = p.ips.length ∧ ∃ last ∈ p.ips, ip = some last ∧ (last, errno) ∈ p.failures) := by
  have h := (bookTold_of_run hr).2.told th hth
  refine ⟨h.told, fun i line hline => ?_, ?_, fun failed count ip errno hm => h.failing hm⟩
  · rw [h.told, List.getElem?_map] at hline
    obtain ⟨x, hx, rfl⟩ := Option.map_eq_some_iff.mp hline
    have halt := edges_alternate hx
    unfold edgeLine
    rw [halt]
    rcases Nat.mod_two_eq_zero_or_one i with h0 | h1
    · simp [h0]
    · simp [h1]
  · have hkind : ∀ x : Bool × PassReading, (edgeLine x).isFailing = x.1 := by
      intro x
      unfold edgeLine
      cases x.1 <;> rfl
    have hcount := countP_edges false b.readings
    rw [h.told, h.level, List.countP_map, List.countP_map]
    simp only [Function.comp_def, hkind]
    exact hcount

/-- A pass whose one send fails with `ENETUNREACH`, the sleep behind it, and a pass without
failures. -/
def failThenRecover : List Act :=
  startUp ++ refreshRound ++
    [senderOk, senderOk, senderOk, .sender 0 ⟨true, false, 101⟩, senderOk, senderOk, senderOk,
      .tick 60000000000, senderOk] ++ passOverOne

theorem failures_told_recovery :
    ∃ (s : System) (b : SendBook) (th : Sender), s.senders[0]? = some th ∧
      b.passes.map (·.failures) = [[(ascii "10.0.0.7", 101)], []] ∧
      th.told = (edges false b.readings).map edgeLine := by
  have hview : (Lts.exec (System.sendStep 0)
      (System.init {} 0 (portsConfig (ascii "6379") (ascii "0")), .empty) failThenRecover).map
        (fun x => (x.1.senders.length, x.2.passes.map (·.failures))) =
          some (1, [[(ascii "10.0.0.7", 101)], []]) := by decide +kernel
  obtain ⟨⟨s, b⟩, hs, hbook⟩ := Option.map_eq_some_iff.mp hview
  obtain ⟨hlen, hpasses⟩ := Prod.mk.inj hbook
  obtain ⟨th, hth⟩ : ∃ th, s.senders[0]? = some th :=
    ⟨_, List.getElem?_eq_getElem (hlen ▸ Nat.one_pos)⟩
  exact ⟨s, b, th, hth, hpasses,
    (failures_told 0 _ _ _ s b (Lts.run_of_exec hs) th hth).1⟩

end Runs

end Unicaster
