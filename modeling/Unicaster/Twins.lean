/-
# Twin processes

The twins of `CacheTwins`, with the senders and the main thread: two processes that are the same
but for what one of them has behind it, for its clock, and for what the configuration says about
`bind` and `loglevel`.  They announce the same to the same pods for as long as the same is done
to them (`TwinSystem.exec`), and neither is ever stuck where the other is not.

What can be told of a process from outside is the same for twins (`TwinSystem.outside`).
-/
import Unicaster.CacheTwins
import Unicaster.SendReports

namespace Unicaster

open CLib

/-! ## 1. Senders -/

/-- What the pods can tell of a pass: the datagram, the list, and who was sent to. -/
structure Heard where
  up : Bool
  message : Text
  ips : List Text
  attempts : List Text

def Pass.heard (p : Pass) : Heard := ⟨p.up, p.message, p.ips, p.attempts⟩

namespace Offset

variable (ρ : Offset)

def passLocals (p : PassLocals) : PassLocals := { p with snapshot := ρ.reSnap p.snapshot }

theorem passLocals_snapshot (p : PassLocals) :
    (ρ.passLocals p).snapshot = ρ.reSnap p.snapshot := rfl

theorem passLocals_i (p : PassLocals) : (ρ.passLocals p).i = p.i := rfl

theorem passLocals_closing (p : PassLocals) : (ρ.passLocals p).closing = p.closing := rfl

def senderPc : SenderPc → SenderPc
  | .start => .start
  | .check => .check
  | .acquiring closing => .acquiring closing
  | .sending p => .sending (ρ.passLocals p)
  | .reporting p => .reporting (ρ.passLocals p)
  | .releasing p => .releasing (ρ.passLocals p)
  | .freeing closing => .freeing closing
  | .sleeping deadline => .sleeping (deadline + ρ.ns)
  | .exited => .exited

end Offset

structure TwinSender (ρ : Offset) (th th' : Sender) : Prop where
  task : th'.task = th.task
  pc : th'.pc = ρ.senderPc th.pc
  broadcastName : th'.broadcastName = th.broadcastName
  broadcastInterval : th'.broadcastInterval = th.broadcastInterval
  upMessage : th'.upMessage = th.upMessage
  downMessage : th'.downMessage = th.downMessage
  destinationPort : th'.destinationPort = th.destinationPort
  wasFailing : th'.wasFailing = th.wasFailing
  told : th'.told = th.told
  log : ρ.sameLevel = true → th'.log = th.log
  passes : th'.passes.map Pass.heard = th.passes.map Pass.heard

section Senders

variable {ρ : Offset} {c c' : PodCache} {th th' : Sender}

theorem TwinSender.goto (h : TwinSender ρ th th') (pc : SenderPc) :
    TwinSender ρ { th with pc := pc } { th' with pc := ρ.senderPc pc } :=
  { h with pc := rfl }

theorem TwinSender.onPass (h : TwinSender ρ th th') (f f' : Pass → Pass)
    (hf : ∀ p p', p'.heard = p.heard → (f' p').heard = (f p).heard) :
    TwinSender ρ (th.onPass f) (th'.onPass f') := by
  refine { h with passes := ?_ }
  have hps := h.passes
  unfold Sender.onPass
  cases hp : th.passes with
  | nil =>
    rw [hp, List.map_nil, List.map_eq_nil_iff] at hps
    rw [hps]
  | cons p ps =>
    rw [hp, List.map_cons] at hps
    obtain ⟨p', ps', hp', hhead, htail⟩ := List.map_eq_cons_iff.mp hps
    rw [hp']
    simp only [List.map_cons]
    rw [hf p p' hhead, htail]

theorem TwinSender.prepare (h : TwinSender ρ th th') (e : Environ) (guid : Text) :
    TwinSender ρ (th.prepare e guid) (th'.prepare e guid) := by
  unfold Sender.prepare
  rw [h.task]
  exact { h with
    task := rfl
    pc := rfl
    broadcastName := rfl
    broadcastInterval := rfl
    upMessage := rfl
    downMessage := rfl
    destinationPort := rfl
    wasFailing := rfl }

theorem TwinSender.beginPass (h : TwinSender ρ th th') (closing : Bool) (config config' : Config) :
    TwinSender ρ (th.beginPass closing config) (th'.beginPass closing config') := by
  refine { h with pc := rfl, passes := ?_ }
  simp only [Sender.beginPass, List.map_cons, h.passes, Pass.heard, h.upMessage, h.downMessage]

theorem TwinSender.acquired (h : TwinSender ρ th th') (closing : Bool) (snapshot : Option Nat)
    (ips : List Text) :
    TwinSender ρ (th.acquired closing snapshot ips)
      (th'.acquired closing (ρ.reSnap snapshot) ips) := by
  have hpass := h.onPass (fun p => { p with snapshot := snapshot, ips := ips })
    (fun p => { p with snapshot := ρ.reSnap snapshot, ips := ips }) fun p p' hp => by
      simp only [Pass.heard, Heard.mk.injEq] at hp ⊢
      exact ⟨hp.1, hp.2.1, trivial, hp.2.2.2⟩
  exact hpass.goto (.sending ⟨closing, snapshot, 0, 0, 0, none⟩)

theorem TwinSender.sendTo (h : TwinSender ρ th th') (p : PassLocals) (ip : Text)
    (enableLogging enableLogging' : Bool)
    (hlevel : ρ.sameLevel = true → enableLogging' = enableLogging) (o : SendOutcome) :
    TwinSender ρ (th.sendTo p ip enableLogging o)
      (th'.sendTo (ρ.passLocals p) ip enableLogging' o) := by
  have hpass := h.onPass (fun q => { q with attempts := q.attempts ++ [ip] })
    (fun q => { q with attempts := q.attempts ++ [ip] }) fun q q' hq => by
      simp only [Pass.heard, Heard.mk.injEq] at hq ⊢
      exact ⟨hq.1, hq.2.1, hq.2.2.1, by rw [hq.2.2.2]⟩
  unfold Sender.sendTo
  dsimp only
  cases sendUnicastMessage ip o with
  | some errno =>
    exact hpass.goto (.sending { p with
      i := p.i + 1, failed := p.failed + 1, lastErrno := errno, lastFailedIp := some ip })
  | none =>
    refine { hpass with pc := rfl, told := ?_, log := fun hsame => ?_ }
    · have htold := hpass.told
      simp only [Sender.told] at htold ⊢
      cases enableLogging <;> cases enableLogging' <;>
        simp only [Bool.false_eq_true, if_false, if_true, told_concat_sent] <;> exact htold
    · have hlog := hpass.log hsame
      simp only [Offset.passLocals, hlevel hsame, hlog, h.upMessage, h.downMessage]

theorem TwinSender.report (h : TwinSender ρ th th') (p : PassLocals) (count : Nat) :
    TwinSender ρ (th.report p count) (th'.report (ρ.passLocals p) count) := by
  have htold := h.told
  simp only [Sender.told] at htold
  obtain ⟨closing, snapshot, i, failed, lastErrno, lastFailedIp⟩ := p
  have hfailing : (th'.report (ρ.passLocals ⟨closing, snapshot, i, failed, lastErrno, lastFailedIp⟩)
      count).wasFailing =
        (th.report ⟨closing, snapshot, i, failed, lastErrno, lastFailedIp⟩ count).wasFailing := by
    cases snapshot with
    | none => exact h.wasFailing
    | some r => rfl
  have hsome : (ρ.reSnap snapshot).isSome = snapshot.isSome := by cases snapshot <;> rfl
  refine { h with pc := rfl, wasFailing := hfailing, told := ?_, log := fun hsame => ?_ }
  · simp only [Sender.told, Sender.report, Offset.passLocals, hsome, h.wasFailing]
    split
    · rw [List.filter_append, List.filter_append, htold]
    · split
      · rw [List.filter_append, List.filter_append, htold]
      · exact htold
  · simp only [Sender.report, Offset.passLocals, hsome, h.wasFailing, h.log hsame]

theorem TwinSender.endPass (h : TwinSender ρ th th') (closing : Bool) (clock : Int) :
    TwinSender ρ (th.endPass closing clock) (th'.endPass closing (clock + ρ.ns)) := by
  unfold Sender.endPass
  cases closing with
  | true => exact h.goto .exited
  | false =>
    refine { h with pc := ?_ }
    change SenderPc.sleeping (clock + ρ.ns + th'.broadcastInterval * nsPerSecond) =
      .sleeping (clock + th.broadcastInterval * nsPerSecond + ρ.ns)
    rw [h.broadcastInterval, Int.add_right_comm]

/-- What a reader holds in a twin. -/
theorem Twin.held (h : Twin ρ c c') (t : Nat) :
    c'.readers[ρ.thread + t]?.bind (·.held) = ρ.reSnap (c.readers[t]?.bind (·.held)) ∧
      c'.readers[ρ.thread + t]?.bind (·.freeing) =
        ρ.reSnap (c.readers[t]?.bind (·.freeing)) := by
  rw [h.readers t]
  cases c.readers[t]? <;> exact ⟨rfl, rfl⟩

/-- The addresses a sender finds in what it acquired. -/
theorem Twin.addresses (h : Twin ρ c c') (hi : CacheInv c) {snapshot : Option Nat}
    (hlt : ∀ r, snapshot = some r → r < c.nextSnap) :
    ((ρ.reSnap snapshot).map c'.podsOf).getD [] = (snapshot.map c.podsOf).getD [] := by
  cases snapshot with
  | none => rfl
  | some r => exact h.podsOf hi (hlt r rfl)

/-- What a sender goes over is in the heap. -/
theorem SenderInv.reading_lt {t : Nat} (h : SenderInv c t th) (hi : CacheInv c) {p : PassLocals}
    (hpc : th.pc = .sending p ∨ th.pc = .reporting p) :
    ∀ r, p.snapshot = some r → r < c.nextSnap := by
  intro r hr
  obtain ⟨rd, hrd, hreads⟩ := h.reader
  have hheld : rd.held = some r := by
    rcases hpc with hpc | hpc <;> rw [hpc] at hreads <;> exact hreads.1.trans hr
  exact (hi.owned (mem_owners_of_reader (List.mem_of_getElem? hrd) hheld)).1

/-- **The senders of twins go on together.** -/
theorem TwinSender.step (h : TwinSender ρ th th') {t : Nat} (htw : Twin ρ c c') (hi : CacheInv c)
    (hs : SenderInv c t th) (guid : Text) {enableLogging enableLogging' : Bool}
    (hlevel : ρ.sameLevel = true → enableLogging' = enableLogging)
    (config config' : Config) (o : SendOutcome) :
    Option.Rel (fun r r' => Twin ρ r.1 r'.1 ∧ TwinSender ρ r.2 r'.2)
      (th.step c guid enableLogging config t o)
      (th'.step c' guid enableLogging' config' (ρ.thread + t) o) := by
  have hpc' := h.pc
  unfold Sender.step
  cases hpc : th.pc with
  | start =>
    simp only [hpc', hpc, Offset.senderPc, htw.environ]
    exact Option.Rel.some ⟨htw, h.prepare c.environ guid⟩
  | check =>
    simp only [hpc', hpc, Offset.senderPc, htw.closing]
    exact Option.Rel.some ⟨htw, h.beginPass c.closing config config'⟩
  | acquiring closing =>
    simp only [hpc', hpc, Offset.senderPc]
    refine Lts.rel_map (htw.step hi (.acquire t)) fun d d' hst hd => ⟨hd, ?_⟩
    have hid := hi.step hst
    have hlt : ∀ r, d.readers[t]?.bind (·.held) = some r → r < d.nextSnap := by
      intro r hr
      obtain ⟨rd, hrd, hheld⟩ := Option.bind_eq_some_iff.mp hr
      exact (hid.owned (mem_owners_of_reader (List.mem_of_getElem? hrd) hheld)).1
    simp only [(hd.held t).1, hd.addresses hid hlt]
    exact h.acquired closing _ _
  | sending p =>
    have hlt := hs.reading_lt hi (Or.inl hpc)
    simp only [hpc', hpc, Offset.senderPc]
    cases hsnap : p.snapshot with
    | none =>
      simp only [Offset.passLocals_snapshot, hsnap, Offset.reSnap, Option.map_none]
      exact Option.Rel.some ⟨htw, h.goto (.reporting p)⟩
    | some r =>
      simp only [Offset.passLocals_snapshot, hsnap, Offset.reSnap, Option.map_some]
      refine Lts.rel_map (htw.step hi (.read t)) fun d d' hst hd => ?_
      obtain rfl := hi.readStep hst
      rw [hd.podsOf hi (hlt r hsnap), Offset.passLocals_i]
      cases (d.podsOf r)[p.i]? with
      | none => exact ⟨hd, h.goto (.reporting p)⟩
      | some ip => exact ⟨hd, h.sendTo p ip enableLogging enableLogging' hlevel o⟩
  | reporting p =>
    have hlt := hs.reading_lt hi (Or.inr hpc)
    simp only [hpc', hpc, Offset.senderPc]
    cases hsnap : p.snapshot with
    | none =>
      simp only [Offset.passLocals_snapshot, hsnap, Offset.reSnap, Option.map_none]
      exact Option.Rel.some ⟨htw, h.report p 0⟩
    | some r =>
      simp only [Offset.passLocals_snapshot, hsnap, Offset.reSnap, Option.map_some]
      refine Lts.rel_map (htw.step hi (.read t)) fun d d' hst hd => ?_
      obtain rfl := hi.readStep hst
      rw [hd.podsOf hi (hlt r hsnap)]
      exact ⟨hd, h.report p _⟩
  | releasing p =>
    simp only [hpc', hpc, Offset.senderPc]
    cases hsnap : p.snapshot with
    | none =>
      simp only [Offset.passLocals_snapshot, hsnap, Offset.reSnap, Option.map_none, htw.clock]
      exact Option.Rel.some ⟨htw, h.endPass p.closing c.clock⟩
    | some r =>
      simp only [Offset.passLocals_snapshot, hsnap, Offset.reSnap, Option.map_some]
      refine Lts.rel_map (htw.step hi (.release t)) fun d d' hst hd => ?_
      rw [(hd.held t).2, hd.clock, Offset.passLocals_closing]
      cases d.readers[t]?.bind (·.freeing) with
      | none => exact ⟨hd, h.endPass p.closing d.clock⟩
      | some q => exact ⟨hd, h.goto (.freeing p.closing)⟩
  | freeing closing =>
    simp only [hpc', hpc, Offset.senderPc]
    refine Lts.rel_map (htw.step hi (.free t)) fun d d' hst hd => ?_
    rw [hd.clock]
    exact ⟨hd, h.endPass closing d.clock⟩
  | sleeping deadline =>
    simp only [hpc', hpc, Offset.senderPc, htw.closing, htw.clock, Int.add_le_add_iff_right]
    split
    · exact Option.Rel.some ⟨htw, h.goto .check⟩
    · exact Option.Rel.none
  | exited =>
    simp only [hpc', hpc, Offset.senderPc]
    exact Option.Rel.none

end Senders

/-! ## 2. Processes -/

/-- The configurations differ at most in `bind` and `loglevel`. -/
structure SamePorts (config config' : Config) : Prop where
  port : config'.port = config.port
  tlsPort : config'.tlsPort = config.tlsPort

/-- The slots of `thread_ids`, with the senders as the second process numbers them. -/
def Offset.slots (ρ : Offset) (slots : List (Option Nat)) : List (Option Nat) :=
  slots.map fun slot => slot.map (ρ.thread + ·)

/-- The variables that make a difference to a sender. -/
structure TwinStatics (ρ : Offset) (st st' : Statics) : Prop where
  globalRedisPort : st'.globalRedisPort = st.globalRedisPort
  globalRedisTls : st'.globalRedisTls = st.globalRedisTls
  redisGuid : st'.redisGuid = st.redisGuid
  threadIds : st'.threadIds = st.threadIds.map ρ.slots
  threadCount : st'.threadCount = st.threadCount
  ipPatterns : st'.ipPatterns = st.ipPatterns
  announced : st'.announced = st.announced
  enableLogging : ρ.sameLevel = true → st'.enableLogging = st.enableLogging

structure TwinHost (ρ : Offset) (host host' : Host) : Prop where
  loaded : host'.loaded = host.loaded
  shutdownHook : host'.shutdownHook = host.shutdownHook
  cronHook : host'.cronHook = host.cronHook
  config : SamePorts host.config host'.config
  loglevel : ρ.sameLevel = true → host'.config.loglevel = host.config.loglevel
  result : host'.result = host.result

structure TwinSystem (ρ : Offset) (s s' : System) : Prop where
  cache : Twin ρ s.cache s'.cache
  threads : s'.senders.length = ρ.thread + s.senders.length
  senders : ∀ t, Option.Rel (TwinSender ρ) s.senders[t]? s'.senders[ρ.thread + t]?
  statics : TwinStatics ρ s.statics s'.statics
  main : s'.main = s.main
  host : TwinHost ρ s.host s'.host
  undefined : s'.undefined = s.undefined

/-- The same action where so many senders come before. -/
def Act.after (n : Nat) : Act → Act
  | .sender t o => .sender (n + t) o
  | a => a

/-- What is done to the one and to the other: the same, but that a `CONFIG SET` may name another
`bind`, and another `loglevel` where the two need not log the same. -/
inductive TwinAct (ρ : Offset) : Act → Act → Prop where
  | same (a : Act) : TwinAct ρ a (a.after ρ.thread)
  | configSet {config config' : Config} (h : SamePorts config config')
      (hlevel : ρ.sameLevel = true → config'.loglevel = config.loglevel) :
      TwinAct ρ (.configSet config) (.configSet config')

section Systems

variable {ρ : Offset} {s s' : System}

theorem SamePorts.refl (config : Config) : SamePorts config config := ⟨rfl, rfl⟩

theorem SamePorts.resolve {config config' : Config} (h : SamePorts config config')
    (e : Environ) : resolveAnnouncedPort e config' = resolveAnnouncedPort e config := by
  unfold resolveAnnouncedPort
  rw [h.port, h.tlsPort]

theorem TwinSystem.toCache (h : TwinSystem ρ s s') {c c' : PodCache} (hc : Twin ρ c c') :
    TwinSystem ρ { s with cache := c } { s' with cache := c' } :=
  { h with cache := hc }

theorem TwinSystem.toMain (h : TwinSystem ρ s s') (main : MainPc) :
    TwinSystem ρ { s with main := main } { s' with main := main } :=
  { h with main := rfl }

/-- Undefined behaviour in both. -/
theorem TwinSystem.undefine (h : TwinSystem ρ s s') :
    TwinSystem ρ { s with undefined := true } { s' with undefined := true } :=
  { h with undefined := rfl }

theorem TwinSystem.toSender (h : TwinSystem ρ s s') {th th' : Sender} (t : Nat)
    (hth : TwinSender ρ th th') :
    TwinSystem ρ { s with senders := s.senders.set t th }
      { s' with senders := s'.senders.set (ρ.thread + t) th' } := by
  refine { h with threads := ?_, senders := ?_ }
  · simp only [List.length_set]
    exact h.threads
  · intro u
    simp only [List.getElem?_set, h.threads, Nat.add_left_cancel_iff, Nat.add_lt_add_iff_left]
    split
    · split
      · exact Option.Rel.some hth
      · exact Option.Rel.none
    · exact h.senders u

/-! ## 3. The callbacks -/

theorem TwinSystem.cacheStep (h : TwinSystem ρ s s') (hi : CacheInv s.cache) (a : CacheAct)
    (ha : ρ.cacheAct a = a) : Option.Rel (TwinSystem ρ) (s.cacheStep a) (s'.cacheStep a) := by
  have hstep := h.cache.step hi a
  rw [ha] at hstep
  exact Lts.rel_map hstep fun c c' _ hc => h.toCache hc

theorem TwinSystem.senderStep (h : TwinSystem ρ s s') (hi : CacheInv s.cache)
    (hs : SendersInv s) (t : Nat) (o : SendOutcome) :
    Option.Rel (TwinSystem ρ) (s.senderStep t o) (s'.senderStep (ρ.thread + t) o) := by
  unfold System.senderStep
  have hrel := h.senders t
  generalize hth : s.senders[t]? = x, hth' : s'.senders[ρ.thread + t]? = x' at hrel
  cases hrel with
  | none => exact Option.Rel.none
  | @some th th' htw =>
    simp only [Option.bind_some, h.statics.redisGuid]
    refine Lts.rel_map (htw.step h.cache hi (hs.sender t th hth) _ h.statics.enableLogging _ _ o) ?_
    intro r r' _ hr
    exact (h.toCache hr.1).toSender t hr.2

theorem TwinSystem.cleanupThreads (h : TwinSystem ρ s s') (caller : Caller) :
    TwinSystem ρ (s.cleanupThreads caller) (s'.cleanupThreads caller) :=
  { h with cache := { h.cache with closing := rfl }, main := rfl }

theorem TwinSystem.redisModuleOnLoad (h : TwinSystem ρ s s') (o : LoadOutcome) :
    TwinSystem ρ (s.redisModuleOnLoad o) (s'.redisModuleOnLoad o) := by
  have hguid : TwinSystem ρ { s with statics := { s.statics with redisGuid := o.guid.bytes } }
      { s' with statics := { s'.statics with redisGuid := o.guid.bytes } } :=
    { h with statics := { h.statics with redisGuid := rfl } }
  unfold System.redisModuleOnLoad
  dsimp only
  rw [h.host.loaded]
  split
  · exact hguid.cleanupThreads .refused
  · have hreset : TwinSystem ρ
        (System.resetForLoad { s with statics := { s.statics with redisGuid := o.guid.bytes } })
        (System.resetForLoad
          { s' with statics := { s'.statics with redisGuid := o.guid.bytes } }) :=
      { hguid with
        cache := { hguid.cache with closing := rfl }
        statics := { hguid.statics with announced := rfl } }
    have hport := hreset.host.config.resolve s.cache.environ
    split
    · unfold System.completeLoad
      dsimp only
      rw [hreset.cache.environ]
      refine { hreset with statics := ?_, host := ?_ }
      · exact { hreset.statics with
          globalRedisPort := congrArg Prod.fst hport
          globalRedisTls := congrArg Prod.snd hport
          enableLogging := fun hsame => by
            dsimp only
            rw [hreset.statics.enableLogging hsame, hreset.host.loglevel hsame] }
      · refine { hreset.host with
          loaded := rfl
          shutdownHook := rfl
          cronHook := ?_
          result := rfl }
        exact congrArg (fun r : Int × Bool => if r.1 ≤ 0 then false else o.cronOk) hport
    · exact { hreset with host := { hreset.host with result := rfl } }

theorem TwinSystem.sendUdpMessage (h : TwinSystem ρ s s') (o : System.StartOutcome) :
    TwinSystem ρ (s.sendUdpMessage o) (s'.sendUdpMessage o) := by
  have hcount : TwinSystem ρ { s with statics := { s.statics with threadCount := 0 } }
      { s' with statics := { s'.statics with threadCount := 0 } } :=
    { h with statics := { h.statics with threadCount := rfl } }
  have hpatterns : initIpPatterns s'.cache.environ o.copyOk o.dupOk s'.statics.ipPatterns =
      initIpPatterns s.cache.environ o.copyOk o.dupOk s.statics.ipPatterns := by
    rw [h.cache.environ, h.statics.ipPatterns]
  unfold System.sendUdpMessage
  dsimp only
  rw [hpatterns]
  cases o.ifaddrs with
  | none => exact hcount
  | some ifaddr =>
    dsimp only
    split
    · exact hcount
    · split
      · cases initIpPatterns s.cache.environ o.copyOk o.dupOk s.statics.ipPatterns with
        | none => exact { hcount with undefined := rfl }
        | some patterns =>
          refine { hcount with
            statics := { hcount.statics with threadIds := ?_, ipPatterns := rfl }
            main := rfl }
          simp only [Option.map_some, Offset.slots, List.map_replicate, Option.map_none]
      · exact { hcount with statics := { hcount.statics with threadIds := rfl } }

theorem TwinSystem.cronBroadcastOnce (h : TwinSystem ρ s s') (hi : CacheInv s.cache)
    (o : System.StartOutcome) :
    Option.Rel (TwinSystem ρ) (s.cronBroadcastOnce o) (s'.cronBroadcastOnce o) := by
  unfold System.cronBroadcastOnce
  rw [h.statics.announced, h.cache.closing]
  split
  · exact Option.Rel.some h
  · unfold System.startBroadcasting
    dsimp only
    refine Lts.rel_map (h.cache.step hi (.start o.clientOk o.threadOk)) fun c c' _ hc => ?_
    rw [(h.cache.podCacheStart o.clientOk o.threadOk).2]
    have hstatics : TwinStatics ρ { s.statics with announced := true }
        { s'.statics with announced := true } := { h.statics with announced := rfl }
    split
    · refine TwinSystem.sendUdpMessage ?_ o
      exact { h with cache := hc, statics := hstatics }
    · exact { h with cache := hc, statics := hstatics }

/-- A new sender is the next one in both. -/
theorem TwinSystem.spawn (h : TwinSystem ρ s s') (a : InAddr) :
    TwinSystem ρ (s.spawn a) (s'.spawn a) := by
  have hnew : TwinSender ρ
      (Sender.create (BroadcastTask.create (inetNtop a) s.statics.globalRedisPort
        s.statics.globalRedisTls))
      (Sender.create (BroadcastTask.create (inetNtop a) s'.statics.globalRedisPort
        s'.statics.globalRedisTls)) := by
    rw [h.statics.globalRedisPort, h.statics.globalRedisTls]
    exact ⟨rfl, rfl, rfl, rfl, rfl, rfl, rfl, rfl, rfl, fun _ => rfl, rfl⟩
  have hids := h.statics.threadIds
  unfold System.spawn
  dsimp only
  cases hslots : s.statics.threadIds with
  | none =>
    rw [hslots] at hids
    rw [hids]
    exact h.undefine
  | some slots =>
    rw [hslots] at hids
    rw [hids]
    simp only [Option.map_some, h.statics.threadCount, Offset.slots, List.length_map]
    split
    · refine { h with
        cache := h.cache.spawnReader
        threads := ?_
        senders := ?_
        statics := { h.statics with threadIds := ?_, threadCount := rfl } }
      · simp only [List.length_append, List.length_singleton, h.threads, Nat.add_assoc]
      · intro t
        simp only [List.getElem?_append, h.threads, Nat.add_lt_add_iff_left]
        split
        · exact h.senders t
        · rw [Nat.add_sub_add_left]
          cases t - s.senders.length with
          | zero => exact Option.Rel.some hnew
          | succ n => exact Option.Rel.none
      · simp only [Option.map_some, Offset.slots, List.map_set, h.threads]
    · exact h.undefine

theorem TwinSystem.spawnStep (h : TwinSystem ρ s s') (ifa : Option InAddr)
    (o : System.SpawnOutcome) : TwinSystem ρ (s.spawnStep ifa o) (s'.spawnStep ifa o) := by
  unfold System.spawnStep
  cases ifa with
  | none => exact h
  | some a =>
    dsimp only
    rw [h.statics.ipPatterns]
    cases ipMatchesPattern (inetNtop a) s.statics.ipPatterns with
    | none => exact h.undefine
    | some selected =>
      cases selected with
      | false => exact h
      | true =>
        dsimp only
        split
        · exact h.spawn a
        · exact h

/-- **The joins of twins return together.** -/
theorem TwinSystem.joinStep (h : TwinSystem ρ s s') (i : Nat) :
    Option.Rel (TwinSystem ρ) (s.joinStep i) (s'.joinStep i) := by
  have hslot : s'.statics.threadIds.bind (·[i]?.join) =
      (s.statics.threadIds.bind (·[i]?.join)).map (ρ.thread + ·) := by
    rw [h.statics.threadIds]
    cases s.statics.threadIds with
    | none => rfl
    | some slots =>
      simp only [Option.map_some, Option.bind_some, Offset.slots, List.getElem?_map]
      rcases slots[i]? with _ | _ | t <;> rfl
  unfold System.joinStep
  rw [hslot]
  cases s.statics.threadIds.bind (·[i]?.join) with
  | none => exact Option.Rel.some h.undefine
  | some t =>
    dsimp only [Option.map_some]
    have hrel := h.senders t
    generalize hth : s.senders[t]? = x, hth' : s'.senders[ρ.thread + t]? = x' at hrel
    cases hrel with
    | none => exact Option.Rel.some h.undefine
    | @some th th' htw =>
      dsimp only
      have hpc' := htw.pc
      cases hpc : th.pc with
      | exited =>
        simp only [hpc', hpc, Offset.senderPc]
        exact Option.Rel.some (h.toSender t { htw with pc := rfl })
      | _ =>
        simp only [hpc', hpc, Offset.senderPc]
        exact Option.Rel.none

theorem TwinSystem.returnTo (h : TwinSystem ρ s s') (caller : Caller) :
    TwinSystem ρ (s.returnTo caller) (s'.returnTo caller) := by
  have hidle : TwinSystem ρ
      { s with statics := { s.statics with ipPatterns := [] }, main := .idle }
      { s' with statics := { s'.statics with ipPatterns := [] }, main := .idle } :=
    { h with statics := { h.statics with ipPatterns := rfl }, main := rfl }
  cases caller with
  | shutdown => exact hidle
  | unload =>
    exact { hidle with
      host := { hidle.host with loaded := rfl, shutdownHook := rfl, cronHook := rfl } }
  | refused => exact { hidle with host := { hidle.host with result := rfl } }

/-- **The main threads of twins go on together.** -/
theorem TwinSystem.mainStep (h : TwinSystem ρ s s') (hi : CacheInv s.cache)
    (o : System.SpawnOutcome) : Option.Rel (TwinSystem ρ) (s.mainStep o) (s'.mainStep o) := by
  unfold System.mainStep
  rw [h.main]
  cases s.main with
  | idle => exact Option.Rel.none
  | spawning todo =>
    cases todo with
    | nil => exact Option.Rel.some (h.toMain .idle)
    | cons ifa todo => exact Option.Rel.some ((h.spawnStep ifa o).toMain (.spawning todo))
  | joining i caller =>
    dsimp only
    rw [h.statics.threadCount]
    split
    · exact Lts.rel_map (h.joinStep i) fun t t' _ ht => ht.toMain (.joining (i + 1) caller)
    · exact Option.Rel.some { h with
        statics := { h.statics with threadIds := rfl, threadCount := rfl }
        main := rfl }
  | stopping caller =>
    dsimp only
    refine Lts.rel_map (h.cache.step hi .stop) fun c c' _ hc => ?_
    have hidle : c'.stopper = .idle ↔ c.stopper = .idle := by
      rw [hc.stopper]
      cases c.stopper <;> simp [Offset.stopPc]
    by_cases hs : c.stopper = .idle
    · rw [if_pos hs, if_pos (hidle.mpr hs)]
      exact (h.toCache hc).returnTo caller
    · rw [if_neg hs, if_neg fun hs' => hs (hidle.mp hs')]
      exact { h with cache := hc, main := rfl }

/-! ## 4. Runs -/

/-- **Twins stay twins.**  What can be done to the one can be done to the other. -/
theorem TwinSystem.step (h : TwinSystem ρ s s') (hr : s.Reachable) {a b : Act}
    (hab : TwinAct ρ a b) : Option.Rel (TwinSystem ρ) (s.step a) (s'.step b) := by
  have hi := hr.cache.inv
  unfold System.step
  rw [h.undefined]
  split
  · exact Option.Rel.none
  · cases hab with
    | configSet hports hlevel =>
      dsimp only
      rw [h.main]
      split
      · exact Option.Rel.some { h with
          host := { h.host with config := hports, loglevel := hlevel }
          main := rfl
          undefined := rfl }
      · exact Option.Rel.none
    | same a =>
      cases a with
      | tick ns => exact h.cacheStep hi (.tick ns) rfl
      | configSet config =>
        dsimp only [Act.after]
        rw [h.main]
        split
        · have hhost : TwinHost ρ { s.host with config := config }
              { s'.host with config := config } :=
            { h.host with config := SamePorts.refl config, loglevel := fun _ => rfl }
          exact Option.Rel.some { h with host := hhost, main := rfl, undefined := rfl }
        · exact Option.Rel.none
      | load o =>
        dsimp only [Act.after]
        rw [h.main]
        split
        · exact Option.Rel.some (h.redisModuleOnLoad o)
        · exact Option.Rel.none
      | cron o =>
        dsimp only [Act.after]
        rw [h.main, h.host.loaded, h.host.cronHook]
        split
        · exact h.cronBroadcastOnce hi o
        · exact Option.Rel.none
      | shutdown =>
        dsimp only [Act.after]
        rw [h.main, h.host.loaded, h.host.shutdownHook]
        split
        · exact Option.Rel.some (h.cleanupThreads .shutdown)
        · exact Option.Rel.none
      | unload =>
        dsimp only [Act.after]
        rw [h.main, h.host.loaded]
        split
        · exact Option.Rel.some (h.cleanupThreads .unload)
        · exact Option.Rel.none
      | main o => exact h.mainStep hi o
      | refresher => exact h.cacheStep hi .refresher rfl
      | fetchEnds a => exact h.cacheStep hi (.fetchEnds a) rfl
      | publishAlloc ok => exact h.cacheStep hi (.publishAlloc ok) rfl
      | sender t o => exact h.senderStep hi hr.senders t o

/-- **Twins through whole runs.** -/
theorem TwinSystem.exec (h : TwinSystem ρ s s') (hr : s.Reachable) {as bs : List Act}
    (hab : List.Forall₂ (TwinAct ρ) as bs) :
    Option.Rel (TwinSystem ρ) (Lts.exec System.step s as) (Lts.exec System.step s' bs) := by
  refine Lts.exec_rel (I := System.Reachable) ?_ ?_ hab hr h
  · exact fun t a u ht hst => ht.next hst
  · exact fun t t' a b ht htw hab => htw.step ht hab

/-! ## 5. What can be told from outside -/

/-- The passes of each sender, what it reports of its failures, and what the refresher logs. -/
structure Outside where
  heard : List (List Heard)
  told : List (List SenderLog)
  log : List LogEntry

/-- The same, of the senders from number `n` on and behind the first `k` lines. -/
def System.outside (s : System) (n k : Nat) : Outside where
  heard := (s.senders.drop n).map fun th => th.passes.map Pass.heard
  told := (s.senders.drop n).map Sender.told
  log := s.cache.log.drop k

/-- All that the senders from number `n` on log, the lines about single datagrams with it. -/
def System.senderLogs (s : System) (n : Nat) : List (List SenderLog) :=
  (s.senders.drop n).map (·.log)

/-- A list behind its first `n` places. -/
theorem map_drop_eq {α β : Type} {xs ys : List α} {f : α → β} {n : Nat}
    (h : ∀ t, ys[n + t]?.map f = xs[t]?.map f) : (ys.drop n).map f = xs.map f := by
  refine List.ext_getElem? fun t => ?_
  rw [List.getElem?_map, List.getElem?_map, List.getElem?_drop]
  exact h t

theorem TwinSystem.map_senders (h : TwinSystem ρ s s') {β : Type} {f : Sender → β}
    (hf : ∀ th th', TwinSender ρ th th' → f th' = f th) :
    (s'.senders.drop ρ.thread).map f = s.senders.map f := by
  refine map_drop_eq fun t => ?_
  have hrel := h.senders t
  generalize s.senders[t]? = x, s'.senders[ρ.thread + t]? = x' at hrel
  cases hrel with
  | some htw => exact congrArg some (hf _ _ htw)
  | none => rfl

/-- **Twins cannot be told apart** but by what was there before. -/
theorem TwinSystem.outside (h : TwinSystem ρ s s') :
    s'.outside ρ.thread ρ.log.length = s.outside 0 0 := by
  simp only [System.outside, List.drop_zero, Outside.mk.injEq]
  refine ⟨h.map_senders fun th th' htw => htw.passes, h.map_senders fun th th' htw => htw.told, ?_⟩
  rw [h.cache.log, List.drop_left]

/-- At the same log level they log the same datagrams, too. -/
theorem TwinSystem.senderLogs (h : TwinSystem ρ s s') (hsame : ρ.sameLevel = true) :
    s'.senderLogs ρ.thread = s.senderLogs 0 :=
  h.map_senders fun _ _ htw => htw.log hsame

end Systems

end Unicaster
