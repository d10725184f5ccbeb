/-
# The announced listener

`RedisModule_OnLoad` resolves the port and the transport once, from the configuration it reads;
the value goes through the file-scope variables, the task of each sender and its `up` message.
`Announced` says where it stands in each of these places, over every run within one load.

The policy itself is stated by itself (`policy`), over the listeners that are up.
-/
import Unicaster.Cleanup
import Unicaster.Message

namespace Unicaster

open CLib

/-! ## 1. The policy -/

/-- The port of a listener, if it is up: the reply is a text that reads as a positive number. -/
def upPort (reply : ConfigReply) : Option Int :=
  match reply with
  | .string bytes => if 0 < parseInt (cstr bytes) then some (parseInt (cstr bytes)) else none
  | _ => none

/-- `REDIS_BROADCAST_TLS` is one of these words, in any mix of small letters and capitals. -/
def Environ.TlsIsOneOf (e : Environ) (words : List Text) : Prop :=
  ∃ value, e.broadcastTls = some value ∧ ∃ word ∈ words, Spells word value.bytes

def Environ.AsksForTls (e : Environ) : Prop :=
  e.TlsIsOneOf [ascii "1", ascii "yes", ascii "true", ascii "on"]

def Environ.AsksForPlain (e : Environ) : Prop :=
  e.TlsIsOneOf [ascii "0", ascii "no", ascii "false", ascii "off"]

/-- What is announced: `pref` is 1 for TLS, 0 for plaintext, and otherwise no preference. -/
def policy (pref : Int) (port tlsPort : Option Int) : Option (Int × Bool) :=
  if pref = 1 then tlsPort.map fun p => (p, true)
  else if pref = 0 then port.map fun p => (p, false)
  else (port.map fun p => (p, false)).orElse fun _ => tlsPort.map fun p => (p, true)

/-- What the policy says for a configuration. -/
def chosen (e : Environ) (config : Config) : Option (Int × Bool) :=
  policy (getTlsPreference e) (upPort config.port) (upPort config.tlsPort)

section Policy

variable {e : Environ} {config : Config} {reply : ConfigReply} {port : Int} {tls : Bool}

theorem upPort_eq (reply : ConfigReply) :
    upPort reply = if getConfigInt reply 0 > 0 then some (getConfigInt reply 0) else none := by
  cases reply with
  | missing => rfl
  | notString => rfl
  | string bytes => rfl

theorem upPort_pos {p : Int} (h : upPort reply = some p) : 0 < p := by
  rw [upPort_eq] at h
  split at h
  · rename_i hp
    exact Option.some.inj h ▸ hp
  · exact absurd h (by simp)

/-- A preference among some words, as `strcasecmp` finds it. -/
theorem tlsIsOneOf_iff {value : CString} (he : e.broadcastTls = some value) {words : List Text}
    (hw : ∀ word ∈ words, ∀ w ∈ word, ¬ (65 ≤ w ∧ w ≤ 90)) :
    e.TlsIsOneOf words ↔ ∃ word ∈ words, strcaseeq value.bytes word = true := by
  constructor
  · rintro ⟨v, hv, word, hm, hspells⟩
    obtain rfl := Option.some.inj (hv.symm.trans he)
    exact ⟨word, hm, (strcaseeq_iff (hw word hm)).mpr hspells⟩
  · rintro ⟨word, hm, heq⟩
    exact ⟨value, he, word, hm, (strcaseeq_iff (hw word hm)).mp heq⟩

/-- **What the variable asks for** is what `get_tls_preference` returns. -/
theorem getTlsPreference_iff (e : Environ) :
    (getTlsPreference e = 1 ↔ e.AsksForTls) ∧ (getTlsPreference e = 0 ↔ e.AsksForPlain) := by
  cases he : e.broadcastTls with
  | none =>
    have hno : ∀ words, ¬ e.TlsIsOneOf words := by
      rintro words ⟨v, hv, -⟩
      exact absurd (hv.symm.trans he) (by simp)
    have hpref : getTlsPreference e = -1 := by rw [getTlsPreference, he]
    rw [hpref]
    exact ⟨iff_of_false (by decide) (hno _), iff_of_false (by decide) (hno _)⟩
  | some value =>
    unfold Environ.AsksForTls Environ.AsksForPlain
    rw [tlsIsOneOf_iff he (by decide +kernel), tlsIsOneOf_iff he (by decide +kernel),
      getTlsPreference, he]
    simp only [List.mem_cons, List.not_mem_nil, or_false, exists_eq_or_imp, exists_eq_left]
    by_cases hnil : value.bytes = []
    · rw [if_pos hnil, hnil]
      decide
    · rw [if_neg hnil]
      split
      · rename_i htls
        refine ⟨iff_of_true rfl htls, iff_of_false (by decide) ?_⟩
        -- no word is on both lists
        simp only [strcaseeq, decide_eq_true_eq] at htls ⊢
        rcases htls with h | h | h | h <;> rw [h] <;> decide
      · rename_i htls
        split
        · rename_i hplain
          exact ⟨iff_of_false (by decide) htls, iff_of_true rfl hplain⟩
        · rename_i hplain
          exact ⟨iff_of_false (by decide) htls, iff_of_false (by decide) hplain⟩

/-- **`resolve_announced_port` computes the policy**, with 0 for nothing. -/
theorem resolveAnnouncedPort_eq (e : Environ) (config : Config) :
    resolveAnnouncedPort e config = (chosen e config).getD (0, false) := by
  unfold resolveAnnouncedPort chosen policy
  rw [upPort_eq, upPort_eq]
  dsimp only
  by_cases h1 : getTlsPreference e = 1
  · rw [if_pos h1, if_pos h1]
    by_cases ht : getConfigInt config.tlsPort 0 > 0
    · rw [if_pos ht, if_pos ht]
      rfl
    · rw [if_neg ht, if_neg ht]
      rfl
  · rw [if_neg h1, if_neg h1]
    by_cases h0 : getTlsPreference e = 0
    · rw [if_pos h0, if_pos h0]
      by_cases hp : getConfigInt config.port 0 > 0
      · rw [if_pos hp, if_pos hp]
        rfl
      · rw [if_neg hp, if_neg hp]
        rfl
    · rw [if_neg h0, if_neg h0]
      by_cases hp : getConfigInt config.port 0 > 0
      · rw [if_pos hp, if_pos hp]
        rfl
      · rw [if_neg hp, if_neg hp]
        by_cases ht : getConfigInt config.tlsPort 0 > 0
        · rw [if_pos ht, if_pos ht]
          rfl
        · rw [if_neg ht, if_neg ht]
          rfl

/-- What is chosen is a listener that is up, and the one asked for. -/
theorem chosen_some (h : chosen e config = some (port, tls)) :
    0 < port ∧
      (tls = true ∧ upPort config.tlsPort = some port ∨
        tls = false ∧ upPort config.port = some port) ∧
      (e.AsksForTls → tls = true) ∧ (e.AsksForPlain → tls = false) := by
  rw [← (getTlsPreference_iff e).1, ← (getTlsPreference_iff e).2]
  have hcases : tls = true ∧ upPort config.tlsPort = some port ∧ getTlsPreference e ≠ 0 ∨
      tls = false ∧ upPort config.port = some port ∧ getTlsPreference e ≠ 1 := by
    unfold chosen policy at h
    split at h
    · rename_i h1
      obtain ⟨p, hp, heq⟩ := Option.map_eq_some_iff.mp h
      obtain ⟨rfl, rfl⟩ := Prod.mk.inj heq
      exact Or.inl ⟨rfl, hp, by omega⟩
    · rename_i h1
      split at h
      · obtain ⟨p, hp, heq⟩ := Option.map_eq_some_iff.mp h
        obtain ⟨rfl, rfl⟩ := Prod.mk.inj heq
        exact Or.inr ⟨rfl, hp, h1⟩
      · rename_i h0
        cases hp : upPort config.port with
        | some p =>
          rw [hp] at h
          obtain ⟨rfl, rfl⟩ := Prod.mk.inj (Option.some.inj h)
          exact Or.inr ⟨rfl, rfl, h1⟩
        | none =>
          rw [hp] at h
          obtain ⟨p, hp, heq⟩ := Option.map_eq_some_iff.mp h
          obtain ⟨rfl, rfl⟩ := Prod.mk.inj heq
          exact Or.inl ⟨rfl, hp, h0⟩
  rcases hcases with ⟨rfl, hp, h0⟩ | ⟨rfl, hp, h1⟩
  · exact ⟨upPort_pos hp, Or.inl ⟨rfl, hp⟩, fun _ => rfl, fun h => absurd h h0⟩
  · exact ⟨upPort_pos hp, Or.inr ⟨rfl, hp⟩, fun h => absurd h h1, fun _ => rfl⟩

/-- Nothing is chosen exactly when no listener is up that the preference allows. -/
theorem chosen_none :
    chosen e config = none ↔
      (¬ e.AsksForPlain → upPort config.tlsPort = none) ∧
        (¬ e.AsksForTls → upPort config.port = none) := by
  rw [← (getTlsPreference_iff e).1, ← (getTlsPreference_iff e).2]
  unfold chosen policy
  by_cases h1 : getTlsPreference e = 1
  · rw [if_pos h1]
    simp [h1]
  · rw [if_neg h1]
    by_cases h0 : getTlsPreference e = 0
    · rw [if_pos h0]
      simp [h0]
    · rw [if_neg h0]
      cases hp : upPort config.port with
      | some p => simp [h1]
      | none => simp [h0]

/-- With no preference and the plaintext listener up, the TLS listener makes no difference. -/
theorem chosen_plain (h1 : ¬ e.AsksForTls) (h : upPort config.port = some port)
    (tlsPort : ConfigReply) : chosen e { config with tlsPort := tlsPort } = some (port, false) := by
  rw [← (getTlsPreference_iff e).1] at h1
  unfold chosen policy
  rw [if_neg h1, h]
  split <;> rfl

/-- The hook is subscribed exactly when something is chosen. -/
theorem resolveAnnouncedPort_pos :
    (resolveAnnouncedPort e config).1 ≤ 0 ↔ chosen e config = none := by
  rw [resolveAnnouncedPort_eq]
  cases h : chosen e config with
  | none => simp
  | some r =>
    obtain ⟨port, tls⟩ := r
    have hpos := (chosen_some h).1
    simp only [Option.getD_some, reduceCtorEq, iff_false]
    omega

end Policy

/-! ## 2. The four copies -/

/-- The value `chosen` in the file-scope variables, in the tasks of the senders from number `n`
on, and in their `up` messages. -/
structure Announced (e : Environ) (chosen : Int × Bool) (n : Nat) (s : System) : Prop where
  environ : s.cache.environ = e
  port : s.statics.globalRedisPort = chosen.1
  tls : s.statics.globalRedisTls = chosen.2
  guid : ∃ g : Guid, s.statics.redisGuid = g.bytes
  count : n ≤ s.senders.length
  task : ∀ t th, n ≤ t → s.senders[t]? = some th →
    ∃ a, th.task = BroadcastTask.create (inetNtop a) chosen.1 chosen.2
  message : ∀ t th, n ≤ t → s.senders[t]? = some th → th.pc = .start ∨
    ∃ g : Guid, th.upMessage = upMessage e.getServiceName g.bytes th.task e.getInterval

section Copies

variable {s s' : System} {c c' : PodCache} {th th' : Sender} {e : Environ} {r : Int × Bool}
  {n t : Nat}

/-- What a step within one load does to the variables of the announcement. -/
theorem Move.announcement {a : Act} (h : Move s a s') (hok : SameLoad s a)
    (hg : ∃ g : Guid, s.statics.redisGuid = g.bytes) :
    s'.statics.globalRedisPort = s.statics.globalRedisPort ∧
      s'.statics.globalRedisTls = s.statics.globalRedisTls ∧
      (∃ g : Guid, s'.statics.redisGuid = g.bytes) ∧
      (s'.host.cronHook = true → s.host.cronHook = true) ∧
      (s'.statics.announced = true → s.statics.announced = true ∨ s.host.cronHook = true) := by
  cases h with
  | tick => exact ⟨rfl, rfl, hg, id, Or.inl⟩
  | refresher hb hc ha => exact ⟨rfl, rfl, hg, id, Or.inl⟩
  | sender hth hst => exact ⟨rfl, rfl, hg, id, Or.inl⟩
  | configSet hm => exact ⟨rfl, rfl, hg, id, Or.inl⟩
  | @refused o hm hbusy => exact ⟨rfl, rfl, ⟨o.guid, rfl⟩, id, Or.inl⟩
  | curlFails hm hloaded hbusy hcurl => exact absurd ⟨_, rfl, hloaded, hbusy⟩ hok
  | load hm hloaded hbusy hcurl => exact absurd ⟨_, rfl, hloaded, hbusy⟩ hok
  | @cron o s' hm hhook hst =>
    obtain ⟨-, hhost, hguid, -, hport, htls⟩ := cronBroadcastOnce_frame hst
    refine ⟨hport, htls, hguid ▸ hg, fun hc => hhost ▸ hc, fun _ => Or.inr hhook.2⟩
  | cleanup hm hloaded ha => exact ⟨rfl, rfl, hg, id, Or.inl⟩
  | @main o s' hst =>
    rcases mainStep_eq hst with ⟨hm, rfl⟩ | ⟨ifa, todo, hm, rfl⟩ |
      ⟨i, caller, s1, hm, hi, hj, rfl⟩ | ⟨i, caller, hm, hi, rfl⟩ | ⟨caller, c', hm, hc, rfl⟩
    · exact ⟨rfl, rfl, hg, id, Or.inl⟩
    · rcases spawnStep_eq s ifa o with heq | heq | ⟨a, slots, -, -, -, heq⟩ <;> rw [heq] <;>
        exact ⟨rfl, rfl, hg, id, Or.inl⟩
    · rcases joinStep_eq hj with ⟨rfl, -⟩ | ⟨u, thu, -, hu, -, rfl⟩ <;>
        exact ⟨rfl, rfl, hg, id, Or.inl⟩
    · exact ⟨rfl, rfl, hg, id, Or.inl⟩
    · split
      · cases caller with
        | shutdown => exact ⟨rfl, rfl, hg, id, Or.inl⟩
        | unload => exact ⟨rfl, rfl, hg, fun hno => absurd hno (by simp [System.returnTo]), Or.inl⟩
        | refused => exact ⟨rfl, rfl, hg, id, Or.inl⟩
      · exact ⟨rfl, rfl, hg, id, Or.inl⟩

theorem Move.length_le {a : Act} (h : Move s a s') : s.senders.length ≤ s'.senders.length := by
  rcases Nat.eq_zero_or_pos s.senders.length with h0 | hpos
  · omega
  · obtain ⟨th, hth⟩ : ∃ th, s.senders[s.senders.length - 1]? = some th :=
      ⟨_, List.getElem?_eq_getElem (by omega)⟩
    obtain ⟨th', hth', -⟩ := h.sender_cases hth
    have hlt := (List.getElem?_eq_some_iff.mp hth').1
    omega

/-- **The four copies agree over every step within one load.** -/
theorem Announced.step (h : Announced e r n s) (hr : s.Reachable) {a : Act}
    (hok : SameLoad s a) (hst : s.step a = some s') : Announced e r n s' := by
  have hmv := System.move_of_step hst
  obtain ⟨hport, htls, hguid, -, -⟩ := hmv.announcement hok h.guid
  -- a sender is an old one, and then one of these, or a new one
  have hcases : ∀ (t : Nat) (th' : Sender), n ≤ t → s'.senders[t]? = some th' →
      (∃ a, th'.task = BroadcastTask.create (inetNtop a) r.1 r.2) ∧ (th'.pc = .start ∨
        ∃ g : Guid, th'.upMessage = upMessage e.getServiceName g.bytes th'.task e.getInterval) := by
    intro t th' hn hth'
    rcases Nat.lt_or_ge t s.senders.length with hlt | hge
    · obtain ⟨th, hth⟩ : ∃ th, s.senders[t]? = some th := ⟨_, List.getElem?_eq_getElem hlt⟩
      obtain ⟨th1, hth1, hor⟩ := hmv.sender_cases hth
      obtain rfl : th1 = th' := Option.some.inj (hth1.symm.trans hth')
      have htask := h.task t th hn hth
      have hmsg := h.message t th hn hth
      rcases hor with rfl | ⟨m, rfl⟩ | ⟨o, -, hown⟩
      · exact ⟨htask, hmsg⟩
      · exact ⟨htask, hmsg⟩
      · have hkeep := hown.fixed.1.2
        rw [hkeep]
        refine ⟨htask, Or.inr ?_⟩
        rcases hown.messages_eq with hnew | ⟨hne, hm, -⟩
        · obtain ⟨g, hg⟩ := h.guid
          rw [hnew.1, hkeep, h.environ, hg]
          exact ⟨g, rfl⟩
        · rw [hm]
          exact hmsg.resolve_left hne
    · obtain ⟨-, a, rfl⟩ := hmv.new_sender hge hth'
      rw [h.port, h.tls]
      exact ⟨⟨a, rfl⟩, Or.inl rfl⟩
  refine ⟨?_, hport.trans h.port, htls.trans h.tls, hguid, ?_,
    fun t th hn hth => (hcases t th hn hth).1, fun t th hn hth => (hcases t th hn hth).2⟩
  · rcases hmv.cache with heq | ⟨b, hb⟩
    · rw [heq]
      exact h.environ
    · exact (hr.cache.inv.environ_step hb).trans h.environ
  · exact Nat.le_trans h.count hmv.length_le

theorem Announced.run (h : Announced e r n s) (hr : s.Reachable)
    (hrun : Lts.Run System.step SameLoad s s') : Announced e r n s' := by
  have hall : s'.Reachable ∧ Announced e r n s' := by
    refine hrun.invariant (I := fun u => u.Reachable ∧ Announced e r n u) ⟨hr, h⟩ ?_
    rintro u a v ⟨hu, ha⟩ hok hst
    exact ⟨hu.next hst, ha.step hu hok hst⟩
  exact hall.2

/-- A sender that has ended announces nothing any more. -/
theorem exited_run (hth : s.senders[t]? = some th) (hpc : th.pc = .exited)
    (hrun : Lts.Run System.step SameLoad s s') :
    ∃ th', s'.senders[t]? = some th' ∧ th'.passes = th.passes := by
  have hall : ∃ th', s'.senders[t]? = some th' ∧ th'.pc = .exited ∧ th'.passes = th.passes := by
    refine hrun.invariant (I := fun u => ∃ th', u.senders[t]? = some th' ∧ th'.pc = .exited ∧
      th'.passes = th.passes) ⟨th, hth, hpc, rfl⟩ ?_
    rintro u a v ⟨thu, hthu, hpcu, hpu⟩ - hst
    obtain ⟨thv, hthv, rfl | ⟨n, rfl⟩ | ⟨o, -, hmv⟩⟩ :=
      (System.move_of_step hst).sender_cases hthu
    · exact ⟨_, hthv, hpcu, hpu⟩
    · exact ⟨_, hthv, hpcu, hpu⟩
    · exact absurd hpcu hmv.fixed.2
  obtain ⟨th', hth', -, hp⟩ := hall
  exact ⟨th', hth', hp⟩

/-- Without the hook, and before `start_broadcasting`, no sender is ever created. -/
theorem System.Reachable.silent_run (h : s.Reachable) (hhook : s.host.cronHook = false)
    (hno : s.statics.announced = false) (hg : ∃ g : Guid, s.statics.redisGuid = g.bytes)
    (hrun : Lts.Run System.step SameLoad s s') : s'.senders.length = s.senders.length := by
  have hall : (s'.Reachable ∧ s'.host.cronHook = false ∧ s'.statics.announced = false ∧
      ∃ g : Guid, s'.statics.redisGuid = g.bytes) ∧ s'.senders.length = s.senders.length := by
    refine hrun.invariant (I := fun u => (u.Reachable ∧ u.host.cronHook = false ∧
      u.statics.announced = false ∧ ∃ g : Guid, u.statics.redisGuid = g.bytes) ∧
        u.senders.length = s.senders.length) ⟨⟨h, hhook, hno, hg⟩, rfl⟩ ?_
    rintro u a v ⟨⟨hu, hhu, hau, hgu⟩, hlen⟩ hok hst
    have hmv := System.move_of_step hst
    obtain ⟨-, -, hgv, hhook', hann⟩ := hmv.announcement hok hgu
    refine ⟨⟨hu.next hst, ?_, ?_, hgv⟩, ?_⟩
    · exact Bool.eq_false_iff.mpr fun ht => by simp [hhook' ht] at hhu
    · refine Bool.eq_false_iff.mpr fun ht => ?_
      rcases hann ht with ha | hh
      · simp [ha] at hau
      · simp [hh] at hhu
    · rw [← hlen]
      refine Nat.le_antisymm (Nat.le_of_not_lt fun hlt => ?_) hmv.length_le
      obtain ⟨⟨todo, hm⟩, -⟩ := hmv.new_sender (Nat.le_refl _) (List.getElem?_eq_getElem hlt)
      have hp := hu.life.place
      rw [hm] at hp
      have ha : u.statics.announced = true := hp.2.1.2.1
      simp [ha] at hau
  exact hall.2

end Copies

/-! ## 3. From the load to the datagrams -/

/-- `RedisModule_OnLoad` is called in `s₀`, registers the module, and its subscriptions succeed;
it leaves `s₁`. -/
structure SuccessfulLoad (e : Environ) (config : Config) (o : LoadOutcome) (s₀ s₁ : System) :
    Prop where
  reachable : s₀.Reachable
  environ : s₀.cache.environ = e
  config : s₀.host.config = config
  notLoaded : s₀.host.loaded = false
  nameFree : o.nameBusy = false
  curlOk : o.curlOk = true
  shutdownOk : o.shutdownOk = true
  cronOk : o.cronOk = true
  step : s₀.step (.load o) = some s₁

/-- The `up` datagram names that port and that transport; where it fits, it is the record of six
fields, the last one `tls` or `plain`. -/
def Carries (e : Environ) (port : Int) (tls : Bool) (message : Text) : Prop :=
  ∃ (g : Guid) (a : InAddr),
    message = upMessage e.getServiceName g.bytes (BroadcastTask.create (inetNtop a) port tls)
      e.getInterval ∧
    (e.getServiceName.length + (inetNtop a).length + (decimal port).length
        + (decimal e.getInterval).length + (transport tls).length ≤ 211 →
      message = List.intercalate [9] [e.getServiceName, g.bytes, ascii "up",
        inetNtop a ++ ascii ":" ++ decimal port, decimal e.getInterval,
        if tls then ascii "tls" else ascii "plain"])

section Load

variable {e : Environ} {config : Config} {o : LoadOutcome} {s₀ s₁ s : System}

theorem upMessage_carries (g : Guid) (a : InAddr) (port : Int) (tls : Bool) :
    Carries e port tls (upMessage e.getServiceName g.bytes
      (BroadcastTask.create (inetNtop a) port tls) e.getInterval) := by
  refine ⟨g, a, rfl, fun hfit => ?_⟩
  have hfields : upFields e.getServiceName g a port e.getInterval tls =
      [e.getServiceName, g.bytes, ascii "up", inetNtop a ++ ascii ":" ++ decimal port,
        decimal e.getInterval, if tls then ascii "tls" else ascii "plain"] := by
    rw [List.append_assoc]
    rfl
  rw [← hfields, upMessage, ← upText_eq]
  refine snprintf_eq ?_
  rw [upText_length]
  change _ < 256
  omega

theorem SuccessfulLoad.idle (h : SuccessfulLoad e config o s₀ s₁) : s₀.main = .idle := by
  have hst := h.step
  simp only [System.step] at hst
  split at hst
  · exact absurd hst (by simp)
  · split at hst
    · assumption
    · exact absurd hst (by simp)

theorem SuccessfulLoad.reached (h : SuccessfulLoad e config o s₀ s₁) : s₁.Reachable :=
  Lts.Reachable.next h.reachable h.step

/-- What the load leaves: the value in the variables, and the hook where there is one. -/
theorem SuccessfulLoad.announced (h : SuccessfulLoad e config o s₀ s₁) :
    Announced e (resolveAnnouncedPort e config) s₁.senders.length s₁ ∧
      s₁.senders = s₀.senders ∧ s₁.statics.announced = false ∧
      (s₁.host.cronHook = true ↔ chosen e config ≠ none) := by
  have hlt : ∀ (t : Nat) (th : Sender), s₀.senders.length ≤ t → s₀.senders[t]? = some th →
      False := fun t th hge hth => by
    have := (List.getElem?_eq_some_iff.mp hth).1
    omega
  cases System.move_of_step h.step with
  | refresher hb hc ha => exact ha.elim
  | refused hm hbusy => simp [h.notLoaded, h.nameFree] at hbusy
  | curlFails hm hloaded hbusy hcurl =>
    rw [h.curlOk] at hcurl
    exact absurd hcurl (by simp)
  | load hm hloaded hbusy hcurl =>
    refine ⟨⟨h.environ, ?_, ?_, ⟨o.guid, rfl⟩, Nat.le_refl _, fun t th hge hth =>
      (hlt t th hge hth).elim, fun t th hge hth => (hlt t th hge hth).elim⟩, rfl, rfl, ?_⟩
    · rw [← h.environ, ← h.config]
      rfl
    · rw [← h.environ, ← h.config]
      rfl
    · change (if (resolveAnnouncedPort s₀.cache.environ s₀.host.config).1 ≤ 0 then false
        else o.cronOk) = true ↔ _
      rw [h.environ, h.config, h.cronOk, ne_eq, ← resolveAnnouncedPort_pos]
      split
      · rename_i hle
        simp [hle]
      · rename_i hlt
        simp [hlt]
  | cleanup hm hloaded ha => exact ha.elim

/-- **Every `up` pass of this load carries what the load resolved.** -/
theorem SuccessfulLoad.up_passes (h : SuccessfulLoad e config o s₀ s₁)
    (hrun : Lts.Run System.step SameLoad s₁ s) {t : Nat} {th : Sender}
    (ht : s₁.senders.length ≤ t) (hth : s.senders[t]? = some th) {p : Pass}
    (hp : p ∈ th.passes) (hup : p.up = true) :
    Carries e (resolveAnnouncedPort e config).1 (resolveAnnouncedPort e config).2 p.message := by
  have ha := h.announced.1.run h.reached hrun
  have hs : s.Reachable := Lts.Reachable.run h.reached hrun
  have hi := hs.senders.sender t th hth
  have hmsg := hi.message p hp
  rw [if_pos hup] at hmsg
  rcases ha.message t th ht hth with hpc | ⟨g, hg⟩
  · -- a sender that has not begun has no passes
    have hnone := hi.passes
    rw [hpc] at hnone
    rw [show th.passes = [] from hnone] at hp
    exact absurd hp (by simp)
  · obtain ⟨a, htask⟩ := ha.task t th ht hth
    rw [hmsg, hg, htask]
    exact upMessage_carries g a _ _

/-- **Every `up` pass of this load carries what is chosen.** -/
theorem SuccessfulLoad.carries (h : SuccessfulLoad e config o s₀ s₁) {port : Int} {tls : Bool}
    (hsome : chosen e config = some (port, tls)) (hrun : Lts.Run System.step SameLoad s₁ s)
    {t : Nat} {th : Sender} (ht : s₁.senders.length ≤ t) (hth : s.senders[t]? = some th)
    {p : Pass} (hp : p ∈ th.passes) (hup : p.up = true) : Carries e port tls p.message := by
  have hc := h.up_passes hrun ht hth hp hup
  rw [resolveAnnouncedPort_eq, hsome] at hc
  exact hc

/-- The senders of earlier loads are silent. -/
theorem SuccessfulLoad.others_silent (h : SuccessfulLoad e config o s₀ s₁)
    (hrun : Lts.Run System.step SameLoad s₁ s) {t : Nat} {th : Sender}
    (hth : s₁.senders[t]? = some th) :
    ∃ th', s.senders[t]? = some th' ∧ th'.passes = th.passes := by
  have hclosed := h.reachable.closed h.idle fun hlive => by
    have hno := h.notLoaded
    rw [hlive.1] at hno
    exact absurd hno (by simp)
  have hth₀ : s₀.senders[t]? = some th := by
    rw [← h.announced.2.1]
    exact hth
  exact exited_run hth (hclosed.senders th (List.mem_of_getElem? hth₀)).1 hrun

/-- **The announced listener honours the TLS policy, end to end.** -/
theorem announced_listener_honours_policy (e : Environ) (config : Config) (o : LoadOutcome)
    (s₀ s₁ : System) (h : SuccessfulLoad e config o s₀ s₁) :
    (s₁.host.cronHook = true ↔ chosen e config ≠ none) ∧
    (chosen e config = none ↔
      (¬ e.AsksForPlain → upPort config.tlsPort = none) ∧
        (¬ e.AsksForTls → upPort config.port = none)) ∧
    (chosen e config = none → ∀ s, Lts.Run System.step SameLoad s₁ s →
      s.senders.length = s₁.senders.length) ∧
    (∀ s, Lts.Run System.step SameLoad s₁ s → ∀ (t : Nat) (th : Sender),
      s₁.senders[t]? = some th →
        ∃ th', s.senders[t]? = some th' ∧ th'.passes = th.passes) ∧
    (∀ port tls, chosen e config = some (port, tls) →
      0 < port ∧
      (tls = true ∧ upPort config.tlsPort = some port ∨
        tls = false ∧ upPort config.port = some port) ∧
      (e.AsksForTls → tls = true) ∧ (e.AsksForPlain → tls = false) ∧
      ∀ s, Lts.Run System.step SameLoad s₁ s → ∀ (t : Nat) (th : Sender),
        s₁.senders.length ≤ t → s.senders[t]? = some th →
          ∀ p ∈ th.passes, p.up = true → Carries e port tls p.message) ∧
    (∀ port, ¬ e.AsksForTls → upPort config.port = some port → ∀ tlsPort,
      chosen e { config with tlsPort := tlsPort } = some (port, false) ∧
      ∀ o' t₀ t₁, SuccessfulLoad e { config with tlsPort := tlsPort } o' t₀ t₁ →
        ∀ s, Lts.Run System.step SameLoad t₁ s → ∀ (t : Nat) (th : Sender),
          t₁.senders.length ≤ t → s.senders[t]? = some th →
            ∀ p ∈ th.passes, p.up = true → Carries e port false p.message) := by
  obtain ⟨ha, -, hno, hhook⟩ := h.announced
  refine ⟨hhook, chosen_none, ?_, ?_, ?_, ?_⟩
  · intro hnone s hrun
    refine h.reached.silent_run ?_ hno ha.guid hrun
    exact Bool.eq_false_iff.mpr fun ht => hhook.mp ht hnone
  · exact fun s hrun t th hth => h.others_silent hrun hth
  · intro port tls hsome
    obtain ⟨h1, h2, h3, h4⟩ := chosen_some hsome
    exact ⟨h1, h2, h3, h4, fun s hrun t th ht hth p hp hup =>
      h.carries hsome hrun ht hth hp hup⟩
  · intro port h1 hport tlsPort
    have hsome := chosen_plain h1 hport tlsPort
    exact ⟨hsome, fun o' t₀ t₁ h' s hrun t th ht hth p hp hup =>
      h'.carries hsome hrun ht hth hp hup⟩

/-- The configuration of a load that finds both ports given, and the state it leaves. -/
def loadedWith (port tlsPort : Text) : System :=
  (System.init {} 0 (portsConfig port tlsPort)).redisModuleOnLoad
    ⟨zeroGuid, false, true, true, true⟩

theorem successfulLoad_loadedWith (port tlsPort : Text) :
    SuccessfulLoad {} (portsConfig port tlsPort) ⟨zeroGuid, false, true, true, true⟩
      (System.init {} 0 (portsConfig port tlsPort)) (loadedWith port tlsPort) :=
  ⟨Lts.Reachable.of_init ⟨_, _, _, rfl⟩, rfl, rfl, rfl, rfl, rfl, rfl, rfl, rfl⟩

def Act.isLoad : Act → Bool
  | .load _ => true
  | _ => false

/-- The first tick, and the first pass of the one sender, up to the choice of its datagram. -/
def firstPass : List Act := [oneInterface, mainOk, mainOk, senderOk, senderOk]

theorem sameLoad_run {as : List Act}
    (h : Lts.execIf System.step (fun _ a => !a.isLoad) s₁ as = some s) :
    Lts.Run System.step SameLoad s₁ s := by
  refine Lts.run_of_execIf (fun t a ha => ?_) h
  rintro ⟨o, rfl, -⟩
  exact absurd ha (by simp [Act.isLoad])

/-- For each sender, what its passes announced and what was in force when they began. -/
def System.inForce (s : System) : List (List (Bool × (Int × Bool))) :=
  s.senders.map fun th => th.passes.map fun p => (p.up, resolveAnnouncedPort {} p.config)

/-- A state with one sender and one pass. -/
theorem onePass {x : Bool × (Int × Bool)} (h : s.inForce = [[x]]) :
    ∃ (th : Sender) (p : Pass), s.senders[0]? = some th ∧ p ∈ th.passes ∧ p.up = x.1 ∧
      resolveAnnouncedPort {} p.config = x.2 := by
  obtain ⟨th, hth, hps⟩ := List.map_eq_singleton_iff.mp h
  obtain ⟨p, hp, rfl⟩ := List.map_eq_singleton_iff.mp hps
  refine ⟨th, p, ?_, ?_, rfl, rfl⟩
  · rw [hth]
    rfl
  · rw [hp]
    exact List.mem_singleton_self p

/-- Both listeners up and no preference: the plaintext port is announced. -/
theorem announced_listener_honours_policy_both :
    ∃ s : System, Lts.Run System.step SameLoad (loadedWith (ascii "6379") (ascii "6380")) s ∧
      ∃ th ∈ s.senders, ∃ p ∈ th.passes, p.up = true ∧ Carries {} 6379 false p.message := by
  have hview : (Lts.execIf System.step (fun _ a => !a.isLoad)
      (loadedWith (ascii "6379") (ascii "6380")) firstPass).map System.inForce =
        some [[(true, 6379, false)]] := rfl
  obtain ⟨s, hs, hpass⟩ := Option.map_eq_some_iff.mp hview
  obtain ⟨th, p, hth, hp, hup, -⟩ := onePass hpass
  have hrun := sameLoad_run hs
  have hchosen : chosen {} (portsConfig (ascii "6379") (ascii "6380")) = some (6379, false) := rfl
  have h := announced_listener_honours_policy {} _ _ _ _
    (successfulLoad_loadedWith (ascii "6379") (ascii "6380"))
  obtain ⟨-, -, -, -, hall, -⟩ := h
  obtain ⟨-, -, -, -, hcarries⟩ := hall 6379 false hchosen
  exact ⟨s, hrun, th, List.mem_of_getElem? hth, p, hp, hup,
    hcarries s hrun 0 th (Nat.le_refl 0) hth p hp hup⟩

/-! ## 4. While the configuration changes -/

/-- The pass announces the listener that the configuration in force when it began asks for. -/
def InForce (e : Environ) (p : Pass) : Prop :=
  0 < (resolveAnnouncedPort e p.config).1 ∧
    Carries e (resolveAnnouncedPort e p.config).1 (resolveAnnouncedPort e p.config).2 p.message

/-- **What is announced is what the load resolved**, whatever the configuration becomes; so it is
what is in force as long as that resolves to the same. -/
theorem announced_port_of_load (e : Environ) (config : Config) (o : LoadOutcome)
    (s₀ s₁ : System) (h : SuccessfulLoad e config o s₀ s₁) :
    ∀ s, Lts.Run System.step SameLoad s₁ s → ∀ (t : Nat) (th : Sender),
      s₁.senders.length ≤ t → s.senders[t]? = some th → ∀ p ∈ th.passes, p.up = true →
        0 < (resolveAnnouncedPort e config).1 ∧
        Carries e (resolveAnnouncedPort e config).1 (resolveAnnouncedPort e config).2 p.message ∧
        (resolveAnnouncedPort e p.config = resolveAnnouncedPort e config → InForce e p) := by
  intro s hrun t th ht hth p hp hup
  have hc := h.up_passes hrun ht hth hp hup
  have hpos : 0 < (resolveAnnouncedPort e config).1 := by
    by_contra hle
    have hnone := resolveAnnouncedPort_pos.mp (Int.not_lt.mp hle)
    obtain ⟨ha, -, hno, hhook⟩ := h.announced
    have hlen := h.reached.silent_run (Bool.eq_false_iff.mpr fun ht => hhook.mp ht hnone) hno
      ha.guid hrun
    have hlt := (List.getElem?_eq_some_iff.mp hth).1
    omega
  refine ⟨hpos, hc, fun heq => ?_⟩
  unfold InForce
  rw [heq]
  exact ⟨hpos, hc⟩

/-- The TLS listener comes up behind the load: the plaintext port is still what is in force. -/
theorem announced_port_of_load_tlsAdded :
    ∃ s : System, Lts.Run System.step SameLoad (loadedWith (ascii "6379") (ascii "0")) s ∧
      ∃ th ∈ s.senders, ∃ p ∈ th.passes, p.up = true ∧ InForce {} p := by
  have hview : (Lts.execIf System.step (fun _ a => !a.isLoad)
      (loadedWith (ascii "6379") (ascii "0"))
      (.configSet (portsConfig (ascii "6379") (ascii "6380")) :: firstPass)).map System.inForce =
        some [[(true, 6379, false)]] := rfl
  obtain ⟨s, hs, hpass⟩ := Option.map_eq_some_iff.mp hview
  obtain ⟨th, p, hth, hp, hup, hforce⟩ := onePass hpass
  have hrun := sameLoad_run hs
  have h := announced_port_of_load {} _ _ _ _
    (successfulLoad_loadedWith (ascii "6379") (ascii "0"))
  exact ⟨s, hrun, th, List.mem_of_getElem? hth, p, hp, hup,
    (h s hrun 0 th (Nat.le_refl 0) hth p hp hup).2.2 hforce⟩

/-- `CONFIG SET port 0` behind the load: the pass begun after it is still `up`, and announces
6379, where nothing is listening any more. -/
theorem announced_port_stale :
    ∃ s : System, Lts.Run System.step SameLoad (loadedWith (ascii "6379") (ascii "0")) s ∧
      ∃ th ∈ s.senders, ∃ p ∈ th.passes, p.up = true ∧ Carries {} 6379 false p.message ∧
        resolveAnnouncedPort {} p.config = (0, false) ∧ ¬ InForce {} p := by
  have hload := successfulLoad_loadedWith (ascii "6379") (ascii "0")
  have hview : (Lts.execIf System.step (fun _ a => !a.isLoad)
      (loadedWith (ascii "6379") (ascii "0"))
      (.configSet (portsConfig (ascii "0") (ascii "0")) :: firstPass)).map System.inForce =
        some [[(true, 0, false)]] := rfl
  obtain ⟨s, hs, hpass⟩ := Option.map_eq_some_iff.mp hview
  obtain ⟨th, p, hth, hp, hup, hforce⟩ := onePass hpass
  have hrun := sameLoad_run hs
  refine ⟨s, hrun, th, List.mem_of_getElem? hth, p, hp, hup,
    hload.up_passes hrun (Nat.le_refl 0) hth hp hup, hforce, fun hin => ?_⟩
  have hpos := hin.1
  rw [hforce] at hpos
  exact absurd hpos (by decide)

end Load

end Unicaster
