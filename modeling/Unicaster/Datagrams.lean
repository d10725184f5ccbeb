/-
# The datagrams of a load

Each sender formats its two messages once, from the service name, the GUID the load drew, the
address it was created for and the port the load resolved.  `Spoken` says so of the state, and
`datagrams_of_load` of what goes over the network until the next `RedisModule_OnLoad`: every
datagram of every sender is the record of these fields, so all of them name one broker, and what
a sender withdraws is what it announced.
-/
import Unicaster.Port

namespace Unicaster

open CLib

/-! ## 1. One message -/

/-- The fields of the record a pass sends. -/
def Pass.fields (p : Pass) (name : Text) (guid : Guid) (a : InAddr) (port interval : Int)
    (tls : Bool) : List Text :=
  if p.up then upFields name guid a port interval tls else downFields name guid a port

/-- **What a pass sends decodes to its fields exactly when its record fits the buffer.** -/
theorem Pass.SpeaksFor.decodes_iff {p : Pass} {e : Environ} {guid : Guid} {a : InAddr} {port : Int}
    {tls : Bool} (h : p.SpeaksFor e guid.bytes (BroadcastTask.create (inetNtop a) port tls))
    (hname : 9 ∉ e.getServiceName) :
    p.message.splitOn 9 = p.fields e.getServiceName guid a port e.getInterval tls ↔
      (List.intercalate [9] (p.fields e.getServiceName guid a port e.getInterval tls)).length
        < messageSize := by
  unfold Pass.SpeaksFor at h
  unfold Pass.fields
  rw [h]
  cases p.up with
  | true =>
    simp only [if_true]
    rw [upMessage, upText_eq]
    exact splitOn_snprintf_iff (by decide) (tab_notMem_upFields guid a port _ tls hname)
  | false =>
    simp only [Bool.false_eq_true, if_false]
    rw [downMessage, downText_eq]
    exact splitOn_snprintf_iff (by decide) (tab_notMem_downFields guid a port hname)

/-! ## 2. What the senders have formatted -/

/-- Every sender from number `n` on that has begun speaks for the broker of this load. -/
structure Spoken (e : Environ) (guid : Text) (n : Nat) (s : System) : Prop where
  environ : s.cache.environ = e
  drawn : s.statics.redisGuid = guid
  count : n ≤ s.senders.length
  message : ∀ t th, n ≤ t → s.senders[t]? = some th → th.pc = .start ∨ th.SpeaksFor e guid

/-- `RedisModule_OnLoad` is not called. -/
def NoLoad (_ : System) (a : Act) : Prop := ¬ ∃ o, a = .load o

section Spoken

variable {s s' : System} {c c' : PodCache} {th th' : Sender} {e : Environ} {guid : Text}
  {t n : Nat}

theorem mainStep_redisGuid {o : System.SpawnOutcome} (hst : s.mainStep o = some s') :
    s'.statics.redisGuid = s.statics.redisGuid := by
  rcases mainStep_eq hst with ⟨-, rfl⟩ | ⟨ifa, todo, -, rfl⟩ | ⟨i, caller, s₁, -, -, hj, rfl⟩ |
    ⟨i, caller, -, -, rfl⟩ | ⟨caller, c', -, -, rfl⟩
  · rfl
  · rcases spawnStep_eq s ifa o with heq | heq | ⟨a, slots, -, -, -, heq⟩ <;> rw [heq]
  · rcases joinStep_eq hj with ⟨rfl, -⟩ | ⟨t, th, -, -, -, rfl⟩ <;> rfl
  · rfl
  · split
    · cases caller <;> rfl
    · rfl

/-- The GUID is drawn by `RedisModule_OnLoad` alone. -/
theorem Move.redisGuid {a : Act} (h : Move s a s') (hno : NoLoad s a) :
    s'.statics.redisGuid = s.statics.redisGuid := by
  cases h with
  | refused hm hbusy => exact absurd ⟨_, rfl⟩ hno
  | curlFails hm hloaded hbusy hcurl => exact absurd ⟨_, rfl⟩ hno
  | load hm hloaded hbusy hcurl => exact absurd ⟨_, rfl⟩ hno
  | cron hm hhook hst =>
    obtain ⟨-, -, hguid, -⟩ := cronBroadcastOnce_frame hst
    exact hguid
  | main hst => exact mainStep_redisGuid hst
  | _ => rfl

/-- **All senders of a load speak for one broker**, step by step. -/
theorem Spoken.step (h : Spoken e guid n s) (hr : s.Reachable) {a : Act} (hno : NoLoad s a)
    (hst : s.step a = some s') : Spoken e guid n s' := by
  have hmv := System.move_of_step hst
  refine ⟨?_, (hmv.redisGuid hno).trans h.drawn, Nat.le_trans h.count hmv.length_le, ?_⟩
  · exact (hmv.environ hr.cache.inv).trans h.environ
  · intro t th' hn hth'
    rcases Nat.lt_or_ge t s.senders.length with hlt | hge
    · obtain ⟨th, hth⟩ : ∃ th, s.senders[t]? = some th := ⟨_, List.getElem?_eq_getElem hlt⟩
      have hold : th.pc = .start ∨ ∃ g, g = guid ∧ th.SpeaksFor s.cache.environ g := by
        rw [h.environ]
        exact (h.message t th hn hth).imp id fun hspeaks => ⟨guid, rfl, hspeaks⟩
      rcases hmv.speaks h.drawn hth hth' hold with hpc | ⟨g, rfl, hspeaks⟩
      · exact Or.inl hpc
      · exact Or.inr (h.environ ▸ hspeaks)
    · obtain ⟨-, a, rfl⟩ := hmv.new_sender hge hth'
      exact Or.inl rfl

theorem Spoken.run (h : Spoken e guid n s) (hr : s.Reachable)
    (hrun : Lts.Run System.step NoLoad s s') : Spoken e guid n s' := by
  have hall : s'.Reachable ∧ Spoken e guid n s' := by
    refine hrun.invariant (I := fun u => u.Reachable ∧ Spoken e guid n u) ⟨hr, h⟩ ?_
    rintro u a v ⟨hu, hspoken⟩ hno hst
    exact ⟨hu.next hst, hspoken.step hu hno hst⟩
  exact hall.2

end Spoken

/-! ## 3. From the load to the network -/

section Load

variable {e : Environ} {config : Config} {o : LoadOutcome} {s₀ s₁ s : System}

theorem SuccessfulLoad.spoken (h : SuccessfulLoad e config o s₀ s₁) :
    Spoken e o.guid.bytes s₁.senders.length s₁ := by
  refine ⟨h.announced.1.environ, ?_, Nat.le_refl _, ?_⟩
  · cases System.move_of_step h.step with
    | refresher hb hc ha => exact ha.elim
    | cleanup hm hloaded ha => exact ha.elim
    | _ => rfl
  · intro t th hge hth
    have hlt := (List.getElem?_eq_some_iff.mp hth).1
    omega

/-- **Every datagram of a load**, of any of its senders, `up` or `down`, names the GUID the load
drew, the port and the transport it resolved, and the address the sender was created for.  Where
the name holds no tab, it decodes to just these exactly when its own record fits the buffer. -/
theorem datagrams_of_load (e : Environ) (config : Config) (o : LoadOutcome) (s₀ s₁ : System)
    (h : SuccessfulLoad e config o s₀ s₁) :
    ∀ s, Lts.Run System.step NoLoad s₁ s → ∀ (t : Nat) (th : Sender),
      s₁.senders.length ≤ t → s.senders[t]? = some th →
        ∃ a : InAddr,
          th.task = BroadcastTask.create (inetNtop a) (resolveAnnouncedPort e config).1
            (resolveAnnouncedPort e config).2 ∧
          (∀ p ∈ th.passes, p.SpeaksFor e o.guid.bytes th.task) ∧
          (9 ∉ e.getServiceName → ∀ p ∈ th.passes,
            (p.message.splitOn 9 =
                p.fields e.getServiceName o.guid a (resolveAnnouncedPort e config).1
                  e.getInterval (resolveAnnouncedPort e config).2 ↔
              (List.intercalate [9]
                (p.fields e.getServiceName o.guid a (resolveAnnouncedPort e config).1
                  e.getInterval (resolveAnnouncedPort e config).2)).length < messageSize)) := by
  intro s hrun t th ht hth
  have hsame : Lts.Run System.step SameLoad s₁ s := by
    refine hrun.mono fun u b hno hnew => hno ?_
    obtain ⟨o', hb, -⟩ := hnew
    exact ⟨o', hb⟩
  have hspoken := h.spoken.run h.reached hrun
  obtain ⟨a, htask⟩ := (h.announced.1.run h.reached hsame).task t th ht hth
  have hs : s.Reachable := Lts.Reachable.run h.reached hrun
  have hi := hs.senders.sender t th hth
  have hpasses : ∀ p ∈ th.passes, p.SpeaksFor e o.guid.bytes th.task := by
    intro p hp
    rcases hspoken.message t th ht hth with hpc | hspeaks
    · -- a sender that has not begun has no passes
      have hnone := hi.passes
      rw [hpc] at hnone
      rw [show th.passes = [] from hnone] at hp
      exact absurd hp (by simp)
    · rw [Pass.SpeaksFor, hi.message p hp, hspeaks.1, hspeaks.2]
  refine ⟨a, htask, hpasses, fun hname p hp => ?_⟩
  have hp' := hpasses p hp
  rw [htask] at hp'
  exact hp'.decodes_iff hname

/-- An `up` pass and the `down` pass of one sender, over one pod. -/
theorem datagrams_of_load_onePod :
    ∃ s : System, Lts.Run System.step NoLoad (loadedWith (ascii "6379") (ascii "0")) s ∧
      ∃ th ∈ s.senders, th.passes.map (·.up) = [false, true] ∧ ∃ a : InAddr, ∀ p ∈ th.passes,
        p.SpeaksFor {} zeroGuid.bytes (BroadcastTask.create (inetNtop a) 6379 false) := by
  have hview : (Lts.execIf System.step (fun _ a => !a.isLoad)
      (loadedWith (ascii "6379") (ascii "0"))
      (startUp.tail ++ refreshRound ++ senderOk :: passOverOne ++ .shutdown :: shutDown.tail)).map
        (fun s => s.senders.map fun th => th.passes.map (·.up)) = some [[false, true]] := rfl
  obtain ⟨s, hs, hpasses⟩ := Option.map_eq_some_iff.mp hview
  obtain ⟨th, hth, hups⟩ := List.map_eq_singleton_iff.mp hpasses
  have hrun : Lts.Run System.step NoLoad (loadedWith (ascii "6379") (ascii "0")) s := by
    refine Lts.run_of_execIf (fun t b hb => ?_) hs
    rintro ⟨o, rfl⟩
    exact absurd hb (by simp [Act.isLoad])
  have hmem : s.senders[0]? = some th := by
    rw [hth]
    rfl
  obtain ⟨a, htask, hall, -⟩ := datagrams_of_load {} _ _ _ _
    (successfulLoad_loadedWith (ascii "6379") (ascii "0")) s hrun 0 th (Nat.le_refl 0) hmem
  exact ⟨s, hrun, th, List.mem_of_getElem? hmem, hups, a, fun p hp => htask ▸ hall p hp⟩

end Load

end Unicaster
