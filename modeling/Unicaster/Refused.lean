/-
# A load that is refused

`RedisModule_OnLoad` draws a GUID before it knows whether the name is free, and calls
`cleanup_threads` when it is not.  The name is busy because an instance is loaded, so what is
drawn and what is cleaned up are that instance's.  The law that the call leaves it intact
(`RefusedLoadHarmless`) holds exactly where there is nothing left to break.
-/
import Unicaster.Cleanup

namespace Unicaster

open CLib

/-! ## 1. The law -/

/-- What the running instance depends on. -/
structure InstanceState where
  closing : Bool
  announced : Bool
  threadIds : Option (List (Option Nat))
  threadCount : Nat
  refresherRunning : Bool
  current : Option Nat
  ipPatterns : List (Option Text)
  redisGuid : Text

def System.instanceState (s : System) : InstanceState :=
  ⟨s.cache.closing, s.statics.announced, s.statics.threadIds, s.statics.threadCount,
    s.cache.refresherRunning, s.cache.current, s.statics.ipPatterns, s.statics.redisGuid⟩

/-- The call that began in `s` returned an error in `s'` and left the instance intact: its
variables are what they were, and what its hook and its senders could do they still can. -/
structure Intact (s s' : System) : Prop where
  result : s'.host.result = some false
  state : s'.instanceState = s.instanceState
  cron : ∀ o, s.step (.cron o) ≠ none → s'.step (.cron o) ≠ none
  sender : ∀ t o, s.step (.sender t o) ≠ none → s'.step (.sender t o) ≠ none

/-- The call of `RedisModule_OnLoad` can return whatever the threads do, and where it returns the
instance is intact. -/
def RefusedLoadHarmless (s : System) (o : LoadOutcome) : Prop :=
  ∀ s₁, s.step (.load o) = some s₁ → ∀ u, Lts.Run System.step InCall s₁ u →
    (∃ v, Lts.Run System.step InCall u v ∧ v.main = .idle) ∧ (u.main = .idle → Intact s u)

/-! ## 2. The call -/

/-- What holds from the call of `cleanup_threads` to the return of the error. -/
structure Refusing (guid : Text) (u : System) : Prop where
  reachable : u.Reachable
  defined : u.undefined = false
  closing : u.cache.closing = true
  guid : u.statics.redisGuid = guid
  main : (∃ i, u.main = .joining i .refused) ∨ u.main = .stopping .refused ∨
    u.main = .idle ∧ u.host.result = some false

section Refused

variable {s s' u : System} {g : Text} {o : LoadOutcome}

/-- No slot is empty where `cleanup_threads` joins. -/
theorem System.Reachable.joins (h : s.Reachable) {i : Nat} {caller : Caller}
    (hm : s.main = .joining i caller) (hi : i < s.statics.threadCount)
    (hj : s.joinStep i = some s') :
    ∃ (t : Nat) (th : Sender),
      s' = { s with senders := s.senders.set t { th with joined := th.joined + 1 } } := by
  rcases joinStep_eq hj with ⟨-, hnone⟩ | ⟨t, th, -, -, -, rfl⟩
  · have hslot := h.life.slots i hi
    have hle := h.life.count_le
    rw [← settled_of_joining hm] at hslot
    have hlt : s.settled < s.senders.length := by
      rw [settled_of_joining hm]
      omega
    have hno := hnone _ hslot
    rw [List.getElem?_eq_getElem hlt] at hno
    exact absurd hno (by simp)
  · exact ⟨t, th, rfl⟩

theorem Refusing.step (h : Refusing g s) (hcall : s.main ≠ .idle) {a : Act}
    (hst : s.step a = some s') : Refusing g s' := by
  have hnext : s'.Reachable := h.reachable.next hst
  cases System.move_of_step hst with
  | tick => exact ⟨hnext, h.defined, h.closing, h.guid, h.main⟩
  | refresher hb hc ha =>
    have hcl := ((h.reachable.cache.inv.refresher_step hb hc).2.2.closing).trans h.closing
    exact ⟨hnext, h.defined, hcl, h.guid, h.main⟩
  | sender hth hmv =>
    refine ⟨hnext, h.defined, ?_, h.guid, h.main⟩
    rcases hmv.cache with rfl | ⟨b, hb, hc⟩
    · exact h.closing
    · exact (h.reachable.cache.inv.thread_step hb.not_main hc).1.trans h.closing
  | configSet hm => exact absurd hm hcall
  | refused hm hbusy => exact absurd hm hcall
  | curlFails hm hloaded hbusy hcurl => exact absurd hm hcall
  | load hm hloaded hbusy hcurl => exact absurd hm hcall
  | cron hm hhook hst => exact absurd hm hcall
  | cleanup hm hloaded ha => exact absurd hm hcall
  | main hst =>
    have hmain := h.main
    rcases mainStep_eq hst with ⟨hm, rfl⟩ | ⟨ifa, todo, hm, rfl⟩ |
      ⟨i, caller, s1, hm, hi, hj, rfl⟩ | ⟨i, caller, hm, hi, rfl⟩ | ⟨caller, c', hm, hc, rfl⟩
    · exact absurd hmain (by simp [hm])
    · exact absurd hmain (by simp [hm])
    · obtain ⟨t, th, rfl⟩ := h.reachable.joins hm hi hj
      have hcaller : caller = .refused := by simpa [hm] using hmain
      exact ⟨hnext, h.defined, h.closing, h.guid, Or.inl ⟨i + 1, by rw [hcaller]⟩⟩
    · have hcaller : caller = .refused := by simpa [hm] using hmain
      exact ⟨hnext, h.defined, h.closing, h.guid, Or.inr (Or.inl (by rw [hcaller]))⟩
    · have hcaller : caller = .refused := by simpa [hm] using hmain
      have hcl : c'.closing = true :=
        (h.reachable.cache.books.stopped_running (h.reachable.cache.inv.stopMove hc)).1.trans
          h.closing
      split
      · rename_i hidle
        rw [if_pos hidle] at hnext
        subst hcaller
        exact ⟨hnext, h.defined, hcl, h.guid, Or.inr (Or.inr ⟨rfl, rfl⟩)⟩
      · rename_i hidle
        rw [if_neg hidle] at hnext
        exact ⟨hnext, h.defined, hcl, h.guid, Or.inr (Or.inl (by rw [hm, hcaller]))⟩

theorem Refusing.run (h : Refusing g s) (hr : Lts.Run System.step InCall s u) : Refusing g u :=
  hr.invariant h fun _ _ _ ht hcall hst => ht.step hcall hst

/-- The call can return. -/
theorem Refusing.returns (h : Refusing g u) :
    ∃ v, Lts.Run System.step InCall u v ∧ v.main = .idle := by
  rcases h.main with hm | hm | ⟨hm, -⟩
  · obtain ⟨v, hr, hv, -⟩ := h.reachable.cleanup_returns h.defined (Or.inl hm)
    exact ⟨v, hr, hv⟩
  · obtain ⟨v, hr, hv, -⟩ := h.reachable.cleanup_returns h.defined (Or.inr hm)
    exact ⟨v, hr, hv⟩
  · exact ⟨u, Relation.ReflTransGen.refl, hm⟩

/-- The load of a loaded module draws a GUID and begins to clean up. -/
theorem step_load_loaded (hdef : s.undefined = false) (hm : s.main = .idle)
    (hloaded : s.host.loaded = true) (o : LoadOutcome) :
    s.step (.load o) = some (System.cleanupThreads
      { s with statics := { s.statics with redisGuid := o.guid.bytes } } .refused) := by
  simp only [System.step, hdef, Bool.false_eq_true, if_false, hm, if_true,
    System.redisModuleOnLoad, hloaded, true_or]

theorem System.Reachable.refusing (h : s.Reachable) (hdef : s.undefined = false)
    (hm : s.main = .idle) (hloaded : s.host.loaded = true) {s₁ : System}
    (hst : s.step (.load o) = some s₁) : Refusing o.guid.bytes s₁ := by
  have hnext : s₁.Reachable := h.next hst
  rw [step_load_loaded hdef hm hloaded o, Option.some.injEq] at hst
  subst hst
  exact ⟨hnext, hdef, rfl, rfl, Or.inl ⟨0, rfl⟩⟩

/-- Where the instance was shut down and the same GUID is drawn, the call changes nothing. -/
theorem System.Reachable.intact (h : s.Reachable) (hdef : s.undefined = false)
    (hm : s.main = .idle) (hloaded : s.host.loaded = true) (hcl : s.cache.closing = true)
    (hg : o.guid.bytes = s.statics.redisGuid) {s₁ : System} (hst : s.step (.load o) = some s₁)
    (hr : Lts.Run System.step InCall s₁ u) (hmu : u.main = .idle) : Intact s u := by
  have hrefusing := (h.refusing hdef hm hloaded hst).run hr
  have hclosed := h.closed hm fun hlive => by
    have hno := hlive.2.2
    rw [hcl] at hno
    exact absurd hno (by simp)
  have hsame :
      ({ s with statics := { s.statics with redisGuid := o.guid.bytes } } : System) = s := by
    rw [hg]
  have hs₁ : s₁ = s.cleanupThreads .refused := by
    rw [step_load_loaded hdef hm hloaded o, Option.some.injEq, hsame] at hst
    exact hst.symm
  subst hs₁
  have hun := h.unchanged hm hclosed hst hr hmu
  have heq := h.cleanup_idle hclosed hr (h.next hst) hm hmu
  have hhost : u.host = { s.host with result := some false } := by
    rw [heq]
    rfl
  have hcache : u.cache.refresherRunning = s.cache.refresherRunning ∧
      u.cache.current = s.cache.current := by
    rw [hun.cache]
    exact ⟨rfl, rfl⟩
  refine ⟨?_, ?_, ?_, ?_⟩
  · rw [hhost]
  · simp only [System.instanceState, hun.statics, hrefusing.closing, hcl, hcache.1, hcache.2]
  · intro o' hposs
    have hhook : s.host.cronHook = true := by
      by_contra hno
      rw [Bool.not_eq_true] at hno
      refine hposs ?_
      simp only [System.step, hno, Bool.false_eq_true, and_false, if_false, ite_self]
    simp only [System.step, hrefusing.defined, Bool.false_eq_true, if_false, hmu, hhost, hloaded,
      hhook, and_self, if_true, System.cronBroadcastOnce, hrefusing.closing, or_true, ne_eq,
      reduceCtorEq, not_false_eq_true]
  · -- every sender has ended
    intro t o' hposs
    refine absurd ?_ hposs
    simp only [System.step, hdef, Bool.false_eq_true, if_false, System.senderStep]
    cases hth : s.senders[t]? with
    | none => rfl
    | some th =>
      have hpc := (hclosed.senders th (List.mem_of_getElem? hth)).1
      simp only [Option.bind_some, Sender.step, hpc, Option.map_none]

/-- **When a refused load is harmless**: exactly when the instance was shut down before, and the
GUID drawn is the one it has. -/
theorem refused_load_harmless_iff (s : System) (h : s.Reachable) (hdef : s.undefined = false)
    (hm : s.main = .idle) (hloaded : s.host.loaded = true) (o : LoadOutcome) :
    RefusedLoadHarmless s o ↔
      s.cache.closing = true ∧ o.guid.bytes = s.statics.redisGuid := by
  constructor
  · intro hharmless
    have hst := step_load_loaded hdef hm hloaded o
    obtain ⟨u, hr, hmu⟩ := (h.refusing hdef hm hloaded hst).returns
    have hrefusing := (h.refusing hdef hm hloaded hst).run hr
    have hstate := ((hharmless _ hst u hr).2 hmu).state
    have hcl := congrArg InstanceState.closing hstate
    have hg := congrArg InstanceState.redisGuid hstate
    exact ⟨hcl.symm.trans hrefusing.closing, hrefusing.guid.symm.trans hg⟩
  · rintro ⟨hcl, hg⟩ s₁ hst u hr
    exact ⟨((h.refusing hdef hm hloaded hst).run hr).returns,
      fun hmu => h.intact hdef hm hloaded hcl hg hst hr hmu⟩

/-- Behind a shutdown there is nothing left that a refused load could break. -/
theorem refused_load_harmless_shutDown :
    ∃ s : System, s.Reachable ∧ s.host.loaded = true ∧
      RefusedLoadHarmless s ⟨zeroGuid, false, true, true, true⟩ := by
  have hrun : (Lts.exec System.step
      (System.init {} 0 (portsConfig (ascii "6379") (ascii "0")))
      (startUp ++ refreshRound ++ senderOk :: passOverOne ++ shutDown)).map
        (fun s => ((s.undefined, s.main), s.host.loaded, s.cache.closing, s.statics.redisGuid)) =
        some ((false, .idle), true, true, zeroGuid.bytes) := rfl
  obtain ⟨s, hs, hview⟩ := Option.map_eq_some_iff.mp hrun
  simp only [Prod.mk.injEq] at hview
  obtain ⟨⟨hdef, hm⟩, hloaded, hcl, hg⟩ := hview
  have hreach : s.Reachable := Lts.reachable_of_exec ⟨_, _, _, rfl⟩ hs
  exact ⟨s, hreach, hloaded,
    (refused_load_harmless_iff s hreach hdef hm hloaded _).mpr ⟨hcl, hg.symm⟩⟩

/-- The call of `RedisModule_OnLoad` behind `startUp` and `refreshRound`, to its return: the sender
announces `down` and is joined, the refresher ends, the list is freed. -/
def refusedCall : List Act :=
  List.replicate 7 senderOk ++ [mainOk, mainOk, .refresher, .refresher] ++ List.replicate 5 mainOk

/-- A module that is announcing a list of one pod is loaded again: the call returns an error, and
has shut the instance down, even if the GUID it draws is the one in use. -/
theorem refused_load_harms_onePod :
    ∃ s s₁ u : System, s.Reachable ∧ s.host.loaded = true ∧ s.main = .idle ∧
      s.cache.closing = false ∧ s.statics.threadCount = 1 ∧ s.cache.current = some 0 ∧
      s.step plainLoad = some s₁ ∧ Lts.Run System.step InCall s₁ u ∧ u.main = .idle ∧
      u.host.result = some false ∧ u.cache.closing = true ∧ u.statics.threadCount = 0 ∧
      u.cache.current = none ∧
      ¬ RefusedLoadHarmless s ⟨zeroGuid, false, true, true, true⟩ := by
  have hbefore : (Lts.exec System.step
      (System.init {} 0 (portsConfig (ascii "6379") (ascii "0")))
      (startUp ++ refreshRound)).map
        (fun s => (s.host.loaded, s.main, s.cache.closing, s.statics.threadCount,
          s.cache.current)) = some (true, .idle, false, 1, some 0) := rfl
  have hafter : ((Lts.exec System.step
      (System.init {} 0 (portsConfig (ascii "6379") (ascii "0")))
      (startUp ++ refreshRound)).bind fun s => (s.step plainLoad).bind fun s₁ =>
        Lts.execIf System.step (fun t _ => t.main ≠ .idle) s₁ refusedCall).map
        (fun u => (u.main, u.host.result, u.cache.closing, u.statics.threadCount,
          u.cache.current)) = some (.idle, some false, true, 0, none) := rfl
  obtain ⟨s, hs, hview⟩ := Option.map_eq_some_iff.mp hbefore
  rw [hs, Option.bind_some] at hafter
  obtain ⟨u, hu, hview'⟩ := Option.map_eq_some_iff.mp hafter
  obtain ⟨s₁, hst, hcall⟩ := Option.bind_eq_some_iff.mp hu
  simp only [Prod.mk.injEq] at hview hview'
  obtain ⟨hloaded, hm, hcl, hk, hcur⟩ := hview
  obtain ⟨hm', hres', hcl', hk', hcur'⟩ := hview'
  have hr : Lts.Run System.step InCall s₁ u :=
    Lts.run_of_execIf (fun t a ht => by simpa [InCall] using ht) hcall
  refine ⟨s, s₁, u, Lts.reachable_of_exec ⟨_, _, _, rfl⟩ hs, hloaded, hm, hcl, hk, hcur, hst, hr,
    hm', hres', hcl', hk', hcur', fun hharmless => ?_⟩
  have hsame := congrArg InstanceState.closing ((hharmless s₁ hst u hr).2 hm').state
  have hno : u.cache.closing = s.cache.closing := hsame
  rw [hcl, hcl'] at hno
  exact absurd hno (by simp)

end Refused

end Unicaster
