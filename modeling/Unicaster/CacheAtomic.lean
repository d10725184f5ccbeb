/-
# The sections are atomic

Whether a section of `pod_cache.c` is one step or several makes no difference: the memory is at
every moment one that `PodCache` reaches, and every state of `PodCache` is reached
(`locked_iff_atomic`).  So what is proved of the atomic model holds of the code with its mutex.

`SectionPc.Valid` says what the holder of the mutex can rely on: what it loaded is what is there.
-/
import Unicaster.CacheLock

namespace Unicaster

open CLib

/-! ## 1. Whoever holds the mutex finds what it loaded -/

/-- What holds where the holder stands: the step its section began with is still its next one, and
what it loaded is what is there. -/
def SectionPc.Valid (c : PodCache) : SectionPc → Prop
  | .acquireLoad t => c.enters (.acquire t) = some (.acquireLoad t)
  | .acquireTest t snapshot =>
    c.enters (.acquire t) = some (.acquireLoad t) ∧ snapshot = c.current
  | .acquireCount _ none => True
  | .acquireCount t (some r) =>
    c.enters (.acquire t) = some (.acquireLoad t) ∧ c.current = some r ∧ (c.takeRef t r).Reachable
  | .releaseDrop a thread => c.enters a = some (.releaseDrop a thread)
  | .publishLoad => c.enters .refresher = some .publishLoad
  | .publishStore previous => c.enters .refresher = some .publishLoad ∧ previous = c.current
  | .describeLoad => c.enters .refresher = some .describeLoad
  | .describeAge count =>
    c.enters .refresher = some .describeLoad ∧
      ∃ r, c.current = some r ∧ count = (c.podsOf r).length
  | .stopLoad => c.enters .stop = some .stopLoad
  | .stopStore previous => c.enters .stop = some .stopLoad ∧ previous = c.current
  | .unlocking _ => True

/-- The memory is one that the atomic model reaches, wherever the holder stands. -/
structure Locked.Sound (f : Locked) : Prop where
  cache : f.cache.Reachable
  holder : ∀ k, f.holder = some k → k.Valid f.cache

section Sections

variable {c c' : PodCache} {k : SectionPc} {f f' : Locked}

/-- A section that begins is valid. -/
theorem enters_valid {a : CacheAct} (hin : c.enters a = some k) : k.Valid c := by
  rcases enters_cases hin with ⟨t, rfl, rfl⟩ | ⟨thread, -, rfl⟩ | ⟨rfl, -, rfl⟩ |
    ⟨rfl, -, rfl⟩ | ⟨rfl, rfl⟩ <;> exact hin

/-- A thread about to call `pod_cache_acquire` is one of the readers. -/
theorem lt_of_acquireLoad {t : Nat} (hin : c.enters (.acquire t) = some (.acquireLoad t)) :
    t < c.readers.length := by
  simp only [PodCache.enters] at hin
  split at hin
  · rename_i acquired hrd
    exact (List.getElem?_eq_some_iff.mp hrd).1
  · exact absurd hin (by simp)

/-- **A section is not disturbed**: what its thread loaded stays what is there. -/
theorem SectionPc.Valid.out (hv : k.Valid c) (h : c.Reachable) {b : CacheAct}
    (hno : c.enters b = none) (hb : b.thread ≠ some k.thread) (hst : c.step b = some c') :
    k.Valid c' := by
  have hi := h.inv
  have hcur := hi.current_out hno hst
  cases k with
  | acquireLoad t => exact hi.enters_out hv hb hst
  | acquireTest t snapshot => exact ⟨hi.enters_out hv.1 hb hst, hv.2.trans hcur.symm⟩
  | acquireCount t snapshot =>
    cases snapshot with
    | none => trivial
    | some r =>
      obtain ⟨hin, hr, hreach⟩ := hv
      exact ⟨hi.enters_out hin hb hst, hcur.trans hr,
        hreach.next (takeRef_step (lt_of_acquireLoad hin) hno hb hst)⟩
  | releaseDrop a thread =>
    refine hi.enters_out hv ?_ hst
    rw [enters_thread hv]
    exact hb
  | publishLoad => exact hi.enters_out hv hb hst
  | publishStore previous => exact ⟨hi.enters_out hv.1 hb hst, hv.2.trans hcur.symm⟩
  | describeLoad => exact hi.enters_out hv hb hst
  | describeAge count =>
    obtain ⟨hin, r, hr, hcount⟩ := hv
    have hlive := hi.owned (mem_owners_of_current hr)
    refine ⟨hi.enters_out hin hb hst, r, hcur.trans hr, ?_⟩
    rw [(h.content_step hst hlive.1).2.2]
    exact hcount
  | stopLoad => exact hi.enters_out hv hb hst
  | stopStore previous => exact ⟨hi.enters_out hv.1 hb hst, hv.2.trans hcur.symm⟩
  | unlocking thread => trivial

theorem describeCurrent_none (hcur : c.current = none) : c.describeCurrent = (c, 0, 0) := by
  unfold PodCache.describeCurrent
  split
  · rfl
  · rename_i r hr
    rw [hcur] at hr
    exact absurd hr (by simp)

theorem CacheInv.describeCurrent_some (h : CacheInv c) {r : Nat} (hcur : c.current = some r) :
    c.describeCurrent =
      (c, ((c.podsOf r).length : Int), c.nowSeconds - (c.snaps r).receivedAt) := by
  unfold PodCache.describeCurrent
  split
  · rename_i hnone
    rw [hcur] at hnone
    exact absurd hnone (by simp)
  · rename_i x hx
    obtain rfl : r = x := Option.some.inj (hcur.symm.trans hx)
    rw [h.touchPods_eq (mem_owners_of_current hcur)]

/-- A failure that is logged. -/
theorem endFailure_logged {th : Refresher} {now count age : Int} {expired : Bool}
    (hrep : th.reports now expired = true) (hd : c.describeCurrent = (c, count, age))
    (error : Text) :
    c.endFailure th error now expired =
      PodCache.goto
        { c with
          log := c.log ++ [.failure (if th.failures = 0 then 0 else now - th.failingSince) error
            (c.told count age)] }
        { th with
          expiryReported := expired
          failures := th.failures + 1
          failingSince := if th.failures = 0 then now else th.failingSince
          lastReminder := now }
        (.sleeping (c.clock + nextDelay th.refresh (th.failures + 1) * nsPerSecond)) := by
  have hlog : ∀ failingFor : Int, c.logFailure error failingFor =
      { c with log := c.log ++ [.failure failingFor error (c.told count age)] } := by
    intro failingFor
    unfold PodCache.logFailure
    rw [hd]
    rfl
  simp only [Refresher.reports, decide_eq_true_eq] at hrep
  unfold PodCache.endFailure
  dsimp only
  by_cases h0 : th.failures = 0
  · rw [if_pos h0, if_pos h0, if_pos h0, hlog]
  · rw [if_neg h0, if_neg h0, if_neg h0, if_pos (hrep.resolve_left h0), hlog]

/-- What `is_expired` and `log_failure` do is done with what `describe_current` returned. -/
theorem described_step {count age : Int}
    (hin : c.enters .refresher = some .describeLoad) (hd : c.describeCurrent = (c, count, age)) :
    c.step .refresher = c.described count age := by
  simp only [PodCache.enters] at hin
  split at hin
  · exact absurd hin (by simp)
  · rename_i th hth
    simp only [PodCache.step, PodCache.described, hth, Option.bind_some, PodCache.refresherStep]
    split at hin
    · exact absurd hin (by simp)
    · exact absurd hin (by simp)
    · rename_i error now hpc
      split at hin
      · rename_i hage
        simp only [hpc, PodCache.isExpired, if_pos hage, hd]
      · exact absurd hin (by simp)
    · rename_i error now expired hpc
      split at hin
      · rename_i hrep
        simp only [hpc, endFailure_logged hrep hd]
        rfl
      · exact absurd hin (by simp)
    · exact absurd hin (by simp)

/-- **One statement of a section**: it changes nothing that counts, or it is the step of the
atomic model. -/
theorem Locked.sectionStep_sound (h : c.Reachable) (hv : k.Valid c)
    (hst : Locked.sectionStep c k = some f') : f'.Sound := by
  have hi := h.inv
  have hsame : ∀ {k' : SectionPc}, k'.Valid c → Locked.Sound ⟨c, some k'⟩ := by
    intro k' hk'
    refine ⟨h, fun q hq => ?_⟩
    exact Option.some.inj hq ▸ hk'
  have hdone : ∀ {d : PodCache} {thread : CacheThread}, d.Reachable →
      Locked.Sound ⟨d, some (.unlocking thread)⟩ := by
    intro d thread hd
    refine ⟨hd, fun q hq => ?_⟩
    exact Option.some.inj hq ▸ trivial
  have hcommit : ∀ {a : CacheAct} {d : PodCache} {thread : CacheThread}, c.step a = some d →
      Locked.Sound ⟨d, some (.unlocking thread)⟩ := fun hd => hdone (h.next hd)
  cases k with
  | acquireLoad t =>
    obtain rfl := Option.some.inj hst
    exact hsame ⟨hv, rfl⟩
  | acquireTest t snapshot =>
    cases snapshot with
    | none =>
      obtain rfl := Option.some.inj hst
      exact hsame trivial
    | some r =>
      obtain ⟨hin, hcur⟩ := hv
      simp only [Locked.sectionStep,
        PodCache.touchSnap_of_live (hi.owned (mem_owners_of_current hcur.symm))] at hst
      split at hst
      · obtain rfl := Option.some.inj hst
        exact hsame trivial
      · rename_i hfresh
        obtain rfl := Option.some.inj hst
        exact hsame ⟨hin, hcur.symm, h.next (hi.takeRef_acquires hin hcur.symm hfresh)⟩
  | acquireCount t snapshot =>
    cases snapshot with
    | none =>
      obtain rfl := Option.some.inj hst
      exact hdone h
    | some r =>
      obtain ⟨hin, hcur, hreach⟩ := hv
      simp only [Locked.sectionStep,
        PodCache.touchSnap_of_live (hi.owned (mem_owners_of_current hcur))] at hst
      obtain rfl := Option.some.inj hst
      exact hdone hreach
  | releaseDrop a thread =>
    obtain ⟨d, hd, rfl⟩ := Option.map_eq_some_iff.mp hst
    exact hcommit hd
  | publishLoad =>
    obtain rfl := Option.some.inj hst
    exact hsame ⟨hv, rfl⟩
  | publishStore previous =>
    obtain ⟨-, rfl⟩ := hv
    obtain ⟨th, hth, hst⟩ := Option.bind_eq_some_iff.mp hst
    split at hst
    · rename_i receivedAt pods hpc
      obtain rfl := Option.some.inj hst
      refine hcommit (a := .refresher) ?_
      simp only [PodCache.step, hth, Option.bind_some, PodCache.refresherStep, hpc]
      rfl
    · exact absurd hst (by simp)
  | describeLoad =>
    simp only [Locked.sectionStep] at hst
    split at hst
    · rename_i hcur
      obtain ⟨d, hd, rfl⟩ := Option.map_eq_some_iff.mp hst
      exact hcommit ((described_step hv (describeCurrent_none hcur)).trans hd)
    · rename_i r hcur
      rw [hi.touchPods_eq (mem_owners_of_current hcur)] at hst
      obtain rfl := Option.some.inj hst
      exact hsame ⟨hv, r, hcur, rfl⟩
  | describeAge count =>
    obtain ⟨hin, r, hcur, rfl⟩ := hv
    obtain ⟨q, hq, hst⟩ := Option.bind_eq_some_iff.mp hst
    obtain rfl : r = q := Option.some.inj (hcur.symm.trans hq)
    rw [PodCache.touchSnap_of_live (hi.owned (mem_owners_of_current hcur))] at hst
    obtain ⟨d, hd, rfl⟩ := Option.map_eq_some_iff.mp hst
    exact hcommit ((described_step hin (hi.describeCurrent_some hcur)).trans hd)
  | stopLoad =>
    obtain rfl := Option.some.inj hst
    exact hsame ⟨hv, rfl⟩
  | stopStore previous =>
    obtain ⟨hin, rfl⟩ := hv
    obtain rfl := Option.some.inj hst
    refine hcommit (a := .stop) ?_
    simp only [PodCache.enters] at hin
    split at hin
    · rename_i hs
      simp only [PodCache.step, PodCache.stopStep, hs]
    · exact absurd hin (by simp)
    · exact absurd hin (by simp)
  | unlocking thread =>
    obtain rfl := Option.some.inj hst
    exact ⟨h, fun q hq => absurd hq (by simp)⟩

theorem Locked.Sound.step (h : f.Sound) {a : LockAct} (hst : f.step a = some f') : f'.Sound := by
  cases a with
  | out b =>
    simp only [Locked.step] at hst
    split at hst
    · rename_i hb
      obtain ⟨c', hc, rfl⟩ := Option.map_eq_some_iff.mp hst
      refine ⟨h.cache.next hc, fun k hk => ?_⟩
      exact (h.holder k hk).out h.cache (Option.isNone_iff_eq_none.mp hb.1) (hb.2 k hk) hc
    · exact absurd hst (by simp)
  | lock b =>
    simp only [Locked.step] at hst
    split at hst
    · rename_i k hfree hin
      obtain rfl := Option.some.inj hst
      refine ⟨h.cache, fun q hq => ?_⟩
      exact Option.some.inj hq ▸ enters_valid hin
    · exact absurd hst (by simp)
  | go =>
    obtain ⟨k, hk, hst⟩ := Option.bind_eq_some_iff.mp hst
    exact Locked.sectionStep_sound h.cache (h.holder k hk) hst

theorem Locked.Reachable.sound (h : f.Reachable) : f.Sound := by
  refine Lts.Reachable.invariant (I := Locked.Sound) h ?_ fun g a u hg hst => hg.step hst
  rintro g ⟨hc, hfree⟩
  refine ⟨Lts.Reachable.of_init hc, fun k hk => ?_⟩
  rw [hfree] at hk
  exact absurd hk (by simp)

/-! ## 2. The mutex is given back -/

/-- The statements a section has at most still to take. -/
def SectionPc.left : SectionPc → Nat
  | .acquireLoad _ => 4
  | .acquireTest _ _ => 3
  | .acquireCount _ _ => 2
  | .releaseDrop _ _ => 2
  | .publishLoad => 3
  | .publishStore _ => 2
  | .describeLoad => 3
  | .describeAge _ => 2
  | .stopLoad => 3
  | .stopStore _ => 2
  | .unlocking _ => 1

/-- What the holder of the mutex has still to do. -/
def Locked.left (f : Locked) : Nat :=
  match f.holder with
  | some k => k.left
  | none => 0

def LockAct.isGo : LockAct → Bool
  | .go => true
  | _ => false

theorem SectionPc.left_le (k : SectionPc) : k.left ≤ 4 := by
  cases k <;> simp only [SectionPc.left] <;> omega

/-- A thread about to drop a reference can do so. -/
theorem drop_enabled {a : CacheAct} {thread : CacheThread}
    (hin : c.enters a = some (.releaseDrop a thread)) : c.step a ≠ none := by
  unfold PodCache.enters at hin
  cases a with
  | release t =>
    dsimp only at hin
    split at hin
    · rename_i q acquired hrd
      simp only [PodCache.step, PodCache.releaseStep, hrd]
      split <;> simp
    · exact absurd hin (by simp)
  | stop =>
    dsimp only at hin
    split at hin
    · exact absurd hin (by simp)
    · rename_i q hs
      simp only [PodCache.step, PodCache.stopStep, hs]
      split <;> simp
    · exact absurd hin (by simp)
  | refresher =>
    dsimp only at hin
    split at hin
    · exact absurd hin (by simp)
    · rename_i th hth
      split at hin
      · exact absurd hin (by simp)
      · rename_i q hpc
        simp only [PodCache.step, hth, Option.bind_some, PodCache.refresherStep, hpc]
        split <;> simp
      · split at hin <;> exact absurd hin (by simp)
      · split at hin <;> exact absurd hin (by simp)
      · exact absurd hin (by simp)
  | acquire t =>
    dsimp only at hin
    split at hin <;> exact absurd hin (by simp)
  | _ => exact absurd hin (by simp)

/-- A refresher that has called `describe_current` can use what it returned. -/
theorem described_enabled (hin : c.enters .refresher = some .describeLoad) (count age : Int) :
    c.described count age ≠ none := by
  unfold PodCache.enters at hin
  dsimp only at hin
  split at hin
  · exact absurd hin (by simp)
  · rename_i th hth
    simp only [PodCache.described, hth, Option.bind_some]
    split at hin
    · exact absurd hin (by simp)
    · exact absurd hin (by simp)
    · rename_i error now hpc
      simp [hpc]
    · rename_i error now expired hpc
      simp [hpc]
    · exact absurd hin (by simp)

/-- **The holder can go on**, and nobody has the mutex when its section is over. -/
theorem Locked.Sound.goes_on (h : f.Sound) (hk : f.holder ≠ none) : f.step .go ≠ none := by
  obtain ⟨k, hk⟩ := Option.ne_none_iff_exists'.mp hk
  have hi := h.cache.inv
  have hv := h.holder k hk
  simp only [Locked.step, hk, Option.bind_some]
  cases k with
  | acquireTest t snapshot =>
    cases snapshot with
    | none => simp [Locked.sectionStep]
    | some r =>
      simp only [Locked.sectionStep]
      split <;> simp
  | acquireCount t snapshot => cases snapshot <;> simp [Locked.sectionStep]
  | releaseDrop a thread => simpa [Locked.sectionStep] using drop_enabled hv
  | publishStore previous =>
    rcases enters_cases hv.1 with ⟨t, ha, -⟩ | ⟨thread, -, hk'⟩ | ⟨ha, -⟩ |
      ⟨-, ⟨th, receivedAt, pods, hth, hpc⟩, -⟩ | ⟨-, hk'⟩
    · exact absurd ha (by simp)
    · exact absurd hk' (by simp)
    · exact absurd ha (by simp)
    · simp [Locked.sectionStep, hth, hpc]
    · exact absurd hk' (by simp)
  | describeLoad =>
    simp only [Locked.sectionStep]
    split
    · simpa using described_enabled hv 0 0
    · simp
  | describeAge count =>
    obtain ⟨hin, r, hcur, -⟩ := hv
    simp only [Locked.sectionStep, hcur, Option.bind_some,
      PodCache.touchSnap_of_live (hi.owned (mem_owners_of_current hcur))]
    simpa using described_enabled hin count _
  | _ => simp [Locked.sectionStep]

/-- A statement of the section uses up one. -/
theorem Locked.left_go (hst : Locked.sectionStep c k = some f') : f'.left + 1 ≤ k.left := by
  cases k with
  | acquireTest t snapshot =>
    cases snapshot with
    | none =>
      obtain rfl := Option.some.inj hst
      exact Nat.le_refl 3
    | some r =>
      simp only [Locked.sectionStep] at hst
      split at hst
      · obtain rfl := Option.some.inj hst
        exact Nat.le_refl 3
      · obtain rfl := Option.some.inj hst
        exact Nat.le_refl 3
  | acquireCount t snapshot =>
    cases snapshot with
    | none =>
      obtain rfl := Option.some.inj hst
      exact Nat.le_refl 2
    | some r =>
      obtain rfl := Option.some.inj hst
      exact Nat.le_refl 2
  | releaseDrop a thread =>
    obtain ⟨d, -, rfl⟩ := Option.map_eq_some_iff.mp hst
    exact Nat.le_refl 2
  | publishStore previous =>
    obtain ⟨th, -, hst⟩ := Option.bind_eq_some_iff.mp hst
    split at hst
    · obtain rfl := Option.some.inj hst
      exact Nat.le_refl 2
    · exact absurd hst (by simp)
  | describeLoad =>
    simp only [Locked.sectionStep] at hst
    split at hst
    · obtain ⟨d, -, rfl⟩ := Option.map_eq_some_iff.mp hst
      exact Nat.le_succ 2
    · obtain rfl := Option.some.inj hst
      exact Nat.le_refl 3
  | describeAge count =>
    obtain ⟨r, -, hst⟩ := Option.bind_eq_some_iff.mp hst
    obtain ⟨d, -, rfl⟩ := Option.map_eq_some_iff.mp hst
    exact Nat.le_refl 2
  | _ =>
    obtain rfl := Option.some.inj hst
    exact Nat.le_refl _

/-- The others use up nothing of it. -/
theorem Locked.left_step {a : LockAct} (hk : f.holder ≠ none) (hst : f.step a = some f') :
    f'.left + (if a.isGo then 1 else 0) ≤ f.left := by
  cases a with
  | out b =>
    simp only [Locked.step] at hst
    split at hst
    · obtain ⟨c', -, rfl⟩ := Option.map_eq_some_iff.mp hst
      exact Nat.le_refl _
    · exact absurd hst (by simp)
  | lock b =>
    simp only [Locked.step] at hst
    split at hst
    · rename_i hfree _
      exact absurd hfree hk
    · exact absurd hst (by simp)
  | go =>
    obtain ⟨k, hk, hst⟩ := Option.bind_eq_some_iff.mp hst
    have hleft : f.left = k.left := by simp only [Locked.left, hk]
    rw [hleft]
    exact Locked.left_go hst

/-! ## 3. The two models -/

/-- A statement of the section, with nobody in between. -/
theorem Locked.go_next {s : Locked} (hst : Locked.sectionStep c k = some s) (g : Locked)
    (hr : Lts.Run Locked.step Lts.free s g) :
    Lts.Run Locked.step Lts.free ⟨c, some k⟩ g :=
  Lts.Run.cons (a := LockAct.go) trivial hst hr

theorem Locked.unlocked (c : PodCache) (thread : CacheThread) :
    Lts.Run Locked.step Lts.free ⟨c, some (.unlocking thread)⟩ ⟨c, none⟩ :=
  Lts.Run.single (a := LockAct.go) trivial rfl

/-- A statement that counts, and the mutex is given back. -/
theorem Locked.go_last {w : CacheThread}
    (hst : Locked.sectionStep c k = some ⟨c', some (.unlocking w)⟩) :
    Lts.Run Locked.step Lts.free ⟨c, some k⟩ ⟨c', none⟩ :=
  Locked.go_next hst _ (Locked.unlocked c' w)

/-- `pod_cache_acquire` where there is no list, or one that is too old. -/
theorem acquire_null {t : Nat} (hin : c.enters (.acquire t) = some (.acquireLoad t))
    (hacq : c.podCacheAcquire = (c, none)) : c.step (.acquire t) = some c := by
  simp only [PodCache.enters] at hin
  split at hin
  · rename_i acquired hrd
    simp only [PodCache.step, PodCache.acquireStep, hrd, hacq]
  · exact absurd hin (by simp)

theorem CacheInv.acquire_runs (h : CacheInv c) {t : Nat}
    (hin : c.enters (.acquire t) = some (.acquireLoad t)) (hst : c.step (.acquire t) = some c') :
    Lts.Run Locked.step Lts.free ⟨c, some (.acquireLoad t)⟩ ⟨c', none⟩ := by
  refine Locked.go_next (s := ⟨c, some (.acquireTest t c.current)⟩) rfl _ ?_
  -- the test of the age decides; behind it there is one way to the end
  have hnull : c.podCacheAcquire = (c, none) →
      Lts.Run Locked.step Lts.free ⟨c, some (.acquireCount t none)⟩ ⟨c', none⟩ := by
    intro hacq
    obtain rfl := Option.some.inj ((acquire_null hin hacq).symm.trans hst)
    exact Locked.go_last rfl
  cases hcur : c.current with
  | none =>
    refine Locked.go_next (s := ⟨c, some (.acquireCount t none)⟩) rfl _ (hnull ?_)
    unfold PodCache.podCacheAcquire
    split
    · rfl
    · rename_i r hr
      rw [hcur] at hr
      exact absurd hr (by simp)
  | some r =>
    have htouch := PodCache.touchSnap_of_live (h.owned (mem_owners_of_current hcur))
    by_cases hold : c.maxAge > 0 ∧ c.nowSeconds - (c.snaps r).receivedAt > c.maxAge
    · have htest : Locked.sectionStep c (.acquireTest t (some r)) =
          some ⟨c, some (.acquireCount t none)⟩ := by
        simp only [Locked.sectionStep, htouch, if_pos hold]
      refine Locked.go_next htest _ (hnull ?_)
      unfold PodCache.podCacheAcquire
      split
      · rfl
      · rename_i q hq
        obtain rfl : r = q := Option.some.inj (hcur.symm.trans hq)
        rw [htouch]
        exact if_pos hold
    · have htest : Locked.sectionStep c (.acquireTest t (some r)) =
          some ⟨c, some (.acquireCount t (some r))⟩ := by
        simp only [Locked.sectionStep, htouch, if_neg hold]
      obtain rfl := Option.some.inj ((h.takeRef_acquires hin hcur hold).symm.trans hst)
      refine Locked.go_next htest _ (Locked.go_last (w := .reader t) ?_)
      simp only [Locked.sectionStep, htouch]

/-- **A section runs to its end**, and is then the step of the atomic model. -/
theorem Locked.section_runs (h : c.Reachable) {a : CacheAct} (hin : c.enters a = some k)
    (hst : c.step a = some c') : Lts.Run Locked.step Lts.free ⟨c, some k⟩ ⟨c', none⟩ := by
  have hi := h.inv
  rcases enters_cases hin with ⟨t, rfl, rfl⟩ | ⟨thread, -, rfl⟩ | ⟨rfl, hs, rfl⟩ |
    ⟨rfl, ⟨th, receivedAt, pods, hth, hpc⟩, rfl⟩ | ⟨rfl, rfl⟩
  · exact hi.acquire_runs hin hst
  · refine Locked.go_last (w := thread) ?_
    simp only [Locked.sectionStep, hst, Option.map_some]
  · refine Locked.go_next (s := ⟨c, some (.stopStore c.current)⟩) rfl _ ?_
    simp only [PodCache.step, PodCache.stopStep, hs, Option.some.injEq] at hst
    exact hst ▸ Locked.go_last rfl
  · refine Locked.go_next (s := ⟨c, some (.publishStore c.current)⟩) rfl _ ?_
    simp only [PodCache.step, hth, Option.bind_some, PodCache.refresherStep, hpc,
      Option.some.injEq] at hst
    refine Locked.go_last (w := .refresher) ?_
    simp only [Locked.sectionStep, hth, Option.bind_some, hpc, ← hst]
    rfl
  · cases hcur : c.current with
    | none =>
      refine Locked.go_last (w := .refresher) ?_
      rw [described_step hin (describeCurrent_none hcur)] at hst
      simp only [Locked.sectionStep, hcur, hst, Option.map_some]
    | some r =>
      have hlive := mem_owners_of_current hcur
      have hload : Locked.sectionStep c .describeLoad =
          some ⟨c, some (.describeAge (c.podsOf r).length)⟩ := by
        simp only [Locked.sectionStep, hcur, hi.touchPods_eq hlive]
      refine Locked.go_next hload _ (Locked.go_last (w := .refresher) ?_)
      rw [described_step hin (hi.describeCurrent_some hcur)] at hst
      simp only [Locked.sectionStep, hcur, Option.bind_some,
        PodCache.touchSnap_of_live (hi.owned hlive), hst, Option.map_some]

/-- **Every step of the atomic model is taken.** -/
theorem Locked.realizes (h : c.Reachable) {a : CacheAct} (hst : c.step a = some c') :
    Lts.Run Locked.step Lts.free ⟨c, none⟩ ⟨c', none⟩ := by
  cases hin : c.enters a with
  | none =>
    refine Lts.Run.single (a := LockAct.out a) trivial ?_
    simp only [Locked.step, hin, hst]
    simp
  | some k =>
    refine Lts.Run.cons (a := LockAct.lock a) (t := ⟨c, some k⟩) trivial ?_
      (Locked.section_runs h hin hst)
    simp only [Locked.step, hin]

/-- **Whether the sections are atomic makes no difference.**  With every access of a section a step
of its own, and the other threads going on in between, the memory is at every moment one that the
atomic model reaches, so nothing is ever misused; and every state of the atomic model is reached,
with the mutex free.  The mutex is given back: a thread that has it takes at most four statements
before it does, however many steps the others take, and can take each of them. -/
theorem locked_iff_atomic :
    (∀ c : PodCache, c.Reachable ↔ (Locked.mk c none).Reachable) ∧
    (∀ f : Locked, f.Reachable → f.cache.Reachable ∧ f.cache.fault = false) ∧
    ∀ (f g : Locked) (as : List LockAct), f.Reachable →
      Lts.Trace Locked.step (fun u _ => u.holder ≠ none) f as g →
        as.countP LockAct.isGo ≤ 4 ∧ (g.holder ≠ none → g.step .go ≠ none) := by
  refine ⟨fun c => ⟨fun h => ?_, fun h => h.sound.cache⟩,
    fun f h => ⟨h.sound.cache, h.sound.cache.inv.noFault⟩, fun f g as h htr => ⟨?_, ?_⟩⟩
  · have hall : c.Reachable ∧ (Locked.mk c none).Reachable := by
      refine Lts.Reachable.invariant (I := fun d => d.Reachable ∧ (Locked.mk d none).Reachable) h
        (fun d hd => ⟨Lts.Reachable.of_init hd, Lts.Reachable.of_init ⟨hd, rfl⟩⟩) ?_
      rintro d a d' ⟨hd, hl⟩ hst
      exact ⟨hd.next hst, hl.run (Locked.realizes hd hst)⟩
    exact hall.2
  · have hpay := htr.countP_add_le (I := fun _ => True) Locked.left LockAct.isGo
      (fun t a u _ hok hst => ⟨trivial, Locked.left_step hok hst⟩) trivial
    have hle : f.left ≤ 4 := by
      unfold Locked.left
      split
      · exact SectionPc.left_le _
      · exact Nat.zero_le 4
    omega
  · have hg : g.Reachable := Lts.Reachable.run h htr.run
    exact hg.sound.goes_on

end Sections

end Unicaster
