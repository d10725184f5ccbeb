/-
# The delays of failed requests (`next_delay` and `refresh_pods` of `pod_cache.c`)

Failed requests are retried ever more slowly.  The delay is the refresh interval, doubled for
each failure in a row, and never more than 30 seconds or the interval itself.

`next_delay` counts and doubles in `int`; section 1 says that none of its operations overflows,
and what it yields.  Section 2 is about the runs: the sleeps of the refresher are kept in a book
beside the run, and `Waited` says how long they are.
-/
import Unicaster.Reports
import Unicaster.Lib.Doubling

namespace Unicaster

open CLib

/-! ## 1. `next_delay` -/

/-- An operation on `int` whose exact result is `n`; an overflow is an error. -/
def intOp (n : Int) : Option Int := if intMin ≤ n ∧ n ≤ intMax then some n else none

/-- `for (; i < failures && delay < cap; i++) delay *= 2`, with fuel. -/
def delayLoop (failures cap : Int) : Nat → Int → Int → Option Int
  | 0, _, _ => none
  | fuel + 1, i, delay =>
    if i < failures ∧ delay < cap then do
      let delay ← intOp (delay * 2)
      let i ← intOp (i + 1)
      delayLoop failures cap fuel i delay
    else some delay

/-- `next_delay` in `int`. -/
def nextDelayInt (refresh failures : Int) : Option Int := do
  let cap := if refresh > maxRetryDelay then refresh else maxRetryDelay
  let delay ← delayLoop failures cap (failures.toNat + 1) 1 refresh
  return if delay < cap then delay else cap

section Delay

variable {refresh failures cap i delay : Int} {fuel : Nat}

theorem doubling_eq_rounds (cap : Int) (n : Nat) (delay : Int) :
    doubling cap n delay = Doubling.rounds cap n delay := by
  induction n generalizing delay with
  | zero => rfl
  | succ n ih => simp only [doubling, Doubling.rounds, ih]

/-- Something is only doubled below a cap of 30. -/
theorem delayLoop_eq (hfuel : (failures - i).toNat < fuel) (hi : 1 ≤ i) (hf : failures ≤ intMax)
    (h0 : 0 ≤ delay) (hcap : cap ≤ maxRetryDelay ∨ cap ≤ delay) :
    delayLoop failures cap fuel i delay =
      some (Doubling.rounds cap (failures - i).toNat delay) := by
  induction fuel generalizing i delay with
  | zero => omega
  | succ fuel ih =>
    rw [delayLoop]
    split
    · rename_i hgo
      have hdelay : intOp (delay * 2) = some (delay * 2) := by
        refine if_pos ?_
        unfold intMin intMax maxRetryDelay at *
        omega
      have hcount : intOp (i + 1) = some (i + 1) := by
        refine if_pos ?_
        unfold intMin intMax at *
        omega
      have hleft : (failures - i).toNat = (failures - (i + 1)).toNat + 1 := by omega
      rw [hdelay, hcount, Option.bind_eq_bind, Option.bind_some, Option.bind_some, hleft,
        Doubling.rounds, if_pos hgo.2]
      exact ih (by omega) (by omega) (by omega) (by omega)
    · rename_i hstop
      by_cases hlt : delay < cap
      · have hnone : (failures - i).toNat = 0 := by omega
        rw [hnone]
        rfl
      · rw [Doubling.rounds_of_le _ (not_lt.mp hlt)]

/-- **No `int` overflows in `next_delay`.** -/
theorem nextDelayInt_eq (hr : 1 ≤ refresh) (hf : 1 ≤ failures) (hmax : failures ≤ intMax) :
    nextDelayInt refresh failures = some (nextDelay refresh failures) := by
  unfold nextDelayInt nextDelay
  dsimp only
  generalize hcap : (if refresh > maxRetryDelay then refresh else maxRetryDelay) = cap
  have hcases : cap ≤ maxRetryDelay ∨ cap ≤ refresh := by
    rw [← hcap]
    split
    · exact Or.inr le_rfl
    · exact Or.inl le_rfl
  rw [delayLoop_eq (by omega) le_rfl hmax (by omega) hcases, doubling_eq_rounds]
  rfl

/-- **What it yields**: the power, cut at the cap. -/
theorem nextDelay_eq (hr : 0 ≤ refresh) (failures : Int) :
    nextDelay refresh failures =
      min (max refresh maxRetryDelay) (refresh * 2 ^ (failures - 1).toNat) := by
  unfold nextDelay
  dsimp only
  have hcap : (if refresh > maxRetryDelay then refresh else maxRetryDelay) =
      max refresh maxRetryDelay := by
    rw [max_comm]
    exact (max_def_lt _ _).symm
  rw [hcap, ← min_def_lt, doubling_eq_rounds, Doubling.min_rounds _ _ hr, min_comm]

/-- The delay after `k + 1` failures in a row. -/
def retryDelay (refresh : Int) (k : Nat) : Int := min (max refresh maxRetryDelay) (refresh * 2 ^ k)

theorem nextDelay_succ (hr : 0 ≤ refresh) (k : Nat) :
    nextDelay refresh (k + 1) = retryDelay refresh k := by
  rw [nextDelay_eq hr, add_sub_cancel_right, Int.toNat_natCast]
  rfl

theorem retryDelay_zero (refresh : Int) : retryDelay refresh 0 = refresh := by
  rw [retryDelay, pow_zero, mul_one, min_eq_right (le_max_left _ _)]

theorem retryDelay_mono (hr : 0 ≤ refresh) {k l : Nat} (hkl : k ≤ l) :
    retryDelay refresh k ≤ retryDelay refresh l :=
  Doubling.min_pow_le (max refresh maxRetryDelay) hr hkl

theorem le_retryDelay (hr : 0 ≤ refresh) (k : Nat) : refresh ≤ retryDelay refresh k := by
  have hzero := retryDelay_mono hr (Nat.zero_le k)
  rwa [retryDelay_zero] at hzero

theorem retryDelay_le (refresh : Int) (k : Nat) :
    retryDelay refresh k ≤ max refresh maxRetryDelay := min_le_left _ _

theorem retryDelay_const (hr : maxRetryDelay ≤ refresh) (k : Nat) :
    retryDelay refresh k = refresh := by
  have h0 : 0 ≤ refresh := le_trans (by decide) hr
  refine le_antisymm ?_ (le_retryDelay h0 k)
  exact (retryDelay_le refresh k).trans_eq (max_eq_left hr)

end Delay

/-! ## 2. The sleeps of a run -/

/-- The sleep behind a round: whether the round succeeded, and the nanoseconds it is to last. -/
structure Sleep where
  ok : Bool
  asked : Int

/-- What is left of the sleep the refresher is in. -/
def PodCache.asleep (c : PodCache) : Int :=
  match c.refresher.map Refresher.pc with
  | some (.sleeping deadline) => deadline - c.clock
  | _ => 0

/-- The sleeps of the refresher behind a step; they begin anew with every `pod_cache_start`. -/
def PodCache.sleepsAfter (c : PodCache) (a : CacheAct) (c' : PodCache) (sleeps : List Sleep) :
    List Sleep :=
  match a, c.refresher with
  | .refresher, some th =>
    match th.pc with
    | .succeeded => sleeps ++ [⟨true, c'.asleep⟩]
    | .reporting _ _ _ => sleeps ++ [⟨false, c'.asleep⟩]
    | _ => sleeps
  | .start _ _, none => []
  | _, _ => sleeps

/-- A step of the cache, with the sleeps. -/
def PodCache.sleepStep (x : PodCache × List Sleep) (a : CacheAct) :
    Option (PodCache × List Sleep) :=
  (x.1.step a).map fun c' => (c', x.1.sleepsAfter a c' x.2)

/-- The failed rounds that the sleeps end in. -/
def failuresIn (sleeps : List Sleep) : Int :=
  sleeps.foldl (fun failures s => if s.ok then 0 else failures + 1) 0

/-- The sleeps are as long as they are to be, given the failures before them. -/
def Slept (refresh : Int) (sleeps : List Sleep) : Prop :=
  ∀ k s, sleeps[k]? = some s →
    s.asked = (if s.ok then refresh else nextDelay refresh (failuresIn (sleeps.take k) + 1)) *
      nsPerSecond

/-- **The locals of `refresh_pods` are those of the sleeps.** -/
structure SleepsInv (e : Environ) (c : PodCache) (sleeps : List Sleep) : Prop where
  environ : c.environ = e
  slept : Slept e.getPodsRefresh sleeps
  refresher : ∀ th, c.refresher = some th →
    th.refresh = e.getPodsRefresh ∧ th.failures = failuresIn sleeps

section Sleeps

variable {e : Environ} {c c' : PodCache} {th : Refresher} {sleeps : List Sleep}

theorem failuresIn_concat (sleeps : List Sleep) (s : Sleep) :
    failuresIn (sleeps ++ [s]) = if s.ok then 0 else failuresIn sleeps + 1 := by
  rw [failuresIn, List.foldl_append]
  rfl

theorem slept_nil (refresh : Int) : Slept refresh [] := fun _ _ h => absurd h (by simp)

/-- One sleep more. -/
theorem Slept.concat {refresh : Int} (h : Slept refresh sleeps) {s : Sleep}
    (hs : s.asked =
      (if s.ok then refresh else nextDelay refresh (failuresIn sleeps + 1)) * nsPerSecond) :
    Slept refresh (sleeps ++ [s]) := by
  intro k x hx
  rcases List.getElem?_concat_cases hx with ⟨hk, hold⟩ | ⟨rfl, rfl⟩
  · rw [List.take_append_of_le_length (by omega)]
    exact h k x hold
  · rwa [List.take_left]

/-- The refresher, where there is one, keeps its counter and its interval. -/
theorem SleepsInv.still (h : SleepsInv e c sleeps) (he : c'.environ = c.environ)
    (hth : ∀ th', c'.refresher = some th' →
      ∃ th, c.refresher = some th ∧ th'.refresh = th.refresh ∧ th'.failures = th.failures) :
    SleepsInv e c' sleeps := by
  refine ⟨he.trans h.environ, h.slept, fun th' hth' => ?_⟩
  obtain ⟨th, hth₁, hrefresh, hfailures⟩ := hth th' hth'
  rw [hrefresh, hfailures]
  exact h.refresher th hth₁

/-- A move that does not end the round. -/
theorem SleepsInv.within (h : SleepsInv e c sleeps) (hth : c.refresher = some th)
    (hno : th.pc ≠ .succeeded) (hno' : ∀ error now expired, th.pc ≠ .reporting error now expired)
    (he : c'.environ = c.environ) {th' : Refresher} (hth' : c'.refresher = some th')
    (hsame : th'.refresh = th.refresh ∧ th'.failures = th.failures) :
    SleepsInv e c' (c.sleepsAfter .refresher c' sleeps) := by
  have hsleeps : c.sleepsAfter .refresher c' sleeps = sleeps := by
    unfold PodCache.sleepsAfter
    rw [hth]
    dsimp only
    split
    · rename_i hpc
      exact absurd hpc hno
    · rename_i hpc
      exact absurd hpc (hno' _ _ _)
    · rfl
  rw [hsleeps]
  refine h.still he fun th'' hth'' => ⟨th, hth, ?_⟩
  obtain rfl : th' = th'' := Option.some.inj (hth'.symm.trans hth'')
  exact hsame

/-- **A move of the refresher**, and the sleep it begins. -/
theorem SleepsInv.move (h : SleepsInv e c sleeps) (hi : CacheInv c) (hth : c.refresher = some th)
    (hmv : RefresherMove c th c') : SleepsInv e c' (c.sleepsAfter .refresher c' sleeps) := by
  obtain ⟨hrefresh, hcount⟩ := h.refresher th hth
  have he : c'.environ = c.environ := (hi.refresher_frame hmv).1.environ
  cases hmv with
  | succeed hpc =>
    have hasked : (c.endSuccess th).asleep = e.getPodsRefresh * nsPerSecond := by
      rw [← hrefresh]
      exact add_sub_cancel_left _ _
    simp only [PodCache.sleepsAfter, hth, hpc, hasked]
    refine ⟨he.trans h.environ, h.slept.concat rfl, fun th' hth' => ?_⟩
    obtain rfl := Option.some.inj hth'
    exact ⟨hrefresh, by rw [failuresIn_concat]; rfl⟩
  | @report error now expired hpc =>
    obtain ⟨log, th', heq, hpc', hrefresh', hfailures⟩ := hi.endFailure_eq th error now expired
    have hasked : (c.endFailure th error now expired).asleep =
        nextDelay e.getPodsRefresh (th.failures + 1) * nsPerSecond := by
      rw [heq, ← hrefresh]
      simp only [PodCache.asleep, Option.map_some, hpc']
      exact add_sub_cancel_left _ _
    simp only [PodCache.sleepsAfter, hth, hpc, hasked]
    refine ⟨he.trans h.environ, h.slept.concat (by rw [hcount]; rfl), fun th'' hth'' => ?_⟩
    rw [heq] at hth''
    obtain rfl : th' = th'' := Option.some.inj hth''
    rw [hrefresh', hfailures, hcount]
    exact ⟨hrefresh, by rw [failuresIn_concat]; rfl⟩
  | _ =>
    refine h.within hth ?_ ?_ he rfl ⟨rfl, rfl⟩
    · rw [‹th.pc = _›]
      simp
    · rw [‹th.pc = _›]
      simp

/-- `pod_cache_start` leaves the refresher alone, or creates one that has not slept yet. -/
theorem SleepsInv.start (h : SleepsInv e c sleeps) (hi : CacheInv c) {clientOk threadOk ok : Bool}
    (hmv : StartMove c clientOk threadOk c' ok) :
    SleepsInv e c' (c.sleepsAfter (.start clientOk threadOk) c' sleeps) := by
  have he : c'.environ = c.environ := hmv.quiet.environ
  cases hth : c.refresher with
  | some th =>
    have hrun : c.refresherRunning = true := by
      rw [hi.running, hth]
      rfl
    simp only [PodCache.sleepsAfter, hth]
    cases hmv with
    | running => exact h
    | _ => simp_all
  | none =>
    simp only [PodCache.sleepsAfter, hth]
    refine ⟨he.trans h.environ, slept_nil _, fun th' hth' => ?_⟩
    obtain ⟨-, -, -, hsame | hnew, -⟩ := hmv.frame
    · rw [hsame, hth] at hth'
      exact absurd hth' (by simp)
    · rw [hnew] at hth'
      obtain rfl := Option.some.inj hth'
      exact ⟨congrArg Environ.getPodsRefresh h.environ, rfl⟩

/-- **Every step keeps the sleeps.** -/
theorem SleepsInv.step (h : SleepsInv e c sleeps) (hi : CacheInv c) {a : CacheAct}
    (hst : c.step a = some c') : SleepsInv e c' (c.sleepsAfter a c' sleeps) := by
  have he := hi.environ_step hst
  cases hi.move_of_step hst with
  | start hs hmv => exact h.start hi hmv
  | refresher hth hmv => exact h.move hi hth hmv
  | stop hmv =>
    refine h.still he fun th' hth' => ?_
    obtain ⟨-, hsame | hnone, -⟩ := hmv.frame
    · exact ⟨th', hsame ▸ hth', rfl, rfl⟩
    · exact absurd (hnone.symm.trans hth') (by simp)
  | @fetched th startedAt a ips hth hpc hok =>
    exact h.still he fun th' hth' => ⟨th, hth, by rw [← Option.some.inj hth']; exact ⟨rfl, rfl⟩⟩
  | @fetchFailed th startedAt a error hth hpc hno =>
    exact h.still he fun th' hth' => ⟨th, hth, by rw [← Option.some.inj hth']; exact ⟨rfl, rfl⟩⟩
  | @allocated th l hth hpc =>
    exact h.still he fun th' hth' => ⟨th, hth, by rw [← Option.some.inj hth']; exact ⟨rfl, rfl⟩⟩
  | @outOfMemory th l hth hpc =>
    exact h.still he fun th' hth' => ⟨th, hth, by rw [← Option.some.inj hth']; exact ⟨rfl, rfl⟩⟩
  | _ => exact h.still he fun th' hth' => ⟨th', hth', rfl, rfl⟩

/-- **The sleeps of a run.** -/
theorem sleeps_slept {clock : Int}
    (hr : Lts.Run PodCache.sleepStep Lts.free (PodCache.init e clock, []) (c, sleeps)) :
    Slept e.getPodsRefresh sleeps := by
  have hall : c.Reachable ∧ SleepsInv e c sleeps := by
    refine hr.invariant (I := fun x => x.1.Reachable ∧ SleepsInv e x.1 x.2)
      ⟨Lts.Reachable.of_init ⟨e, clock, rfl⟩, rfl, slept_nil _, fun th hth =>
        absurd hth (by simp [PodCache.init])⟩ ?_
    rintro ⟨d, l⟩ a x ⟨hd, hi⟩ - hst
    obtain ⟨d', hd', rfl⟩ := Option.map_eq_some_iff.mp hst
    exact ⟨hd.next hd', hi.step hd.inv hd'⟩
  exact hall.2.slept

end Sleeps

/-! ## 3. Streaks -/

section Streaks

variable {refresh : Int} {pre streak post : List Sleep}

theorem failuresIn_calm (h : ∀ s, pre.getLast? = some s → s.ok = true) : failuresIn pre = 0 := by
  induction pre using List.reverseRecOn with
  | nil => rfl
  | append_singleton l s _ => rw [failuresIn_concat, if_pos (h s List.getLast?_concat)]

theorem failuresIn_append (h : ∀ s ∈ streak, s.ok = false) :
    failuresIn (pre ++ streak) = failuresIn pre + streak.length := by
  induction streak using List.reverseRecOn with
  | nil => simp
  | append_singleton l s ih =>
    have hs : s.ok = false := h s (by simp)
    rw [← List.append_assoc, failuresIn_concat, hs, if_neg (by simp),
      ih fun x hx => h x (by simp [hx])]
    push_cast [List.length_append, List.length_singleton]
    omega

/-- **The sleeps of a streak** are those of the first failures in a row. -/
theorem Slept.of_streak (h : Slept refresh (pre ++ streak ++ post))
    (hcalm : ∀ s, pre.getLast? = some s → s.ok = true) (hfail : ∀ s ∈ streak, s.ok = false)
    {k : Nat} {s : Sleep} (hk : streak[k]? = some s) :
    s.asked = nextDelay refresh (k + 1) * nsPerSecond := by
  have hlt : k < streak.length := (List.getElem?_eq_some_iff.mp hk).1
  have hget : (pre ++ streak ++ post)[pre.length + k]? = some s := by
    rw [List.append_assoc, List.getElem?_append_right (by omega), Nat.add_sub_cancel_left,
      List.getElem?_append_left hlt, hk]
  have htake : (pre ++ streak ++ post).take (pre.length + k) = pre ++ streak.take k := by
    rw [List.append_assoc, List.take_length_add_append, List.take_append_of_le_length hlt.le]
  have hfailures : failuresIn (pre ++ streak.take k) = k := by
    rw [failuresIn_append fun x hx => hfail x (List.mem_of_mem_take hx), failuresIn_calm hcalm,
      List.length_take, Nat.min_eq_left hlt.le, zero_add]
  have hs : s.ok = false := hfail s (List.mem_of_getElem? hk)
  rw [h _ s hget, htake, hfailures, hs]
  rfl

end Streaks

/-- **Retry delays double up to the cap, without overflow**: the formula, and the sleeps of every
run. -/
theorem retry_delays :
    (∀ refresh failures : Int, 1 ≤ refresh → 1 ≤ failures → failures ≤ intMax →
      nextDelayInt refresh failures =
        some (min (max refresh maxRetryDelay) (refresh * 2 ^ (failures - 1).toNat))) ∧
    ∀ (e : Environ) (clock : Int) (c : PodCache) (sleeps : List Sleep),
      Lts.Run PodCache.sleepStep Lts.free (PodCache.init e clock, []) (c, sleeps) →
        (∀ s ∈ sleeps, s.ok = true → s.asked = e.getPodsRefresh * nsPerSecond) ∧
        ∀ pre streak post, sleeps = pre ++ streak ++ post → (∀ s ∈ streak, s.ok = false) →
          (∀ s, pre.getLast? = some s → s.ok = true) →
          (∀ (k : Nat) s, streak[k]? = some s →
            s.asked = retryDelay e.getPodsRefresh k * nsPerSecond ∧
            ((k + 1 : Int) ≤ intMax → nextDelayInt e.getPodsRefresh (k + 1) =
              some (retryDelay e.getPodsRefresh k)) ∧
            e.getPodsRefresh * nsPerSecond ≤ s.asked ∧
            s.asked ≤ max e.getPodsRefresh maxRetryDelay * nsPerSecond ∧
            (maxRetryDelay ≤ e.getPodsRefresh → s.asked = e.getPodsRefresh * nsPerSecond)) ∧
          (∀ s, streak.head? = some s → s.asked = e.getPodsRefresh * nsPerSecond) ∧
          streak.Pairwise fun s s' => s.asked ≤ s'.asked := by
  refine ⟨fun refresh failures hr hf hmax => ?_, fun e clock c sleeps hrun => ?_⟩
  · rw [nextDelayInt_eq hr hf hmax, nextDelay_eq (by omega)]
  · have hslept := sleeps_slept hrun
    have hr : 1 ≤ e.getPodsRefresh := (getPodsRefresh_range e).1
    have h0 : 0 ≤ e.getPodsRefresh := by omega
    have hns : 0 ≤ nsPerSecond := by decide
    refine ⟨fun s hs hok => ?_, ?_⟩
    · obtain ⟨k, hk⟩ := List.mem_iff_getElem?.mp hs
      rw [hslept k s hk, hok]
      rfl
    rintro pre streak post rfl hfail hcalm
    have hasked : ∀ (k : Nat) s, streak[k]? = some s →
        s.asked = retryDelay e.getPodsRefresh k * nsPerSecond := fun k s hk => by
      rw [hslept.of_streak hcalm hfail hk, nextDelay_succ h0]
    refine ⟨fun k s hk => ⟨hasked k s hk, fun hmax => ?_, ?_, ?_, fun hcap => ?_⟩, fun s hs => ?_,
      List.pairwise_iff_getElem.mpr fun i j hi hj hij => ?_⟩
    · rw [nextDelayInt_eq hr (by omega) hmax, nextDelay_succ h0]
    · rw [hasked k s hk]
      exact mul_le_mul_of_nonneg_right (le_retryDelay h0 k) hns
    · rw [hasked k s hk]
      exact mul_le_mul_of_nonneg_right (retryDelay_le _ k) hns
    · rw [hasked k s hk, retryDelay_const hcap]
    · rw [List.head?_eq_getElem?] at hs
      rw [hasked 0 s hs, retryDelay_zero]
    · rw [hasked i _ (List.getElem?_eq_getElem hi), hasked j _ (List.getElem?_eq_getElem hj)]
      exact mul_le_mul_of_nonneg_right (retryDelay_mono h0 hij.le) hns

/-- A refresh interval of 5 s: a success, and four failures behind it. -/
theorem retry_delays_five :
    nextDelayInt 5 3 = some 20 ∧ ∃ good first second third fourth : Sleep,
      [good, first, second, third, fourth].map Sleep.asked =
        [5 * nsPerSecond, 5 * nsPerSecond, 10 * nsPerSecond, 20 * nsPerSecond, 30 * nsPerSecond] ∧
      [first, second, third, fourth].Pairwise fun s s' => s.asked ≤ s'.asked := by
  obtain ⟨hformula, hruns⟩ := retry_delays
  have hview : (Lts.exec PodCache.sleepStep
      (PodCache.init { podsRefresh := some ⟨ascii "5", by decide⟩ } 0, [])
      (.start true true :: (publishedRound 5000000000 ++ failedRound 5000000000 ++
        failedRound 10000000000 ++ failedRound 20000000000 ++ failedRound 30000000000))).map
          (fun x => x.2.map fun s => (s.ok, s.asked)) =
      some [(true, 5 * nsPerSecond), (false, 5 * nsPerSecond), (false, 10 * nsPerSecond),
        (false, 20 * nsPerSecond), (false, 30 * nsPerSecond)] := by
    decide +kernel
  obtain ⟨⟨c, sleeps⟩, hs, hmap⟩ := Option.map_eq_some_iff.mp hview
  obtain ⟨good, l₁, rfl, hgood, h₁⟩ := List.map_eq_cons_iff.mp hmap
  obtain ⟨first, l₂, rfl, hfirst, h₂⟩ := List.map_eq_cons_iff.mp h₁
  obtain ⟨second, l₃, rfl, hsecond, h₃⟩ := List.map_eq_cons_iff.mp h₂
  obtain ⟨third, l₄, rfl, hthird, h₄⟩ := List.map_eq_cons_iff.mp h₃
  obtain ⟨fourth, l₅, rfl, hfourth, h₅⟩ := List.map_eq_cons_iff.mp h₄
  simp only [Prod.mk.injEq] at hgood hfirst hsecond hthird hfourth
  refine ⟨hformula 5 3 (by decide) (by decide) (by decide), good, first, second, third, fourth, ?_,
    ?_⟩
  · simp [hgood, hfirst, hsecond, hthird, hfourth]
  · exact ((hruns _ _ c _ (Lts.run_of_exec hs)).2 [good] [first, second, third, fourth] l₅ rfl
      (by simp [hfirst, hsecond, hthird, hfourth]) (by simp [hgood])).2.2

end Unicaster
