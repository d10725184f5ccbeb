/-
# What is said about the list

`pod_cache_acquire`, `is_expired` and `log_failure` decide each for itself whether the current
list is still used, and two of them take "no pods" for "no list".  They agree because no empty
list is ever published: `PodCache.Refuses` is the one test, and `PodCache.verdict` what is said.

Ages are differences of whole seconds, so a list is refused somewhere in the second behind its
maximal age.

What `refresh_pods` logs of its failures is that of a reminder whose urgency is that the list has
expired; `Round` is kept beside a run for the proofs.
-/
import Unicaster.CacheHistory
import Unicaster.CacheLife
import Unicaster.Lib.Reminder

namespace Unicaster

open CLib

/-! ## 1. One decision -/

namespace PodCache

variable (c : PodCache)

/-- Snapshot `r` is over `REDIS_BROADCAST_PODS_MAX_AGE`. -/
def Refuses (r : Nat) : Prop := c.maxAge > 0 ∧ c.nowSeconds - (c.snaps r).receivedAt > c.maxAge

instance (r : Nat) : Decidable (c.Refuses r) :=
  inferInstanceAs (Decidable (_ ∧ _))

/-- What there is to say about the announcements. -/
def verdict : Verdict :=
  match c.current with
  | none => .noList
  | some r =>
    let age := c.nowSeconds - (c.snaps r).receivedAt
    if c.Refuses r then .expired age else .stillAnnouncing (c.podsOf r).length age

/-- The current list has a pod. -/
def NonEmpty : Prop := ∀ r, c.current = some r → c.podsOf r ≠ []

end PodCache

section Decision

variable {c c' : PodCache}

/-- **No empty list is ever published.** -/
theorem PodCache.Reachable.nonEmpty (h : c.Reachable) : c.NonEmpty := by
  have hview : ∀ r receivedAt ips, c.view = some (r, receivedAt, ips) → ips ≠ [] := by
    have hboth : c.Reachable ∧
        ∀ r receivedAt ips, c.view = some (r, receivedAt, ips) → ips ≠ [] := by
      refine Lts.Reachable.invariant (I := fun d => d.Reachable ∧
        ∀ r receivedAt ips, d.view = some (r, receivedAt, ips) → ips ≠ []) h ?_ ?_
      · rintro d ⟨e, clock, rfl⟩
        exact ⟨Lts.Reachable.of_init ⟨e, clock, rfl⟩, fun r receivedAt ips hv => absurd hv (by
          simp [PodCache.view, PodCache.init])⟩
      · rintro d a d' ⟨hd, hne⟩ hst
        refine ⟨hd.next hst, fun r receivedAt ips hv => ?_⟩
        rcases hd.view_step hst with heq | ⟨ips', receivedAt', -, -, hne', heq⟩ | ⟨-, -, heq⟩
        · exact hne r receivedAt ips (heq ▸ hv)
        · obtain ⟨-, -, rfl⟩ := Prod.mk.inj (Option.some.inj (heq.symm.trans hv))
          exact hne'
        · exact absurd (heq.symm.trans hv) (by simp)
    exact hboth.2
  intro r hcur
  exact hview r (c.snaps r).receivedAt (c.podsOf r) (by rw [PodCache.view, hcur]; rfl)

theorem podCacheAcquire_snd {r : Nat} (hcur : c.current = some r) :
    c.podCacheAcquire.2 = if c.Refuses r then none else some r := by
  simp only [PodCache.podCacheAcquire, hcur]
  split
  · rename_i href
    exact (if_pos href).symm
  · rename_i href
    exact (if_neg href).symm

theorem podCacheAcquire_none_iff (c : PodCache) :
    c.podCacheAcquire.2 = none ↔ c.current = none ∨ ∃ r, c.current = some r ∧ c.Refuses r := by
  cases hcur : c.current with
  | none => simp [PodCache.podCacheAcquire, hcur]
  | some r =>
    rw [podCacheAcquire_snd hcur]
    by_cases href : c.Refuses r <;> simp [href]

theorem PodCache.NonEmpty.isExpired_iff (h : c.NonEmpty) :
    c.isExpired.2 = true ↔ ∃ r, c.current = some r ∧ c.Refuses r := by
  unfold PodCache.isExpired
  by_cases hage : c.maxAge > 0
  · rw [if_pos hage]
    unfold PodCache.describeCurrent
    cases hcur : c.current with
    | none => simp
    | some r =>
      have hiff : (c.touchPods r).maxAge < c.nowSeconds - (c.snaps r).receivedAt ↔ c.Refuses r :=
        ⟨fun hgt => ⟨hage, hgt⟩, fun href => href.2⟩
      simpa [h r hcur] using hiff
  · rw [if_neg hage]
    simp [PodCache.Refuses, hage]

/-- **What `log_failure` says.** -/
theorem PodCache.NonEmpty.logFailure_log (h : c.NonEmpty) (reason : Text) (failingFor : Int) :
    (c.logFailure reason failingFor).log = c.log ++ [.failure failingFor reason c.verdict] := by
  unfold PodCache.logFailure PodCache.describeCurrent PodCache.verdict
  cases hcur : c.current with
  | none => rfl
  | some r =>
    have hlen : ((c.podsOf r).length : Int) ≠ 0 := by
      exact_mod_cast (List.length_pos_iff.mpr (h r hcur)).ne'
    dsimp only
    rw [if_neg hlen]
    rfl

theorem verdict_noList_iff (c : PodCache) : c.verdict = .noList ↔ c.current = none := by
  unfold PodCache.verdict
  cases c.current with
  | none => simp
  | some r =>
    dsimp only
    split <;> simp

theorem verdict_expired_iff (c : PodCache) :
    (∃ age, c.verdict = .expired age) ↔ ∃ r, c.current = some r ∧ c.Refuses r := by
  unfold PodCache.verdict
  cases c.current with
  | none => simp
  | some r =>
    dsimp only
    split <;> rename_i href <;> simp [href]

theorem verdict_announcing_iff (c : PodCache) :
    (∃ count age, c.verdict = .stillAnnouncing count age) ↔
      ∃ r, c.current = some r ∧ ¬ c.Refuses r := by
  unfold PodCache.verdict
  cases c.current with
  | none => simp
  | some r =>
    dsimp only
    split <;> rename_i href <;> simp [href]

/-- A list received at the instant `T` is refused only over its maximal age, and from a second
more on. -/
theorem refuses_true_age {r : Nat} {T : Int} (hT : (c.snaps r).receivedAt = T / nsPerSecond) :
    (c.Refuses r → c.maxAge * nsPerSecond < c.clock - T) ∧
      (0 < c.maxAge → (c.maxAge + 1) * nsPerSecond ≤ c.clock - T → c.Refuses r) := by
  unfold PodCache.Refuses PodCache.nowSeconds
  rw [hT]
  unfold nsPerSecond
  omega

end Decision

/-- **What is reported about the list is what the senders do with it**, at any reading of the
clock. -/
theorem reported_as_used (c : PodCache) (h : c.Reachable) (clock : Int) :
    let d := { c with clock := clock }
    (∀ r, d.current = some r → d.podsOf r ≠ []) ∧
    (d.podCacheAcquire.2 = none ↔ d.current = none ∨ d.isExpired.2 = true) ∧
    (∀ reason failingFor, ∃ verdict,
      (d.logFailure reason failingFor).log = d.log ++ [.failure failingFor reason verdict] ∧
      (verdict = .noList ↔ d.current = none) ∧
      ((∃ age, verdict = .expired age) ↔ d.current ≠ none ∧ d.podCacheAcquire.2 = none) ∧
      ((∃ count age, verdict = .stillAnnouncing count age) ↔ d.podCacheAcquire.2 ≠ none)) ∧
    ∀ r T, d.current = some r → (d.snaps r).receivedAt = T / nsPerSecond →
      (d.podCacheAcquire.2 = none → d.maxAge * nsPerSecond < clock - T) ∧
      (0 < d.maxAge → (d.maxAge + 1) * nsPerSecond ≤ clock - T → d.podCacheAcquire.2 = none) ∧
      (d.maxAge = 0 → d.podCacheAcquire.2 ≠ none) := by
  intro d
  have hne : d.NonEmpty := h.nonEmpty
  have hacq := podCacheAcquire_none_iff d
  have hexp := hne.isExpired_iff
  refine ⟨hne, by rw [hacq, hexp], fun reason failingFor => ?_, fun r T hcur hT => ?_⟩
  · refine ⟨d.verdict, hne.logFailure_log reason failingFor, verdict_noList_iff d, ?_, ?_⟩
    · rw [verdict_expired_iff, hacq]
      constructor
      · rintro ⟨r, hcur, href⟩
        exact ⟨by rw [hcur]; simp, Or.inr ⟨r, hcur, href⟩⟩
      · rintro ⟨hsome, hnone | hrefused⟩
        · exact absurd hnone hsome
        · exact hrefused
    · rw [verdict_announcing_iff, ne_eq, hacq, not_or]
      constructor
      · rintro ⟨r, hcur, hfresh⟩
        refine ⟨by rw [hcur]; simp, fun ⟨q, hq, href⟩ => hfresh ?_⟩
        rwa [Option.some.inj (hcur.symm.trans hq)]
      · rintro ⟨hsome, hfresh⟩
        obtain ⟨r, hcur⟩ := Option.ne_none_iff_exists'.mp hsome
        exact ⟨r, hcur, fun href => hfresh ⟨r, hcur, href⟩⟩
  · obtain ⟨hover, hunder⟩ := refuses_true_age (c := d) hT
    have hiff : d.podCacheAcquire.2 = none ↔ d.Refuses r := by
      rw [hacq, hcur]
      simp
    rw [ne_eq, hiff]
    refine ⟨hover, hunder, fun h0 href => ?_⟩
    have hpos := href.1
    omega

/-- A list of one pod, a maximal age of 5 s: it is still used in the second behind, and refused
at the end of it. -/
theorem reported_as_used_ageFive :
    ∃ c : PodCache, c.Reachable ∧ c.current = some 0 ∧ c.maxAge = 5 ∧
      { c with clock := 5 * nsPerSecond + 1 }.podCacheAcquire.2 ≠ none ∧
      { c with clock := 6 * nsPerSecond }.podCacheAcquire.2 = none := by
  have hview : (Lts.exec PodCache.step
      (PodCache.init { podsMaxAge := some ⟨ascii "5", by decide⟩ } 0)
      (firstRound ++ [.refresher])).map
        (fun c => (c.current, c.maxAge, (c.snaps 0).receivedAt,
          { c with clock := 5 * nsPerSecond + 1 }.podCacheAcquire.2)) =
      some (some 0, 5, 0, some 0) := rfl
  obtain ⟨c, hc, heq⟩ := Option.map_eq_some_iff.mp hview
  simp only [Prod.mk.injEq] at heq
  obtain ⟨hcur, hage, hat, huse⟩ := heq
  have hreach : c.Reachable := Lts.reachable_of_exec ⟨_, _, rfl⟩ hc
  refine ⟨c, hreach, hcur, hage, by rw [huse]; simp, ?_⟩
  refine ((reported_as_used c hreach (6 * nsPerSecond)).2.2.2 0 0 hcur hat).2.1 ?_ ?_
  · exact hage ▸ by decide
  · exact hage ▸ by decide

/-! ## 2. The rounds -/

/-- A round of `refresh_pods`: whether it succeeded, the reading its log is measured by, what
`is_expired` said of a failed one, and what was logged. -/
structure Round where
  ok : Bool
  now : Int
  expired : Bool
  log : List LogEntry

/-- How long the requests are said to fail, where it is said. -/
def Round.told (r : Round) : Option Int :=
  match r.log with
  | [.failure failingFor _ _] => some failingFor
  | _ => none

/-- A failed round, as an event of its streak. -/
def Round.entry (r : Round) : Reminder.Entry := (⟨r.now, r.expired⟩, r.told)

/-- The rounds of the refresher behind a step; they begin anew with every `pod_cache_start`. -/
def PodCache.roundsAfter (c : PodCache) (a : CacheAct) (c' : PodCache) (rounds : List Round) :
    List Round :=
  match a, c.refresher with
  | .refresher, some th =>
    match th.pc with
    | .succeeded => rounds ++ [⟨true, c.nowSeconds, false, c'.log.drop c.log.length⟩]
    | .reporting _ now expired =>
      rounds ++ [⟨false, now, expired, c'.log.drop c.log.length⟩]
    | _ => rounds
  | .start _ _, none => []
  | _, _ => rounds

/-- A step of the cache, with the rounds. -/
def PodCache.roundStep (x : PodCache × List Round) (a : CacheAct) :
    Option (PodCache × List Round) :=
  (x.1.step a).map fun c' => (c', x.1.roundsAfter a c' x.2)

/-- A failed round logs nothing, or one line; that of an expired list says that nothing is
announced. -/
def Round.SaysFailure (r : Round) : Prop :=
  r.log = [] ∨ ∃ failingFor reason verdict, r.log = [.failure failingFor reason verdict] ∧
    (r.expired = true → ∃ age, verdict = .expired age)

/-- A round logs no recovery. -/
def Round.NoRecovery (r : Round) : Prop := ∀ failedFor count, .recovered failedFor count ∉ r.log

/-- The rounds so far, and what the refresher keeps of the streak they end in. -/
inductive Told : List Round → Option Reminder.State → Prop
  | start : Told [] none
  | success {rounds : List Round} {r : Round} (h : Told rounds none) (hok : r.ok = true)
      (hlog : r.NoRecovery) : Told (rounds ++ [r]) none
  | recovery {rounds : List Round} {s : Reminder.State} {r : Round} (h : Told rounds (some s))
      (hok : r.ok = true) (hlog : ∃ count, r.log = [.recovered (r.now - s.since) count]) :
      Told (rounds ++ [r]) none
  | failure {rounds : List Round} {st : Option Reminder.State} {r : Round} (h : Told rounds st)
      (hfail : r.ok = false)
      (hstays : ∀ s, st = some s → s.urgent = true → r.expired = true)
      (htext : r.SaysFailure)
      (htold : r.told = (Reminder.step failureReminder st ⟨r.now, r.expired⟩).2) :
      Told (rounds ++ [r]) (some (Reminder.step failureReminder st ⟨r.now, r.expired⟩).1)

/-- What the locals of `refresh_pods` say about the streak. -/
def Refresher.streak (th : Refresher) : Option Reminder.State :=
  if th.failures = 0 then none else some ⟨th.failingSince, th.lastReminder, th.expiryReported⟩

/-- The refresher has a new list in this round. -/
def RefresherPc.Published : RefresherPc → Prop
  | .releasing _ => True
  | .freeing _ => True
  | .succeeded => True
  | _ => False

/-- A round ends there. -/
def RefresherPc.EndsRound : RefresherPc → Prop
  | .succeeded => True
  | .reporting _ _ _ => True
  | _ => False

/-- The locals of the streak are the same. -/
def Refresher.SameStreak (th th' : Refresher) : Prop :=
  th'.failures = th.failures ∧ th'.failingSince = th.failingSince ∧
    th'.lastReminder = th.lastReminder ∧ th'.expiryReported = th.expiryReported

/-- The current list has expired. -/
def PodCache.Expired (c : PodCache) : Prop := ∃ r, c.current = some r ∧ c.Refuses r

/-- What holds of the refresher between two steps. -/
structure Telling (c : PodCache) (rounds : List Round) (th : Refresher) : Prop where
  told : Told rounds th.streak
  failures : 0 ≤ th.failures
  /-- an expired list stays expired until there is a new one -/
  expired : th.expiryReported = true → ¬ th.pc.Published → c.Expired
  judged : ∀ error now expired, th.pc = .reporting error now expired →
    (expired = true → c.Expired) ∧ (th.expiryReported = true → expired = true)

/-- **The rounds are told as the locals say.** -/
def RoundsInv (c : PodCache) (rounds : List Round) : Prop :=
  ∀ th, c.refresher = some th → Telling c rounds th

section Rounds

variable {c c' : PodCache} {th : Refresher} {rounds : List Round}

theorem PodCache.Expired.quiet (h : c.Expired) (hq : Quiet c c') (hage : c'.maxAge = c.maxAge)
    (hclock : c.clock ≤ c'.clock) : c'.Expired := by
  obtain ⟨r, hcur, hpos, hold⟩ := h
  refine ⟨r, hq.current.trans hcur, hage ▸ hpos, ?_⟩
  rw [hage, hq.receivedAt]
  unfold PodCache.nowSeconds nsPerSecond at hold ⊢
  omega

/-- The refresher stays where it is. -/
theorem RoundsInv.aside (h : RoundsInv c rounds) (hth : c'.refresher = c.refresher)
    (hq : Quiet c c') (hage : c'.maxAge = c.maxAge) (hclock : c.clock ≤ c'.clock) :
    RoundsInv c' rounds := by
  intro th hth'
  obtain ⟨htold, hfail, hexp, hjudged⟩ := h th (hth ▸ hth')
  refine ⟨htold, hfail, fun hrep hpc => (hexp hrep hpc).quiet hq hage hclock, ?_⟩
  intro error now expired hpc
  obtain ⟨h1, h2⟩ := hjudged error now expired hpc
  exact ⟨fun he => (h1 he).quiet hq hage hclock, h2⟩

/-- The refresher moves on within its round. -/
theorem Telling.onward (h : Telling c rounds th) {th' : Refresher} (hsame : th.SameStreak th')
    (hexp : th'.expiryReported = true → ¬ th'.pc.Published → c'.Expired)
    (hjudged : ∀ error now expired, th'.pc = .reporting error now expired →
      (expired = true → c'.Expired) ∧ (th'.expiryReported = true → expired = true)) :
    Telling c' rounds th' := by
  obtain ⟨h1, h2, h3, h4⟩ := hsame
  refine ⟨?_, h1 ▸ h.failures, hexp, hjudged⟩
  have hst : th'.streak = th.streak := by simp only [Refresher.streak, h1, h2, h3, h4]
  rw [hst]
  exact h.told

theorem RefresherPc.EndsRound.of_reporting {pc : RefresherPc} {error : Text} {now : Int}
    {expired : Bool} (hpc : pc = .reporting error now expired) : pc.EndsRound := by
  rw [hpc]
  trivial

/-- It moves on and the list is the same. -/
theorem Telling.quietly (h : Telling c rounds th) {th' : Refresher} {pc : RefresherPc}
    (hpc : th.pc = pc) (hold : ¬ pc.Published) (hsame : th.SameStreak th')
    (hno : ¬ th'.pc.EndsRound) (hq : Quiet c c') (hage : c'.maxAge = c.maxAge)
    (hclock : c.clock ≤ c'.clock) : Telling c' rounds th' := by
  subst hpc
  refine h.onward hsame (fun he _ => ?_) fun error now expired hpc =>
    absurd (RefresherPc.EndsRound.of_reporting hpc) hno
  exact (h.expired (hsame.2.2.2 ▸ he) hold).quiet hq hage hclock

/-- It has a new list. -/
theorem Telling.published (h : Telling c rounds th) {th' : Refresher} (hsame : th.SameStreak th')
    (hpub : th'.pc.Published) : Telling c' rounds th' := by
  refine h.onward hsame (fun _ hnp => absurd hpub hnp) fun error now expired hpc => ?_
  rw [hpc] at hpub
  exact hpub.elim

/-- A move that does not end the round. -/
theorem RoundsInv.within (hth : c.refresher = some th) (hno : ¬ th.pc.EndsRound)
    {th' : Refresher} (hth' : c'.refresher = some th') (h : Telling c' rounds th') :
    RoundsInv c' (c.roundsAfter .refresher c' rounds) := by
  have hrounds : c.roundsAfter .refresher c' rounds = rounds := by
    unfold PodCache.roundsAfter
    rw [hth]
    dsimp only
    split
    · rename_i hpc
      rw [hpc] at hno
      exact absurd trivial hno
    · rename_i hpc
      exact absurd (RefresherPc.EndsRound.of_reporting hpc) hno
    · rfl
  intro th'' hth''
  obtain rfl := Option.some.inj (hth'.symm.trans hth'')
  rw [hrounds]
  exact h

/-- Where a move leads that does not end the round: behind the swap, or to a place with the same
list, with `is_expired` asked before the report. -/
theorem RefresherMove.within (hmv : RefresherMove c th c') (hno : ¬ th.pc.EndsRound) :
    ∃ th', c'.refresher = some th' ∧ th.SameStreak th' ∧
      (th'.pc.Published ∨
        ¬ th.pc.Published ∧ (∀ receivedAt l, th.pc ≠ .swapping receivedAt l) ∧
          ∀ error now expired, th'.pc = .reporting error now expired →
            expired = c.isExpired.2) := by
  cases hmv with
  | swap hpc => exact ⟨_, rfl, ⟨rfl, rfl, rfl, rfl⟩, Or.inl trivial⟩
  | noPrevious hpc => exact ⟨_, rfl, ⟨rfl, rfl, rfl, rfl⟩, Or.inl trivial⟩
  | dropLast hpc h0 => exact ⟨_, rfl, ⟨rfl, rfl, rfl, rfl⟩, Or.inl trivial⟩
  | drop hpc h0 => exact ⟨_, rfl, ⟨rfl, rfl, rfl, rfl⟩, Or.inl trivial⟩
  | free hpc => exact ⟨_, rfl, ⟨rfl, rfl, rfl, rfl⟩, Or.inl trivial⟩
  | succeed hpc =>
    rw [hpc] at hno
    exact absurd trivial hno
  | report hpc => exact absurd (RefresherPc.EndsRound.of_reporting hpc) hno
  | judge hpc =>
    refine ⟨_, rfl, ⟨rfl, rfl, rfl, rfl⟩, Or.inr ⟨by rw [hpc]; exact id, by simp [hpc], ?_⟩⟩
    exact fun _ _ _ hpc' => (RefresherPc.reporting.inj hpc').2.2.symm
  | _ =>
    refine ⟨_, rfl, ⟨rfl, rfl, rfl, rfl⟩, Or.inr ⟨?_, ?_, ?_⟩⟩
    · rw [‹th.pc = _›]
      exact id
    · simp [‹th.pc = _›]
    · simp

/-- `log_failure` adds its line. -/
theorem CacheInv.logFailure_adds (hi : CacheInv c) (hne : c.NonEmpty) (reason : Text)
    (failingFor : Int) :
    c.logFailure reason failingFor =
      { c with log := c.log ++ [.failure failingFor reason c.verdict] } := by
  obtain ⟨entry, heq⟩ := hi.logFailure_eq reason failingFor
  have hlog := hne.logFailure_log reason failingFor
  rw [heq] at hlog ⊢
  dsimp only at hlog
  rw [hlog]

/-- A failed round whose locals and whose line are those of the reminder. -/
theorem Telling.failed (h : Telling c rounds th) {error : Text} {now : Int} {expired : Bool}
    (hpc : th.pc = .reporting error now expired) {log : List LogEntry} {th' : Refresher}
    (hfail : 0 ≤ th'.failures) (hreported : th'.expiryReported = expired) {deadline : Int}
    (hsleep : th'.pc = .sleeping deadline)
    (hlog : log = [] ∨ ∃ d, log = [.failure d error c.verdict])
    (htold : (Reminder.step failureReminder th.streak ⟨now, expired⟩).2 =
      Round.told ⟨false, now, expired, log⟩)
    (hst : th'.streak = some (Reminder.step failureReminder th.streak ⟨now, expired⟩).1) :
    Telling { c with log := c.log ++ log, refresher := some th' }
      (rounds ++ [⟨false, now, expired, log⟩]) th' := by
  obtain ⟨hexp, hrep⟩ := h.judged error now expired hpc
  refine ⟨?_, hfail, fun he _ => hexp (hreported ▸ he), fun _ _ _ hpc'' => ?_⟩
  · rw [hst]
    refine .failure h.told rfl (fun s hs hu => ?_) ?_ htold.symm
    · unfold Refresher.streak at hs
      split at hs
      · exact absurd hs (by simp)
      · rw [← Option.some.inj hs] at hu
        exact hrep hu
    · rcases hlog with rfl | ⟨d, rfl⟩
      · exact Or.inl rfl
      · -- what is said of an expired list
        exact Or.inr ⟨d, error, c.verdict, rfl, fun he => (verdict_expired_iff c).mpr (hexp he)⟩
  · rw [hsleep] at hpc''
    exact absurd hpc'' (by simp)

/-- The end of a failed round is a step of the reminder. -/
theorem Telling.report (h : Telling c rounds th) (hi : CacheInv c) (hne : c.NonEmpty)
    {error : Text} {now : Int} {expired : Bool} (hpc : th.pc = .reporting error now expired) :
    ∃ log th', c.endFailure th error now expired =
        { c with log := c.log ++ log, refresher := some th' } ∧
      Telling { c with log := c.log ++ log, refresher := some th' }
        (rounds ++ [⟨false, now, expired, log⟩]) th' := by
  have hpos := h.failures
  unfold PodCache.endFailure
  dsimp only
  by_cases h0 : th.failures = 0
  · have hst : th.streak = none := if_pos h0
    rw [if_pos h0, hi.logFailure_adds hne]
    refine ⟨_, _, rfl, h.failed hpc ?_ rfl rfl (Or.inr ⟨0, rfl⟩) ?_ ?_⟩
    · exact Int.le_add_one hpos
    · rw [hst]
      rfl
    · rw [hst]
      exact if_neg (show ¬ th.failures + 1 = 0 by omega)
  · have hst : th.streak = some ⟨th.failingSince, th.lastReminder, th.expiryReported⟩ := if_neg h0
    have hne' : ¬ th.failures + 1 = 0 := by omega
    rw [if_neg h0]
    by_cases hdue : now - th.lastReminder ≥ failureReminder ∨
        expired = true ∧ th.expiryReported = false
    · have hstep : Reminder.step failureReminder th.streak ⟨now, expired⟩ =
          (⟨th.failingSince, now, expired⟩, some (now - th.failingSince)) := by
        rw [hst]
        exact if_pos hdue
      rw [if_pos hdue, hi.logFailure_adds hne]
      refine ⟨_, _, rfl, h.failed hpc ?_ rfl rfl (Or.inr ⟨_, rfl⟩) ?_ ?_⟩
      · exact Int.le_add_one hpos
      · rw [hstep]
        rfl
      · rw [hstep]
        exact if_neg hne'
    · have hstep : Reminder.step failureReminder th.streak ⟨now, expired⟩ =
          (⟨th.failingSince, th.lastReminder, expired⟩, none) := by
        rw [hst]
        exact if_neg hdue
      rw [if_neg hdue]
      refine ⟨[], _, by rw [List.append_nil]; rfl, h.failed hpc ?_ rfl rfl (Or.inl rfl) ?_ ?_⟩
      · exact Int.le_add_one hpos
      · rw [hstep]
        rfl
      · rw [hstep]
        exact if_neg hne'

/-- The end of a successful round ends the streak. -/
theorem Telling.success (h : Telling c rounds th) :
    ∃ th', c.endSuccess th = { c with log := c.log ++ c.logSuccess th, refresher := some th' } ∧
      Telling { c with log := c.log ++ c.logSuccess th, refresher := some th' }
        (rounds ++ [⟨true, c.nowSeconds, false, c.logSuccess th⟩]) th' := by
  refine ⟨_, rfl, ?_, Int.le_refl 0, fun he => absurd he (by simp), fun _ _ _ hpc => absurd hpc (by
    simp)⟩
  have htold := h.told
  by_cases h0 : th.failures = 0
  · rw [Refresher.streak, if_pos h0] at htold
    refine .success htold rfl fun failedFor count hm => ?_
    simp only [PodCache.logSuccess, h0, ne_eq, not_true_eq_false, if_false] at hm
    split at hm
    · simp at hm
    · split at hm <;> simp at hm
  · rw [Refresher.streak, if_neg h0] at htold
    exact .recovery htold rfl ⟨th.count, if_pos h0⟩

/-- **A move of the refresher**: the end of its round, or one that leaves the list as it is or
puts a new one there. -/
theorem Telling.move (h : Telling c rounds th) (hi : CacheInv c) (hne : c.NonEmpty)
    (hth : c.refresher = some th) (hmv : RefresherMove c th c') :
    RoundsInv c' (c.roundsAfter .refresher c' rounds) := by
  by_cases hends : th.pc.EndsRound
  · cases hmv with
    | succeed hpc =>
      obtain ⟨th', heq, htell⟩ := h.success
      intro th'' hth''
      rw [heq] at hth'' ⊢
      obtain rfl : th' = th'' := Option.some.inj hth''
      simpa only [PodCache.roundsAfter, hth, hpc, List.drop_left] using htell
    | report hpc =>
      obtain ⟨log, th', heq, htell⟩ := h.report hi hne hpc
      intro th'' hth''
      rw [heq] at hth'' ⊢
      obtain rfl : th' = th'' := Option.some.inj hth''
      simpa only [PodCache.roundsAfter, hth, hpc, List.drop_left] using htell
    | _ =>
      rw [‹th.pc = _›] at hends
      exact hends.elim
  · obtain ⟨th', hth', hsame, hplace⟩ := hmv.within hends
    refine .within hth hends hth' ?_
    rcases hplace with hpub | ⟨hold, hswap, hjudged⟩
    · exact h.published hsame hpub
    · have hq : Quiet c c' := (hi.refresher_quiet hth hmv).resolve_right
        fun ⟨receivedAt, l, hpc, _⟩ => hswap receivedAt l hpc
      obtain ⟨hf, -⟩ := hi.refresher_frame hmv
      have hkeeps : c.Expired → c'.Expired := (·.quiet hq hf.maxAge hf.clock.ge)
      have hexp : th'.expiryReported = true → c.Expired := fun he =>
        h.expired (hsame.2.2.2 ▸ he) hold
      refine h.onward hsame (fun he _ => hkeeps (hexp he)) fun error now expired hpc => ?_
      obtain rfl := hjudged error now expired hpc
      exact ⟨fun he => hkeeps (hne.isExpired_iff.mp he), fun he => hne.isExpired_iff.mpr (hexp he)⟩

/-- A reader's step is none of the refresher. -/
theorem RoundsInv.reader (h : RoundsInv c rounds) (hi : CacheInv c) {a : CacheAct} {t : Nat}
    (hst : c.step a = some c') (ha : a.OfReader t) : RoundsInv c' rounds := by
  obtain ⟨hq, hf, hth, -⟩ := hi.reader_step ha hst
  exact h.aside hth hq hf.maxAge hf.clock.ge

/-- `pod_cache_stop` detaches the list behind the join. -/
theorem RoundsInv.stop (h : RoundsInv c rounds) (hr : c.Reachable) (hmv : StopMove c c') :
    RoundsInv c' rounds := by
  have hsame : c'.maxAge = c.maxAge ∧ c'.clock = c.clock := by cases hmv <;> exact ⟨rfl, rfl⟩
  obtain ⟨-, hth | hnone, -⟩ := hmv.frame
  · rcases hmv.quiet with hq | ⟨hs, rfl⟩
    · exact h.aside hth hq hsame.1 hsame.2.ge
    · have hnone : c.refresher = none := by
        have hplace := hr.books.place
        rw [hs] at hplace
        simpa [hr.inv.running] using hplace.1
      exact fun th hth => absurd (hnone.symm.trans hth) (by simp)
  · exact fun th hth => absurd (hnone.symm.trans hth) (by simp)

/-- `pod_cache_start` leaves the refresher alone, or creates one that has told nothing yet. -/
theorem RoundsInv.start (h : RoundsInv c rounds) (hi : CacheInv c) {clientOk threadOk ok : Bool}
    (hmv : StartMove c clientOk threadOk c' ok) :
    RoundsInv c' (c.roundsAfter (.start clientOk threadOk) c' rounds) := by
  cases hmv with
  | running hrun =>
    have hsome : c.refresher.isSome = true := hi.running ▸ hrun
    obtain ⟨th, hth⟩ := Option.isSome_iff_exists.mp hsome
    simpa only [PodCache.roundsAfter, hth] using h
  | noClient hrun =>
    have hnone : c.refresher = none := by simpa [hi.running] using hrun
    exact fun th hth => absurd (hnone.symm.trans hth) (by simp)
  | noThread hrun =>
    have hnone : c.refresher = none := by simpa [hi.running] using hrun
    exact fun th hth => absurd (hnone.symm.trans hth) (by simp)
  | started hrun =>
    have hnone : c.refresher = none := by simpa [hi.running] using hrun
    intro th hth
    obtain rfl := Option.some.inj hth
    simp only [PodCache.roundsAfter, hnone]
    exact ⟨.start, Int.le_refl 0, fun he => absurd he (by simp [Refresher.create]),
      fun _ _ _ hpc => absurd hpc (by simp [Refresher.create])⟩

/-- **Every step keeps the telling.** -/
theorem RoundsInv.step (h : RoundsInv c rounds) (hr : c.Reachable) {a : CacheAct}
    (hst : c.step a = some c') : RoundsInv c' (c.roundsAfter a c' rounds) := by
  have hi := hr.inv
  have hmove := hi.move_of_step hst
  cases a with
  | tick ns =>
    cases hmove with
    | tick =>
      refine h.aside rfl (Quiet.same rfl rfl rfl) rfl ?_
      exact Int.le_add_of_nonneg_right (Int.natCast_nonneg ns)
  | closingReset =>
    cases hmove with
    | closingReset => exact h.aside rfl (Quiet.same rfl rfl rfl) rfl (le_refl _)
  | closingBegin =>
    cases hmove with
    | closingBegin => exact h.aside rfl (Quiet.same rfl rfl rfl) rfl (le_refl _)
  | spawnReader =>
    cases hmove with
    | spawnReader => exact h.aside rfl (Quiet.same rfl rfl rfl) rfl (le_refl _)
  | start clientOk threadOk =>
    cases hmove with
    | start hs hmv => exact h.start hi hmv
  | stop =>
    cases hmove with
    | stop hmv => exact h.stop hr hmv
  | acquire t => exact h.reader hi hst (t := t) rfl
  | read t => exact h.reader hi hst (t := t) rfl
  | release t => exact h.reader hi hst (t := t) rfl
  | free t => exact h.reader hi hst (t := t) rfl
  | refresher =>
    cases hmove with
    | refresher hth hmv => exact (h _ hth).move hi hr.nonEmpty hth hmv
  | fetchEnds a =>
    cases hmove with
    | @fetched th startedAt a ips hth hpc hok =>
      rintro th' hth'
      obtain rfl := Option.some.inj hth'
      exact (h th hth).quietly hpc id ⟨rfl, rfl, rfl, rfl⟩ id (Quiet.fetched c _ _) rfl (le_refl _)
    | @fetchFailed th startedAt a error hth hpc hno =>
      rintro th' hth'
      obtain rfl := Option.some.inj hth'
      exact (h th hth).quietly hpc id ⟨rfl, rfl, rfl, rfl⟩ id (.same rfl rfl rfl) rfl (le_refl _)
  | publishAlloc ok =>
    cases hmove with
    | @allocated th l hth hpc =>
      rintro th' hth'
      obtain rfl := Option.some.inj hth'
      exact (h th hth).quietly hpc id ⟨rfl, rfl, rfl, rfl⟩ id (.same rfl rfl rfl) rfl (le_refl _)
    | @outOfMemory th l hth hpc =>
      rintro th' hth'
      obtain rfl := Option.some.inj hth'
      exact (h th hth).quietly hpc id ⟨rfl, rfl, rfl, rfl⟩ id (.discarded rfl rfl rfl) rfl
        (le_refl _)

/-- Behind the join of the refresher its rounds stay as they were. -/
theorem CacheInv.rounds_kept (hi : CacheInv c) {a : CacheAct} (hst : c.step a = some c')
    (hth' : c'.refresher = none) (rounds : List Round) :
    c.roundsAfter a c' rounds = rounds ∨ c.roundsAfter a c' rounds = [] := by
  cases hth : c.refresher with
  | none =>
    cases a with
    | start clientOk threadOk => exact Or.inr (by simp only [PodCache.roundsAfter, hth])
    | _ => exact Or.inl (by simp only [PodCache.roundsAfter, hth])
  | some th =>
    cases hi.move_of_step hst with
    | refresher hth₁ hmv =>
      obtain ⟨-, -, th', hth₂, -⟩ := hi.refresher_frame hmv
      exact absurd (hth'.symm.trans hth₂) (by simp)
    | start hs hmv => exact Or.inl (by simp only [PodCache.roundsAfter, hth])
    | _ => exact Or.inl rfl

/-- **The rounds of a run are told.** -/
theorem rounds_told {e : Environ} {clock : Int}
    (hr : Lts.Run PodCache.roundStep Lts.free (PodCache.init e clock, []) (c, rounds)) :
    ∃ st, Told rounds st := by
  have hall : c.Reachable ∧ RoundsInv c rounds ∧ ∃ st, Told rounds st := by
    refine hr.invariant (I := fun x => x.1.Reachable ∧ RoundsInv x.1 x.2 ∧ ∃ st, Told x.2 st)
      ⟨Lts.Reachable.of_init ⟨e, clock, rfl⟩, fun th hth => absurd hth (by simp [PodCache.init]),
        none, .start⟩ ?_
    rintro ⟨d, l⟩ a x ⟨hd, hi, st, htold⟩ - hst
    obtain ⟨d', hd', rfl⟩ := Option.map_eq_some_iff.mp hst
    have hi' := hi.step hd hd'
    have htold' : ∃ st, Told (d.roundsAfter a d' l) st := by
      cases hth' : d'.refresher with
      | some th' => exact ⟨_, (hi' th' hth').told⟩
      | none =>
        rcases hd.inv.rounds_kept hd' hth' l with heq | heq
        · rw [heq]
          exact ⟨st, htold⟩
        · rw [heq]
          exact ⟨none, .start⟩
    exact ⟨hd.next hd', hi', htold'⟩
  exact hall.2.2

end Rounds

/-! ## 3. Streaks -/

section Streaks

variable {rounds pre streak post : List Round} {r : Round} {st : Option Reminder.State}

/-- The last round, and what was told before it. -/
theorem Told.last (h : Told (rounds ++ [r]) st) : ∃ st₀, Told rounds st₀ ∧
    (r.ok = true ∧ st = none ∧ (st₀ = none → r.NoRecovery) ∧
        (∀ s, st₀ = some s → ∃ count, r.log = [.recovered (r.now - s.since) count]) ∨
      r.ok = false ∧ r.SaysFailure ∧
        (∀ s, st₀ = some s → s.urgent = true → r.expired = true) ∧
        r.told = (Reminder.step failureReminder st₀ ⟨r.now, r.expired⟩).2 ∧
        st = some (Reminder.step failureReminder st₀ ⟨r.now, r.expired⟩).1) := by
  generalize hl : rounds ++ [r] = l at h
  cases h with
  | start => exact absurd hl (by simp)
  | success h hok hlog =>
    obtain ⟨rfl, hr⟩ := List.append_inj' hl rfl
    obtain rfl := List.singleton_inj.mp hr
    exact ⟨none, h, Or.inl ⟨hok, rfl, fun _ => hlog, fun s hs => absurd hs (by simp)⟩⟩
  | @recovery _ s _ h hok hlog =>
    obtain ⟨rfl, hr⟩ := List.append_inj' hl rfl
    obtain rfl := List.singleton_inj.mp hr
    refine ⟨some s, h, Or.inl ⟨hok, rfl, fun hs => absurd hs (by simp), fun s' hs => ?_⟩⟩
    rwa [← Option.some.inj hs]
  | @failure _ st₀ _ h hfail hstays htext htold =>
    obtain ⟨rfl, hr⟩ := List.append_inj' hl rfl
    obtain rfl := List.singleton_inj.mp hr
    exact ⟨st₀, h, Or.inr ⟨hfail, htext, hstays, htold, rfl⟩⟩

/-- What was told of the rounds before. -/
theorem Told.before (h : Told (pre ++ post) st) : ∃ st₀, Told pre st₀ := by
  induction post using List.reverseRecOn generalizing st with
  | nil => exact ⟨st, by simpa using h⟩
  | append_singleton post r ih =>
    rw [← List.append_assoc] at h
    obtain ⟨st₀, h₀, -⟩ := h.last
    exact ih h₀

/-- Behind a success no streak is going on. -/
theorem Told.calm (h : Told rounds st) (hlast : ∀ q, rounds.getLast? = some q → q.ok = true) :
    st = none := by
  cases h with
  | start => rfl
  | success h hok hlog => rfl
  | recovery h hok hlog => rfl
  | failure h hfail hstays htext htold =>
    have hok := hlast _ List.getLast?_concat
    rw [hfail] at hok
    exact absurd hok (by simp)

/-- **A streak is one of the reminder.** -/
theorem Told.isStreak (hcalm : ∀ q, pre.getLast? = some q → q.ok = true) (hne : streak ≠ [])
    (hfail : ∀ r ∈ streak, r.ok = false) (h : Told (pre ++ streak) st) :
    ∃ s, st = some s ∧ Reminder.Streak failureReminder (streak.map Round.entry) s ∧
      ∀ r ∈ streak, r.SaysFailure := by
  induction streak using List.reverseRecOn generalizing st with
  | nil => exact absurd rfl hne
  | append_singleton l r ih =>
    rw [← List.append_assoc] at h
    obtain ⟨st₀, h₀, ⟨hok, -⟩ | ⟨-, htext, hstays, htold, hst⟩⟩ := h.last
    · rw [hfail r (by simp)] at hok
      exact absurd hok (by simp)
    refine ⟨_, hst, ?_⟩
    have hentry : r.entry =
        (⟨r.now, r.expired⟩, (Reminder.step failureReminder st₀ ⟨r.now, r.expired⟩).2) := by
      rw [Round.entry, htold]
    rw [List.map_append, List.map_singleton, hentry]
    by_cases hl : l = []
    · -- the first failure
      subst hl
      rw [List.append_nil] at h₀
      obtain rfl := h₀.calm hcalm
      refine ⟨.first _, fun q hq => ?_⟩
      obtain rfl : q = r := by simpa using hq
      exact htext
    · obtain ⟨s, rfl, hs, hall⟩ := ih hl (fun q hq => hfail q (List.mem_append_left _ hq)) h₀
      refine ⟨.next hs (hstays s rfl), fun q hq => ?_⟩
      rcases List.mem_append.mp hq with hq | hq
      · exact hall q hq
      · obtain rfl : q = r := by simpa using hq
        exact htext

end Streaks

/-- **Failures are reported** when they start, once in `FAILURE_REMINDER` seconds, and when
announcing stops; and the success behind them is. -/
theorem failures_reported (e : Environ) (clock : Int) (c : PodCache) (rounds : List Round)
    (hr : Lts.Run PodCache.roundStep Lts.free (PodCache.init e clock, []) (c, rounds)) :
    (∀ pre streak post, rounds = pre ++ streak ++ post → streak ≠ [] →
      (∀ r ∈ streak, r.ok = false) → (∀ q, pre.getLast? = some q → q.ok = true) →
      (∀ q, post.head? = some q → q.ok = true) →
        (∀ r ∈ streak, r.SaysFailure) ∧
        Reminder.Reported failureReminder (streak.map Round.entry) ∧
        (∀ i j i' j', Reminder.TooClose failureReminder (streak.map Round.entry) i j →
          Reminder.TurnsUrgent (streak.map Round.entry) j ∧
            (Reminder.TooClose failureReminder (streak.map Round.entry) i' j' → i = i' ∧ j = j')) ∧
        ∀ first q, streak.head? = some first → post.head? = some q →
          ∃ count, q.log = [.recovered (q.now - first.now) count]) ∧
    ∀ pre r post, rounds = pre ++ r :: post → r.ok = true →
      (∀ q, pre.getLast? = some q → q.ok = true) → r.NoRecovery := by
  obtain ⟨st, htold⟩ := rounds_told hr
  constructor
  · rintro pre streak post rfl hne hfail hpre hpost
    obtain ⟨st₁, h₁⟩ := htold.before
    obtain ⟨s, rfl, hs, htext⟩ := Told.isStreak hpre hne hfail h₁
    have hrep := hs.reported
    refine ⟨htext, hrep, fun i j i' j' hclose => hrep.tooClose hclose, fun first q hfirst hq => ?_⟩
    -- the round behind the streak
    obtain ⟨post', rfl⟩ := List.head?_eq_some_iff.mp hq
    have hsplit : pre ++ streak ++ q :: post' = pre ++ streak ++ [q] ++ post' := by simp
    rw [hsplit] at htold
    obtain ⟨st₂, h₂⟩ := htold.before
    obtain ⟨st₃, h₃, ⟨-, -, -, hrec⟩ | ⟨hno, -⟩⟩ := h₂.last
    · obtain ⟨s', rfl, hs', -⟩ := Told.isStreak hpre hne hfail h₃
      obtain ⟨x, hx, hsince⟩ := hs'.kept.since
      rw [List.getElem?_map, ← List.head?_eq_getElem?, hfirst, Option.map_some,
        Option.some.injEq] at hx
      rw [← hx] at hsince
      obtain ⟨count, hlog⟩ := hrec s' rfl
      exact ⟨count, by rw [hlog, hsince]; rfl⟩
    · rw [hpost q hq] at hno
      exact absurd hno (by simp)
  · rintro pre r post rfl hok hpre
    have hsplit : pre ++ r :: post = pre ++ [r] ++ post := by simp
    rw [hsplit] at htold
    obtain ⟨st₂, h₂⟩ := htold.before
    obtain ⟨st₃, h₃, ⟨-, -, hquiet, -⟩ | ⟨hno, -⟩⟩ := h₂.last
    · exact hquiet (h₃.calm hpre)
    · rw [hok] at hno
      exact absurd hno (by simp)

/-- A failed round of the refresher, and the sleep behind it. -/
def failedRound (ns : Nat) : List CacheAct :=
  [.refresher, .fetchEnds (onePod none), .refresher, .refresher, .refresher, .refresher, .tick ns,
    .refresher]

/-- A round that publishes one pod, and the sleep behind it. -/
def publishedRound (ns : Nat) : List CacheAct :=
  [.refresher, .fetchEnds (onePod (some (ascii "prod"))), .refresher, .publishAlloc true,
    .refresher, .refresher, .refresher, .tick ns, .refresher]

/-- A list of 0 s with a maximal age of 30 s, and failures at 5, 35 and 60 s: the second one finds
it expired and is reported before its time. -/
theorem failures_reported_ageThirty :
    ∃ first second third q : Round,
      [first, second, third].map Round.told = [some 0, some 30, none] ∧
      (∀ r ∈ [first, second, third], r.SaysFailure) ∧
      Reminder.Reported failureReminder ([first, second, third].map Round.entry) ∧
      ∃ count, q.log = [.recovered (q.now - first.now) count] := by
  have hview : (Lts.exec PodCache.roundStep
      (PodCache.init { podsMaxAge := some ⟨ascii "30", by decide⟩ } 0, [])
      (.start true true :: (publishedRound 5000000000 ++ failedRound 30000000000 ++
        failedRound 25000000000 ++ failedRound 30000000000 ++ publishedRound 5000000000))).map
          (fun x => x.2.map fun r => (r.ok, r.told)) =
      some [(true, none), (false, some 0), (false, some 30), (false, none), (true, none)] := rfl
  obtain ⟨⟨c, rounds⟩, hs, hmap⟩ := Option.map_eq_some_iff.mp hview
  obtain ⟨good, l₁, rfl, hgood, h₁⟩ := List.map_eq_cons_iff.mp hmap
  obtain ⟨first, l₂, rfl, hfirst, h₂⟩ := List.map_eq_cons_iff.mp h₁
  obtain ⟨second, l₃, rfl, hsecond, h₃⟩ := List.map_eq_cons_iff.mp h₂
  obtain ⟨third, l₄, rfl, hthird, h₄⟩ := List.map_eq_cons_iff.mp h₃
  obtain ⟨q, l₅, rfl, hq, h₅⟩ := List.map_eq_cons_iff.mp h₄
  simp only [Prod.mk.injEq] at hgood hfirst hsecond hthird hq
  obtain ⟨htext, hrep, -, hrec⟩ := (failures_reported _ _ c _ (Lts.run_of_exec hs)).1
    [good] [first, second, third] (q :: l₅) rfl (by simp) (by simp [hfirst, hsecond, hthird])
    (by simp [hgood]) (by simp [hq])
  exact ⟨first, second, third, q, by simp [hfirst, hsecond, hthird], htext, hrep,
    hrec first q rfl rfl⟩

end Unicaster
