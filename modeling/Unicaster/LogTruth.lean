/-
# What the log says is so

An operator sees of the pod list only the lines `refresh_pods` logs.  A line is about the answer
of the round that logs it: `Explains` is what a reason may say about an answer, and `Tells` what a
line may.  `LogInv` carries the answer of the round in progress as the one that nothing is said
about yet.

A round may also end without a line: a failure between two reminders, a success with as many pods
as the last one, a request that ended behind the closing flag.  So the lines are about some of the
answers, in their order; and the count in the last line that has one stays that of the current
list, because a success is silent only when its count was told before.
-/
import Unicaster.Reports
import Unicaster.Lib.Lists

namespace Unicaster

open CLib

/-! ## 1. What a line says -/

/-- The reason given for a failed round: the error of `pod_list_fetch`, or that of what was done
with the list it returned. -/
def Explains (env : Option CString) (a : Answer) (reason : Text) : Prop :=
  (podListFetch env a).list = .error reason ∨
  (podListFetch env a).list = .ok [] ∧
    reason = snprintf errorSize (ascii "the API listed no pod with an IPv4 address") ∨
  (∃ ips, a.Good env ips) ∧ reason = snprintf errorSize (ascii "out of memory")

/-- The number of pods a success was reported with is that of a good answer. -/
def Counts (env : Option CString) (a : Answer) (count : Int) : Prop :=
  ∃ ips, (podListFetch env a).list = .ok ips ∧ a.Good env ips ∧ count = ips.length

/-- A line is true of an answer. -/
def Tells (env : Option CString) (a : Answer) : LogEntry → Prop
  | .recovered _ count => Counts env a count
  | .announcing count => Counts env a count
  | .countChanged count => Counts env a count
  | .failure _ reason _ => Explains env a reason

/-- The number of pods a line says are announced to. -/
def LogEntry.count : LogEntry → Option Int
  | .recovered _ count => some count
  | .announcing count => some count
  | .countChanged count => some count
  | .failure _ _ (.stillAnnouncing count _) => some count
  | .failure _ _ _ => none

/-- The last such number in the log. -/
def toldCount (log : List LogEntry) : Option Int := (log.filterMap LogEntry.count).getLast?

/-- Where the count is said to have changed, another one was told before. -/
def ChangesTrue (log : List LogEntry) : Prop :=
  ∀ pre n post, log = pre ++ .countChanged n :: post → ∃ m, toldCount pre = some m ∧ m ≠ n

/-- The answers among the actions of a run. -/
def CacheAct.answer : CacheAct → Option Answer
  | .fetchEnds a => some a
  | _ => none

section Lines

variable {log : List LogEntry} {line : LogEntry}

theorem toldCount_concat (log : List LogEntry) (line : LogEntry) :
    toldCount (log ++ [line]) = line.count.or (toldCount log) := by
  unfold toldCount
  rw [List.filterMap_append, List.getLast?_append]
  cases hc : line.count with
  | none => simp [hc]
  | some n => simp [hc]

theorem ChangesTrue.nil : ChangesTrue [] := by
  intro pre n post heq
  exact absurd heq (by simp)

theorem ChangesTrue.concat (h : ChangesTrue log)
    (hline : ∀ n, line = .countChanged n → ∃ m, toldCount log = some m ∧ m ≠ n) :
    ChangesTrue (log ++ [line]) := by
  intro pre n post heq
  rcases List.eq_nil_or_concat post with rfl | ⟨post', last, rfl⟩
  · obtain ⟨rfl, hlast⟩ := List.append_inj' heq rfl
    exact hline n (List.cons.inj hlast).1
  · rw [List.concat_eq_append, ← List.cons_append, ← List.append_assoc] at heq
    obtain ⟨rfl, -⟩ := List.append_inj' heq rfl
    exact h pre n post' rfl

end Lines

/-! ## 2. The round in progress -/

/-- The round has its answer and has not ended. -/
def RefresherPc.inRound : RefresherPc → Bool
  | .check => false
  | .fetching _ => false
  | .sleeping _ => false
  | .exited => false
  | _ => true

namespace PodCache

variable (c : PodCache)

/-- The answer of the round in progress. -/
def unreported : Option Answer :=
  c.refresher.bind fun th => if th.pc.inRound then th.answer else none

/-- The addresses of the current list. -/
def listed : Option (List Text) := c.view.map fun v => v.2.2

end PodCache

/-- The reason of a failed round is that of its answer. -/
def Refresher.HasReason (c : PodCache) (th : Refresher) (reason : Text) : Prop :=
  ∃ a, th.answer = some a ∧ Explains c.environ.deploymentEnv a reason

/-- The list of the round is the current one, and it has been counted. -/
def Refresher.HasCount (c : PodCache) (th : Refresher) : Prop :=
  ∃ a ips, th.answer = some a ∧ c.listed = some ips ∧ th.count = ips.length ∧
    Counts c.environ.deploymentEnv a th.count

/-- What the refresher is about to say: the reason of a failed round, or the number of pods of the
list in its hands. -/
def Refresher.Truthful (c : PodCache) (th : Refresher) : Prop :=
  match th.pc with
  | .fetched pods error => pods = none → th.HasReason c error
  | .publishing l => th.count = (c.lists l).ips.length
  | .swapping _ l => th.count = (c.lists l).ips.length
  | .releasing _ => th.HasCount c
  | .freeing _ => th.HasCount c
  | .succeeded => th.HasCount c
  | .failed error => th.HasReason c error
  | .judging error _ => th.HasReason c error
  | .reporting error _ _ => th.HasReason c error
  | _ => True

/-- **What holds of the log and of the round in progress.** -/
structure LogInv (answers : List Answer) (c : PodCache) : Prop where
  told : List.InOrder (Tells c.environ.deploymentEnv) answers c.unreported c.log
  truthful : ∀ th, c.refresher = some th → th.Truthful c
  /-- from the swap to the end of the round the list is newer than the log -/
  counted : ∀ ips, c.listed = some ips →
    (∀ th, c.refresher = some th → ¬ th.pc.Published) → toldCount c.log = some ↑ips.length
  lastCount : ∀ th, c.refresher = some th → th.lastCount ≠ 0 → toldCount c.log = some th.lastCount
  changes : ChangesTrue c.log

section Steps

variable {c c' : PodCache} {th th' : Refresher} {answers : List Answer}

theorem CacheInv.listed_quiet (hi : CacheInv c) (hq : Quiet c c') : c'.listed = c.listed := by
  unfold PodCache.listed
  rw [hi.view_quiet hq]

theorem PodCache.unreported_of_pc (hth : c.refresher = some th) (hin : th.pc.inRound = true) :
    c.unreported = th.answer := by
  rw [PodCache.unreported, hth, Option.bind_some, if_pos hin]

theorem PodCache.unreported_none (hth : c.refresher = some th) (hin : th.pc.inRound = false) :
    c.unreported = none := by
  rw [PodCache.unreported, hth, Option.bind_some, hin]
  rfl

/-- A quiet step leaves what is about to be said true. -/
theorem Refresher.Truthful.quiet (h : th.Truthful c) (hi : CacheInv c)
    (hth : c.refresher = some th) (hq : Quiet c c') : th.Truthful c' := by
  have hlisted := hi.listed_quiet hq
  have hflight : ∀ l, th.pc.inFlight = some l → (c'.lists l).ips = (c.lists l).ips := by
    intro l hl
    exact hq.ips l (hi.carried_live hth hl).1
  unfold Refresher.Truthful at h ⊢
  unfold Refresher.HasReason Refresher.HasCount at h ⊢
  rw [hlisted, hq.environ]
  cases hpc : th.pc with
  | publishing l =>
    rw [hpc] at h hflight
    show th.count = ((c'.lists l).ips.length : Int)
    rw [hflight l rfl]
    exact h
  | swapping receivedAt l =>
    rw [hpc] at h hflight
    show th.count = ((c'.lists l).ips.length : Int)
    rw [hflight l rfl]
    exact h
  | _ =>
    rw [hpc] at h
    exact h

/-- A step of somebody else. -/
theorem LogInv.aside (h : LogInv answers c) (hi : CacheInv c) (hth : c'.refresher = c.refresher)
    (hlog : c'.log = c.log) (hq : Quiet c c') : LogInv answers c' := by
  have hun : c'.unreported = c.unreported := by
    unfold PodCache.unreported
    rw [hth]
  constructor
  · rw [hun, hlog, hq.environ]
    exact h.told
  · intro th hs
    rw [hth] at hs
    exact (h.truthful th hs).quiet hi hs hq
  · intro ips hl
    rw [hi.listed_quiet hq] at hl
    rw [hth, hlog]
    exact h.counted ips hl
  · rw [hth, hlog]
    exact h.lastCount
  · rw [hlog]
    exact h.changes

/-- A step of the refresher within its round. -/
theorem LogInv.onward (h : LogInv answers c) (hth : c.refresher = some th)
    (hth' : c'.refresher = some th') (henv : c'.environ = c.environ) (hlog : c'.log = c.log)
    (hlast : th'.lastCount = th.lastCount)
    (hun : c'.unreported = c.unreported ∨ c'.unreported = none)
    (hlist : c'.listed = c.listed ∧ ¬ th.pc.Published ∨ th'.pc.Published)
    (htrue : th'.Truthful c') : LogInv answers c' := by
  constructor
  · rw [hlog, henv]
    rcases hun with hun | hun
    · rw [hun]
      exact h.told
    · rw [hun]
      exact h.told.pass
  · intro th₁ hs
    obtain rfl := Option.some.inj (hth'.symm.trans hs)
    exact htrue
  · intro ips hl hpub
    rcases hlist with ⟨hsame, hold⟩ | hnew
    · rw [hsame] at hl
      rw [hlog]
      refine h.counted ips hl fun th₁ hs => ?_
      obtain rfl := Option.some.inj (hth.symm.trans hs)
      exact hold
    · exact absurd hnew (hpub th' hth')
  · intro th₁ hs hne
    obtain rfl := Option.some.inj (hth'.symm.trans hs)
    rw [hlast] at hne ⊢
    rw [hlog]
    exact h.lastCount th hth hne
  · rw [hlog]
    exact h.changes

/-- A move within a failed round, or out of the loop. -/
theorem LogInv.saying (h : LogInv answers c) (hi : CacheInv c) (hth : c.refresher = some th)
    (hq : Quiet c c') (hth' : c'.refresher = some th') (hlog : c'.log = c.log)
    (hlast : th'.lastCount = th.lastCount) (hold : ¬ th.pc.Published)
    (hans : th'.answer = th.answer ∧ th.pc.inRound = true ∨ th'.pc.inRound = false)
    (htrue : th'.Truthful c') : LogInv answers c' := by
  refine h.onward hth hth' hq.environ hlog hlast ?_ (Or.inl ⟨hi.listed_quiet hq, hold⟩) htrue
  cases hin : th'.pc.inRound with
  | false => exact Or.inr (PodCache.unreported_none hth' hin)
  | true =>
    rcases hans with ⟨hans, hround⟩ | hno
    · refine Or.inl ?_
      rw [PodCache.unreported_of_pc hth' hin, PodCache.unreported_of_pc hth hround, hans]
    · exact absurd (hno.symm.trans hin) (by simp)

/-- A move behind the swap, where the list is the current one. -/
theorem LogInv.counting (h : LogInv answers c) (hth : c.refresher = some th)
    (henv : c'.environ = c.environ) (hth' : c'.refresher = some th') (hlog : c'.log = c.log)
    (hlast : th'.lastCount = th.lastCount) (hans : th'.answer = th.answer)
    (hround : th.pc.inRound = true) (hround' : th'.pc.inRound = true) (hpub : th'.pc.Published)
    (hcount : th'.HasCount c') : LogInv answers c' := by
  refine h.onward hth hth' henv hlog hlast (Or.inl ?_) (Or.inr hpub) ?_
  · rw [PodCache.unreported_of_pc hth' hround', PodCache.unreported_of_pc hth hround, hans]
  · unfold Refresher.Truthful
    revert hpub
    cases th'.pc with
    | releasing previous => exact fun _ => hcount
    | freeing previous => exact fun _ => hcount
    | succeeded => exact fun _ => hcount
    | _ => exact False.elim

theorem Refresher.HasCount.quiet (h : th.HasCount c) (hi : CacheInv c) (hq : Quiet c c')
    (hans : th'.answer = th.answer) (hcount : th'.count = th.count) : th'.HasCount c' := by
  obtain ⟨a, ips, ha, hl, hn, hc⟩ := h
  rw [← hcount] at hn hc
  exact ⟨a, ips, hans.trans ha, (hi.listed_quiet hq).trans hl, hn, hq.environ ▸ hc⟩

/-- The list that is swapped in has been counted. -/
theorem LogInv.hasCount_swap (h : LogInv answers c) (hh : HistoryInv c)
    (hth : c.refresher = some th) {receivedAt : Int} {l : Nat}
    (hpc : th.pc = .swapping receivedAt l) :
    Refresher.HasCount (c.swap th receivedAt l) { th with pc := .releasing c.current } := by
  obtain ⟨a, ips, ha, hok, hips, hne⟩ := hh.answered th l hth (by rw [hpc]; rfl)
  have hgood : a.Good c.environ.deploymentEnv ips :=
    podListFetch_good hok (hne fun pods error => by rw [hpc]; simp)
  have hcount : th.count = (c.lists l).ips.length := by
    have htrue := h.truthful th hth
    unfold Refresher.Truthful at htrue
    rwa [hpc] at htrue
  rw [hips] at hcount
  refine ⟨a, ips, ha, ?_, hcount, ips, hok, hgood, hcount⟩
  unfold PodCache.listed
  rw [view_swap, hips]
  rfl

theorem LogInv.truth (h : LogInv answers c) (hth : c.refresher = some th) {pc : RefresherPc}
    (hpc : th.pc = pc) : Refresher.Truthful c { th with pc := pc } := by
  have htrue := h.truthful th hth
  subst hpc
  exact htrue

/-- **A move that does not end the round.** -/
theorem LogInv.within (h : LogInv answers c) (hi : CacheInv c) (hh : HistoryInv c)
    (hth : c.refresher = some th) (hmv : RefresherMove c th c') (hno : ¬ th.pc.EndsRound) :
    LogInv answers c' := by
  have hquiet := hi.refresher_quiet hth hmv
  -- every move but the swap is a quiet one
  have hq : (∀ receivedAt l, th.pc ≠ .swapping receivedAt l) → Quiet c c' := by
    intro hns
    exact hquiet.resolve_right fun ⟨receivedAt, l, hpc, _⟩ => hns receivedAt l hpc
  cases hmv with
  | noList hpc hcl =>
    refine h.saying hi hth (hq (by simp [hpc])) rfl rfl rfl (by rw [hpc]; exact id)
      (Or.inl ⟨rfl, by rw [hpc]; rfl⟩) ?_
    exact h.truth hth hpc rfl
  | @empty l error hpc hcl hips =>
    refine h.saying hi hth (hq (by simp [hpc])) rfl rfl rfl (by rw [hpc]; exact id)
      (Or.inl ⟨rfl, by rw [hpc]; rfl⟩) ?_
    obtain ⟨a, ips, ha, hok, heq, -⟩ := hh.answered th l hth (by rw [hpc]; rfl)
    rw [hips] at heq
    exact ⟨a, ha, Or.inr (Or.inl ⟨heq ▸ hok, rfl⟩)⟩
  | offer hpc hcl hips =>
    exact h.saying hi hth (hq (by simp [hpc])) rfl rfl rfl (by rw [hpc]; exact id)
      (Or.inl ⟨rfl, by rw [hpc]; rfl⟩) rfl
  | swap hpc =>
    exact h.counting hth rfl rfl rfl rfl rfl (by rw [hpc]; rfl) rfl trivial
      (h.hasCount_swap hh hth hpc)
  | noPrevious hpc =>
    have hcount : th.HasCount c := h.truth hth hpc
    exact h.counting hth rfl rfl rfl rfl rfl (by rw [hpc]; rfl) rfl trivial
      (hcount.quiet hi (hq (by simp [hpc])) rfl rfl)
  | dropLast hpc h0 =>
    have hcount : th.HasCount c := h.truth hth hpc
    exact h.counting hth rfl rfl rfl rfl rfl (by rw [hpc]; rfl) rfl trivial
      (hcount.quiet hi (hq (by simp [hpc])) rfl rfl)
  | drop hpc h0 =>
    have hcount : th.HasCount c := h.truth hth hpc
    exact h.counting hth rfl rfl rfl rfl rfl (by rw [hpc]; rfl) rfl trivial
      (hcount.quiet hi (hq (by simp [hpc])) rfl rfl)
  | free hpc =>
    have hcount : th.HasCount c := h.truth hth hpc
    exact h.counting hth rfl rfl rfl rfl rfl (by rw [hpc]; rfl) rfl trivial
      (hcount.quiet hi (hq (by simp [hpc])) rfl rfl)
  | fail hpc =>
    refine h.saying hi hth (hq (by simp [hpc])) rfl rfl rfl (by rw [hpc]; exact id)
      (Or.inl ⟨rfl, by rw [hpc]; rfl⟩) ?_
    exact h.truth hth hpc
  | judge hpc =>
    refine h.saying hi hth (hq (by simp [hpc])) rfl rfl rfl (by rw [hpc]; exact id)
      (Or.inl ⟨rfl, by rw [hpc]; rfl⟩) ?_
    exact h.truth hth hpc
  | succeed hpc =>
    rw [hpc] at hno
    exact absurd trivial hno
  | report hpc => exact absurd (RefresherPc.EndsRound.of_reporting hpc) hno
  | _ =>
    -- out of the loop, or to its head
    exact h.saying hi hth (hq (by simp [‹th.pc = _›])) rfl rfl rfl (by rw [‹th.pc = _›]; exact id)
      (Or.inr rfl) trivial

/-! ## 3. The end of a round -/

/-- What a success logs: nothing where the count was told before, and otherwise one line with it. -/
theorem logSuccess_cases (c : PodCache) (th : Refresher) :
    (c.logSuccess th = [] ∧ th.lastCount ≠ 0 ∧ th.count = th.lastCount) ∨
    ∃ line, c.logSuccess th = [line] ∧ line.count = some th.count ∧
      (∀ env a, Counts env a th.count → Tells env a line) ∧
      ∀ n, line = .countChanged n → th.lastCount ≠ 0 ∧ n ≠ th.lastCount := by
  unfold PodCache.logSuccess
  split
  · exact Or.inr ⟨_, rfl, rfl, fun _ _ hc => hc, fun n hn => absurd hn (by simp)⟩
  · split
    · exact Or.inr ⟨_, rfl, rfl, fun _ _ hc => hc, fun n hn => absurd hn (by simp)⟩
    · rename_i hlast
      split
      · rename_i hne
        refine Or.inr ⟨_, rfl, rfl, fun _ _ hc => hc, fun n hn => ?_⟩
        obtain rfl := LogEntry.countChanged.inj hn
        exact ⟨hlast, hne⟩
      · rename_i heq
        exact Or.inl ⟨rfl, hlast, not_not.mp heq⟩

/-- The end of a successful round. -/
theorem LogInv.success (h : LogInv answers c) (hth : c.refresher = some th)
    (hpc : th.pc = .succeeded) : LogInv answers (c.endSuccess th) := by
  obtain ⟨a, ips, ha, hl, hn, hc⟩ : th.HasCount c := h.truth hth hpc
  have htold := h.told
  rw [PodCache.unreported_of_pc hth (by rw [hpc]; rfl), ha] at htold
  -- whether it is said now or was said before, the count is told
  have hcount : toldCount (c.log ++ c.logSuccess th) = some th.count := by
    rcases logSuccess_cases c th with ⟨hlog, hlast, heq⟩ | ⟨line, hlog, hline, -⟩
    · rw [hlog, List.append_nil, heq]
      exact h.lastCount th hth hlast
    · rw [hlog, toldCount_concat, hline]
      rfl
  constructor
  · rw [PodCache.unreported_none (c := c.endSuccess th) rfl rfl]
    show List.InOrder _ answers none (c.log ++ c.logSuccess th)
    rcases logSuccess_cases c th with ⟨hlog, -⟩ | ⟨line, hlog, -, htells, -⟩
    · rw [hlog, List.append_nil]
      exact htold.pass
    · rw [hlog]
      exact htold.tell (htells _ a hc)
  · intro th' hs
    obtain rfl := Option.some.inj hs
    trivial
  · intro ips' hl' _
    obtain rfl : ips = ips' := Option.some.inj (hl.symm.trans hl')
    rw [← hn]
    exact hcount
  · intro th' hs _
    obtain rfl := Option.some.inj hs
    exact hcount
  · show ChangesTrue (c.log ++ c.logSuccess th)
    rcases logSuccess_cases c th with ⟨hlog, -⟩ | ⟨line, hlog, -, -, hchange⟩
    · rw [hlog, List.append_nil]
      exact h.changes
    · rw [hlog]
      refine h.changes.concat fun n hn => ?_
      obtain ⟨hlast, hne⟩ := hchange n hn
      exact ⟨th.lastCount, h.lastCount th hth hlast, hne.symm⟩

/-- What a failure logs: nothing, or one line with its reason. -/
theorem CacheInv.endFailure_says (hi : CacheInv c) (hne : c.NonEmpty) (th : Refresher)
    (error : Text) (now : Int) (expired : Bool) :
    ∃ log th' deadline, c.endFailure th error now expired =
        { c with log := c.log ++ log, refresher := some th' } ∧
      (log = [] ∨ ∃ failingFor, log = [.failure failingFor error c.verdict]) ∧
      th'.pc = .sleeping deadline ∧ th'.lastCount = th.lastCount := by
  unfold PodCache.endFailure
  dsimp only
  split
  · rw [hi.logFailure_adds hne]
    exact ⟨_, _, _, rfl, Or.inr ⟨0, rfl⟩, rfl, rfl⟩
  · split
    · rw [hi.logFailure_adds hne]
      exact ⟨_, _, _, rfl, Or.inr ⟨_, rfl⟩, rfl, rfl⟩
    · refine ⟨[],
        { th with
          expiryReported := expired
          failures := th.failures + 1
          pc := .sleeping (c.clock + nextDelay th.refresh (th.failures + 1) * nsPerSecond) },
        _, ?_, Or.inl rfl, rfl, rfl⟩
      rw [List.append_nil]
      rfl

/-- A count in the verdict is that of the current list. -/
theorem failure_count (c : PodCache) (failingFor : Int) (reason : Text) {n : Int}
    (hn : (LogEntry.failure failingFor reason c.verdict).count = some n) :
    ∃ ips, c.listed = some ips ∧ n = ips.length := by
  cases hcur : c.current with
  | none =>
    rw [(verdict_noList_iff c).mpr hcur] at hn
    exact absurd hn (by simp [LogEntry.count])
  | some r =>
    refine ⟨c.podsOf r, by simp [PodCache.listed, PodCache.view, hcur], ?_⟩
    unfold PodCache.verdict at hn
    rw [hcur] at hn
    dsimp only at hn
    split at hn
    · exact absurd hn (by simp [LogEntry.count])
    · exact (Option.some.inj hn).symm

/-- The end of a failed round. -/
theorem LogInv.report (h : LogInv answers c) (hi : CacheInv c) (hne : c.NonEmpty)
    (hth : c.refresher = some th) {error : Text} {now : Int} {expired : Bool}
    (hpc : th.pc = .reporting error now expired) :
    LogInv answers (c.endFailure th error now expired) := by
  obtain ⟨a, ha, hexp⟩ : th.HasReason c error := h.truth hth hpc
  have htold := h.told
  rw [PodCache.unreported_of_pc hth (by rw [hpc]; rfl), ha] at htold
  obtain ⟨log, th', deadline, heq, hlog, hpc', hlast⟩ :=
    hi.endFailure_says hne th error now expired
  rw [heq]
  have hpub : ∀ th₁, c.refresher = some th₁ → ¬ th₁.pc.Published := by
    intro th₁ hs
    obtain rfl := Option.some.inj (hth.symm.trans hs)
    rw [hpc]
    exact id
  -- the line leaves the count that was told, or says that of the current list again
  have hcount : ∀ n, toldCount c.log = some n → toldCount (c.log ++ log) = some n := by
    intro n hn
    rcases hlog with rfl | ⟨failingFor, rfl⟩
    · rwa [List.append_nil]
    · rw [toldCount_concat]
      cases hm : (LogEntry.failure failingFor error c.verdict).count with
      | none => exact hn
      | some m =>
        obtain ⟨ips, hl, rfl⟩ := failure_count c failingFor error hm
        exact (h.counted ips hl hpub).symm.trans hn
  constructor
  · have hun : PodCache.unreported { c with log := c.log ++ log, refresher := some th' } = none :=
      PodCache.unreported_none rfl (by rw [hpc']; rfl)
    rw [hun]
    rcases hlog with rfl | ⟨failingFor, rfl⟩
    · rw [List.append_nil]
      exact htold.pass
    · exact htold.tell hexp
  · intro th₁ hs
    obtain rfl := Option.some.inj hs
    unfold Refresher.Truthful
    rw [hpc']
    trivial
  · intro ips hl _
    exact hcount _ (h.counted ips hl hpub)
  · intro th₁ hs hne'
    obtain rfl := Option.some.inj hs
    rw [hlast] at hne' ⊢
    exact hcount _ (h.lastCount th hth hne')
  · rcases hlog with rfl | ⟨failingFor, rfl⟩
    · rw [List.append_nil]
      exact h.changes
    · exact h.changes.concat fun n hn => absurd hn (by simp)

/-- A move of the refresher. -/
theorem LogInv.move (h : LogInv answers c) (hr : c.Reachable) (hth : c.refresher = some th)
    (hmv : RefresherMove c th c') : LogInv answers c' := by
  by_cases hends : th.pc.EndsRound
  · cases hmv with
    | succeed hpc => exact h.success hth hpc
    | report hpc => exact h.report hr.inv hr.nonEmpty hth hpc
    | _ =>
      rw [‹th.pc = _›] at hends
      exact hends.elim
  · exact h.within hr.inv hr.history hth hmv hends

/-- The request of the round has ended. -/
theorem LogInv.answered (h : LogInv answers c) (hi : CacheInv c) (hth : c.refresher = some th)
    {startedAt : Int} (hpc : th.pc = .fetching startedAt) (a : Answer)
    (hth' : c'.refresher = some th') (hq : Quiet c c') (hlog : c'.log = c.log)
    (hans : th'.answer = some a) (hround : th'.pc.inRound = true)
    (hlast : th'.lastCount = th.lastCount) (htrue : th'.Truthful c') :
    LogInv (answers ++ [a]) c' := by
  have hun : c'.unreported = some a := by
    rw [PodCache.unreported_of_pc hth' hround, hans]
  constructor
  · rw [hun, hlog, hq.environ]
    exact h.told.expect a
  · intro th₁ hs
    obtain rfl := Option.some.inj (hth'.symm.trans hs)
    exact htrue
  · intro ips hl _
    rw [hi.listed_quiet hq] at hl
    rw [hlog]
    refine h.counted ips hl fun th₁ hs => ?_
    obtain rfl := Option.some.inj (hth.symm.trans hs)
    rw [hpc]
    exact id
  · intro th₁ hs hne
    obtain rfl := Option.some.inj (hth'.symm.trans hs)
    rw [hlast] at hne ⊢
    rw [hlog]
    exact h.lastCount th hth hne
  · rw [hlog]
    exact h.changes

/-- There is no refresher any more. -/
theorem LogInv.gone (h : LogInv answers c) (hth' : c'.refresher = none)
    (henv : c'.environ = c.environ) (hlog : c'.log = c.log)
    (hlist : c'.listed = none ∨ c'.listed = c.listed ∧
      ∀ th, c.refresher = some th → ¬ th.pc.Published) : LogInv answers c' := by
  have hno : ∀ {th : Refresher}, c'.refresher ≠ some th := by
    intro th hs
    exact absurd (hth'.symm.trans hs) (by simp)
  constructor
  · have hun : c'.unreported = none := by rw [PodCache.unreported, hth', Option.bind_none]
    rw [hun, henv, hlog]
    exact h.told.pass
  · exact fun th hs => absurd hs hno
  · intro ips hl _
    rcases hlist with hnone | ⟨hsame, hold⟩
    · exact absurd (hnone.symm.trans hl) (by simp)
    · rw [hlog]
      exact h.counted ips (hsame ▸ hl) hold
  · exact fun th hs => absurd hs hno
  · rw [hlog]
    exact h.changes

/-- `pod_cache_stop`. -/
theorem LogInv.stop (h : LogInv answers c) (hr : c.Reachable) (hmv : StopMove c c') :
    LogInv answers c' := by
  have hi := hr.inv
  cases hmv with
  | @join th hs hrun hth hpc =>
    refine h.gone rfl rfl rfl (Or.inr ⟨hi.listed_quiet (.same rfl rfl rfl), fun th₁ hs₁ => ?_⟩)
    obtain rfl := Option.some.inj (hth.symm.trans hs₁)
    rw [hpc]
    exact id
  | detach hs =>
    have hnone : c.refresher = none := by
      have hplace := hr.books.place
      rw [hs] at hplace
      simpa [hi.running] using hplace.1
    exact h.gone hnone rfl rfl (Or.inl rfl)
  | dropLast hs h0 => exact h.aside hi rfl rfl (.counted rfl rfl rfl)
  | drop hs h0 => exact h.aside hi rfl rfl (.counted rfl rfl rfl)
  | free hs => exact h.aside hi rfl rfl (.freed (mem_dying_of_stopper hs) rfl rfl rfl)
  | _ => exact h.aside hi rfl rfl (.same rfl rfl rfl)

/-- `pod_cache_start`. -/
theorem LogInv.start (h : LogInv answers c) (hi : CacheInv c) {clientOk threadOk ok : Bool}
    (hmv : StartMove c clientOk threadOk c' ok) : LogInv answers c' := by
  have hq := hmv.quiet
  cases hmv with
  | started hrun =>
    have hnone : c.refresher = none := by simpa [hi.running] using hrun
    constructor
    · have hin : (Refresher.create c.environ).pc.inRound = false := rfl
      rw [PodCache.unreported_none rfl hin]
      exact h.told.pass
    · intro th hs
      obtain rfl := Option.some.inj hs
      trivial
    · intro ips hl _
      rw [hi.listed_quiet hq] at hl
      exact h.counted ips hl fun th hs => absurd (hnone.symm.trans hs) (by simp)
    · intro th hs hne
      obtain rfl := Option.some.inj hs
      exact absurd rfl hne
    · exact h.changes
  | _ => exact h.aside hi rfl rfl hq

/-- A step that is not the end of a request. -/
theorem LogInv.unanswered (h : LogInv answers c) (hr : c.Reachable) {a : CacheAct}
    (hst : c.step a = some c') (ha : a.answer = none) : LogInv answers c' := by
  have hi := hr.inv
  cases hi.move_of_step hst with
  | start hs hmv => exact h.start hi hmv
  | stop hmv => exact h.stop hr hmv
  | refresher hth hmv => exact h.move hr hth hmv
  | allocated hth hpc =>
    exact h.saying hi hth (.same rfl rfl rfl) rfl rfl rfl (by rw [hpc]; exact id)
      (Or.inl ⟨rfl, by rw [hpc]; rfl⟩) (h.truth hth hpc)
  | @outOfMemory th l hth hpc =>
    refine h.saying hi hth (.discarded rfl rfl rfl) rfl rfl rfl (by rw [hpc]; exact id)
      (Or.inl ⟨rfl, by rw [hpc]; rfl⟩) ?_
    obtain ⟨b, ips, hb, hok, -, hne⟩ := hr.history.answered th l hth (by rw [hpc]; rfl)
    have hgood : b.Good c.environ.deploymentEnv ips :=
      podListFetch_good hok (hne fun pods error => by rw [hpc]; simp)
    exact ⟨b, hb, Or.inr (Or.inr ⟨⟨ips, hgood⟩, rfl⟩)⟩
  | fetched hth hpc hok => exact absurd ha (by simp [CacheAct.answer])
  | fetchFailed hth hpc hno => exact absurd ha (by simp [CacheAct.answer])
  | acquired hrd hcur hfresh => exact h.aside hi rfl rfl (.counted rfl rfl rfl)
  | releasedLast hrd h0 => exact h.aside hi rfl rfl (.counted rfl rfl rfl)
  | released hrd h0 => exact h.aside hi rfl rfl (.counted rfl rfl rfl)
  | freed hrd =>
    have hdying := mem_dying_of_reader (List.mem_of_getElem? hrd) rfl
    exact h.aside hi rfl rfl (.freed hdying rfl rfl rfl)
  | _ => exact h.aside hi rfl rfl (.same rfl rfl rfl)

/-- **Every step keeps what holds of the log.** -/
theorem LogInv.step (h : LogInv answers c) (hr : c.Reachable) {a : CacheAct}
    (hst : c.step a = some c') : LogInv (answers ++ a.answer.toList) c' := by
  cases ha : a.answer with
  | none =>
    rw [Option.toList_none, List.append_nil]
    exact h.unanswered hr hst ha
  | some b =>
    have hi := hr.inv
    cases hi.move_of_step hst with
    | fetched hth hpc hok =>
      obtain rfl := Option.some.inj ha
      exact h.answered hi hth hpc _ rfl (.fetched c _ _) rfl rfl rfl rfl fun hno =>
        absurd hno (by simp)
    | fetchFailed hth hpc hno =>
      obtain rfl := Option.some.inj ha
      exact h.answered hi hth hpc _ rfl (.same rfl rfl rfl) rfl rfl rfl rfl fun _ =>
        ⟨_, rfl, Or.inl hno⟩
    | _ => exact absurd ha (by simp [CacheAct.answer])

theorem LogInv.init (e : Environ) (clock : Int) : LogInv [] (PodCache.init e clock) := by
  constructor
  · exact .nil
  · exact fun th hs => absurd hs (by simp [PodCache.init])
  · exact fun ips hl => absurd hl (by simp [PodCache.listed, PodCache.view, PodCache.init])
  · exact fun th hs => absurd hs (by simp [PodCache.init])
  · exact .nil

end Steps

/-! ## 4. The result -/

/-- **The log is true.**  Its lines tell of answers that came, in their order and each of one
answer; outside the stretch between the swap and the end of its round the last count told is that
of the current list; and a count that is said to have changed has changed. -/
theorem log_true (e : Environ) (clock : Int) {as : List CacheAct} {c : PodCache}
    (h : Lts.Trace PodCache.step Lts.free (PodCache.init e clock) as c) :
    (∃ told, told.Sublist (as.filterMap CacheAct.answer) ∧
      List.Forall₂ (Tells e.deploymentEnv) told c.log) ∧
    (∀ r, c.current = some r → (∀ th, c.refresher = some th → ¬ th.pc.Published) →
      toldCount c.log = some ↑(c.podsOf r).length) ∧
    ∀ pre n post, c.log = pre ++ .countChanged n :: post → ∃ m, toldCount pre = some m ∧ m ≠ n := by
  have hinv : c.Reachable ∧ c.environ = e ∧ LogInv (([] ++ as).filterMap CacheAct.answer) c := by
    refine h.history (I := fun l d => d.Reachable ∧ d.environ = e ∧
      LogInv (l.filterMap CacheAct.answer) d) ?_ ⟨Lts.Reachable.of_init ⟨e, clock, rfl⟩, rfl, ?_⟩
    · rintro l d a u ⟨hd, he, hi⟩ - hst
      refine ⟨hd.next hst, (hd.inv.environ_step hst).trans he, ?_⟩
      have hnext := hi.step hd hst
      rw [List.filterMap_append]
      cases ha : a.answer with
      | none => simpa [ha] using hnext
      | some b => simpa [ha] using hnext
    · exact LogInv.init e clock
  obtain ⟨-, rfl, hi⟩ := hinv
  rw [List.nil_append] at hi
  refine ⟨?_, ?_, hi.changes⟩
  · obtain ⟨told, hsub, hall⟩ := hi.told.pass
    rw [Option.toList_none, List.append_nil] at hsub
    exact ⟨told, hsub, hall⟩
  · intro r hcur hpub
    exact hi.counted _ (by simp [PodCache.listed, PodCache.view, hcur]) hpub

/-- A list of one pod, and a request that fails: two lines, each of its own answer, and one pod is
still what was told last. -/
theorem log_true_failure :
    ∃ log, log.length = 2 ∧ toldCount log = some 1 ∧
      ∃ told, told.Sublist [onePod (some (ascii "prod")), onePod none] ∧
        List.Forall₂ (Tells none) told log := by
  have hview : (Lts.execIf PodCache.step (fun _ _ => true) (PodCache.init {} 0)
      (.start true true :: (publishedRound 5000000000 ++ failedRound 30000000000))).map
        (fun c => (c.log.length, c.current, (c.podsOf 0).length, c.refresher.map (·.pc.inRound))) =
      some (2, some 0, 1, some false) := rfl
  obtain ⟨c, hc, heq⟩ := Option.map_eq_some_iff.mp hview
  simp only [Prod.mk.injEq] at heq
  obtain ⟨hlen, hcur, hpods, hpc⟩ := heq
  obtain ⟨⟨told, hsub, hall⟩, hcount, -⟩ :=
    log_true {} 0 (Lts.trace_of_execIf (fun _ _ _ => trivial) hc)
  refine ⟨c.log, hlen, ?_, told, hsub, hall⟩
  rw [hcount 0 hcur fun th hth hpub => ?_, hpods]
  · rfl
  · -- between two rounds nothing has just been published
    rw [hth, Option.map_some, Option.some.injEq] at hpc
    revert hpub hpc
    cases th.pc <;> simp [RefresherPc.Published, RefresherPc.inRound]

end Unicaster
