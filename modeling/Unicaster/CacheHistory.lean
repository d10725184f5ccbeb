/-
# The life of a snapshot

The results about whole runs of the cache.  `RefsSound` states reference counting in the words
of `pod_cache.c`: what a counter counts, when a snapshot is freed and how often, that no freed
cell is ever used, and that nothing is left once the cache was stopped and the last reader is
gone.  `only_good_answer_replaces` is about the answers: `current` holds what the last good
answer listed, and readers see the lists in the order in which they were published.
-/
import Unicaster.CacheSteps

namespace Unicaster

open CLib Refcount

/-! ## 1. Reference counting, in the words of the program -/

namespace PodCache

variable (c : PodCache) (r : Nat)

/-- The acquires of `r` not yet given back. -/
def holders : Nat := c.readers.countP fun rd => rd.held = some r

/-- The owners that detached `r` and have not released it: `publish` and `pod_cache_stop`. -/
def detached : Nat :=
  (if c.refresher.bind (·.pc.slot) = some r then 1 else 0)
    + (if c.stopper.slot = some r then 1 else 0)

/-- The threads between the decrement that found zero and the `free` of `r`. -/
def freers : Nat := c.dying.count (some r)

/-- Nobody holds `r`, it is not current, and no owner has still to release it. -/
def Unowned : Prop := c.holders r = 0 ∧ c.current ≠ some r ∧ c.detached r = 0

theorem owners_count :
    c.owners.count (some r) =
      c.holders r + (if c.current = some r then 1 else 0) + c.detached r := by
  have hmap : (c.readers.map (·.held)).count (some r) = c.holders r := by
    simp [holders, List.count_eq_countP, List.countP_map, Function.comp_def, beq_eq_decide]
  simp only [owners, detached, List.count_cons, beq_iff_eq, hmap]
  omega

theorem unowned_iff : c.Unowned r ↔ c.owners.count (some r) = 0 := by
  rw [owners_count, Unowned]
  split
  · rename_i h
    simp [h]
  · rename_i h
    simp only [h, not_false_eq_true, ne_eq, true_and]
    omega

end PodCache

/-- **Reference counting is sound**, in the words of `pod_cache.c`. -/
structure RefsSound (c : PodCache) : Prop where
  /-- what the counter of a snapshot counts -/
  refs : ∀ r < c.nextSnap, (c.snaps r).frees = 0 →
    (c.snaps r).refs = c.holders r + (if c.current = some r then 1 else 0) + c.detached r
  /-- the thread that frees a snapshot is alone with it -/
  freers : ∀ r, 0 < c.freers r →
    c.freers r = 1 ∧ r < c.nextSnap ∧ (c.snaps r).frees = 0 ∧ c.Unowned r
  /-- what is freed was freed once and is in nobody's hands -/
  freed : ∀ r < c.nextSnap, 0 < (c.snaps r).frees →
    (c.snaps r).frees = 1 ∧ c.freers r = 0 ∧ c.Unowned r
  /-- no freed cell was ever used or freed again -/
  untouched : c.fault = false
  /-- a list is live as long as the refresher carries it or its snapshot lives, and is freed
  exactly once -/
  lists : ∀ l < c.nextList, (c.lists l).frees ≤ 1 ∧
    ((c.lists l).frees = 0 ↔ c.inFlight = some l ∨
      ∃ r < c.nextSnap, (c.snaps r).pods = l ∧ (c.snaps r).frees = 0)
  /-- behind the detaching, `pod_cache_stop` leaves neither a list nor a refresher -/
  stopped : c.stopper.Detached → c.current = none ∧ c.refresher = none
  /-- when the cache is stopped and every reader has given back what it held, all is freed -/
  nothingLeft : c.current = none → c.refresher = none → c.stopper = .idle →
    (∀ rd ∈ c.readers, rd.held = none ∧ rd.freeing = none) →
    (∀ r < c.nextSnap, (c.snaps r).frees = 1) ∧ ∀ l < c.nextList, (c.lists l).frees = 1

/-! ## 2. Rounds and readers -/

/-- What the refresher has in hand came out of the request of its round, the newest snapshot
is the current one, and readers hold what was published. -/
structure HistoryInv (c : PodCache) : Prop where
  answered : ∀ th l, c.refresher = some th → th.pc.inFlight = some l →
    ∃ a ips, th.answer = some a ∧ (podListFetch c.environ.deploymentEnv a).list = .ok ips ∧
      (c.lists l).ips = ips ∧ ((∀ pods error, th.pc ≠ .fetched pods error) → ips ≠ [])
  newest : ∀ r, c.current = some r → r + 1 = c.nextSnap
  readers : ∀ rd ∈ c.readers, rd.acquired.Pairwise (· ≥ ·) ∧ ∀ r ∈ rd.acquired, r < c.nextSnap
  detached : c.stopper.Detached → c.current = none

section History

variable {c c' : PodCache}

/-- A quiet step that leaves the refresher, the readers and the stopper alone. -/
theorem HistoryInv.quiet (h : HistoryInv c) (hq : Quiet c c')
    (hans : ∀ th l, c'.refresher = some th → th.pc.inFlight = some l →
      ∃ a ips, th.answer = some a ∧ (podListFetch c.environ.deploymentEnv a).list = .ok ips ∧
        (c'.lists l).ips = ips ∧ ((∀ pods error, th.pc ≠ .fetched pods error) → ips ≠ []))
    (hrd : ∀ rd ∈ c'.readers, rd ∈ c.readers ∨
      rd.acquired.Pairwise (· ≥ ·) ∧ ∀ r ∈ rd.acquired, r < c.nextSnap)
    (hdet : c'.stopper.Detached → c.current = none) : HistoryInv c' where
  answered := by
    rw [hq.environ]
    exact hans
  newest := by
    rw [hq.current, hq.nextSnap]
    exact h.newest
  readers := by
    intro rd hm
    rw [hq.nextSnap]
    rcases hrd rd hm with hm | hm
    · exact h.readers rd hm
    · exact hm
  detached := by
    rw [hq.current]
    exact hdet

/-- What is in flight keeps its addresses over a quiet step. -/
theorem HistoryInv.answered_quiet (h : HistoryInv c) (hi : CacheInv c) (hq : Quiet c c')
    (hth : c'.refresher = c.refresher) (th : Refresher) (l : Nat)
    (hs : c'.refresher = some th) (hl : th.pc.inFlight = some l) :
    ∃ a ips, th.answer = some a ∧ (podListFetch c.environ.deploymentEnv a).list = .ok ips ∧
      (c'.lists l).ips = ips ∧ ((∀ pods error, th.pc ≠ .fetched pods error) → ips ≠ []) := by
  rw [hth] at hs
  obtain ⟨a, ips, ha, hok, hips, hne⟩ := h.answered th l hs hl
  have hin : c.inFlight = some l := by
    simp only [PodCache.inFlight, hs, Option.bind_some, hl]
  exact ⟨a, ips, ha, hok, (hq.ips l (hi.flight l hin).1).trans hips, hne⟩

/-- The readers but one, and that one with what it acquired before. -/
theorem readers_set {t : Nat} {b rd : Reader}
    (hb : b.acquired.Pairwise (· ≥ ·) ∧ ∀ r ∈ b.acquired, r < c.nextSnap)
    (hm : rd ∈ c.readers.set t b) :
    rd ∈ c.readers ∨ rd.acquired.Pairwise (· ≥ ·) ∧ ∀ r ∈ rd.acquired, r < c.nextSnap := by
  rcases List.mem_or_eq_of_mem_set hm with hm | rfl
  · exact Or.inl hm
  · exact Or.inr hb

theorem HistoryInv.refresherMoved (h : HistoryInv c) (hi : CacheInv c) {th : Refresher}
    (hth : c.refresher = some th) (hmv : RefresherMove c th c') : HistoryInv c' := by
  obtain ⟨hf, hrd, th', hth', hfl⟩ := hi.refresher_frame hmv
  have hidle : c.stopper = .idle := (hi.alive (by rw [hth]; rfl)).2
  have hdet : ¬ c'.stopper.Detached := by rw [hf.stopper, hidle]; exact id
  rcases hi.refresher_quiet hth hmv with hq | ⟨receivedAt, l, hpc, rfl⟩
  · refine h.quiet hq ?_ (fun rd hm => Or.inl (hrd ▸ hm)) fun hd => absurd hd hdet
    intro th1 l hs hl
    rw [hth', Option.some.injEq] at hs
    subst hs
    rcases hfl with hfl | ⟨l', error, hpc, hne, hpc', hans⟩
    · rw [hfl] at hl
      exact absurd hl (by simp)
    · rw [hpc', RefresherPc.inFlight, Option.some.injEq] at hl
      subst hl
      have hfl0 : th.pc.inFlight = some l' := by rw [hpc]; rfl
      have hin : c.inFlight = some l' := by
        simp only [PodCache.inFlight, hth, Option.bind_some, hfl0]
      obtain ⟨a, ips, ha, hok, hips, -⟩ := h.answered th l' hth hfl0
      refine ⟨a, ips, hans.trans ha, hok, (hq.ips l' (hi.flight l' hin).1).trans hips, fun _ => ?_⟩
      exact hips ▸ hne
  · refine ⟨?_, ?_, ?_, fun hd => absurd hd hdet⟩
    · intro th1 l1 hs hl
      simp only [PodCache.swap, Option.some.injEq] at hs
      subst hs
      exact absurd hl (by simp [RefresherPc.inFlight])
    · intro r hr
      simp only [PodCache.swap, Option.some.injEq] at hr
      exact congrArg (· + 1) hr.symm
    · intro rd hm
      obtain ⟨hp, hlt⟩ := h.readers rd hm
      exact ⟨hp, fun r hr => Nat.lt_succ_of_lt (hlt r hr)⟩

/-- **`pod_cache_stop`.** -/
theorem HistoryInv.stopped (h : HistoryInv c) (hi : CacheInv c) (hmv : StopMove c c') :
    HistoryInv c' := by
  obtain ⟨hrd, hth, hdet⟩ := hmv.frame
  rcases hmv.quiet with hq | ⟨hpc, rfl⟩
  · refine h.quiet hq ?_ (fun rd hm => Or.inl (hrd ▸ hm)) fun hd => ?_
    · intro th l hs hl
      rcases hth with hth | hth
      · exact h.answered_quiet hi hq hth th l hs hl
      · rw [hth] at hs
        exact absurd hs (by simp)
    · rcases hdet hd with hcur | hd'
      · exact hq.current ▸ hcur
      · exact h.detached hd'
  · exact ⟨h.answered, fun r hr => absurd hr (by simp), h.readers, fun _ => rfl⟩

/-- `pod_cache_start`. -/
theorem HistoryInv.started (h : HistoryInv c) (hi : CacheInv c) {clientOk threadOk ok : Bool}
    (hmv : StartMove c clientOk threadOk c' ok) : HistoryInv c' := by
  obtain ⟨hrd, hstop, -, hth, -⟩ := hmv.frame
  have hq := hmv.quiet
  refine h.quiet hq ?_ (fun rd hm => Or.inl (hrd ▸ hm)) fun hd => h.detached (hstop ▸ hd)
  intro th l hs hl
  rcases hth with hth | hth
  · exact h.answered_quiet hi hq hth th l hs hl
  · rw [hth, Option.some.injEq] at hs
    subst hs
    exact absurd hl (by simp [Refresher.create, RefresherPc.inFlight])

/-- A reader acquires the current snapshot, which is the newest of all. -/
theorem HistoryInv.acquired (h : HistoryInv c) (hi : CacheInv c) {t r : Nat}
    {acquired : List Nat} (hget : c.readers[t]? = some ⟨none, none, acquired⟩)
    (hcur : c.current = some r) :
    HistoryInv
      { c.setRefs r ((c.snaps r).refs + 1) with
        readers := c.readers.set t ⟨some r, none, r :: acquired⟩ } := by
  have hq : Quiet c { c.setRefs r ((c.snaps r).refs + 1) with
      readers := c.readers.set t ⟨some r, none, r :: acquired⟩ } := Quiet.counted rfl rfl rfl
  refine h.quiet hq (h.answered_quiet hi hq rfl) (fun rd hm => ?_) h.detached
  obtain ⟨hp, hlt⟩ := h.readers _ (List.mem_of_getElem? hget)
  have hnew := h.newest r hcur
  refine readers_set (b := ⟨some r, none, r :: acquired⟩)
    ⟨List.pairwise_cons.mpr ⟨fun q hq => ?_, hp⟩, fun q hq => ?_⟩ hm
  · have := hlt q hq
    omega
  · rcases List.mem_cons.mp hq with rfl | hq
    · omega
    · exact hlt q hq

/-- The release and the free of a reader change nothing it remembers. -/
theorem HistoryInv.giveBack (h : HistoryInv c) (hi : CacheInv c) {t : Nat} {rd rd' : Reader}
    (hq : Quiet c c') (hth : c'.refresher = c.refresher) (hstop : c'.stopper = c.stopper)
    (hget : c.readers[t]? = some rd) (hset : c'.readers = c.readers.set t rd')
    (hacq : rd'.acquired = rd.acquired) : HistoryInv c' := by
  refine h.quiet hq (h.answered_quiet hi hq hth) (fun rd1 hm => ?_)
    fun hd => h.detached (hstop ▸ hd)
  rw [hset] at hm
  exact readers_set (hacq ▸ h.readers _ (List.mem_of_getElem? hget)) hm

/-- The request has ended: what it brought is in flight. -/
theorem HistoryInv.fetchEnded (h : HistoryInv c) (hq : Quiet c c') {th' : Refresher}
    (hth' : c'.refresher = some th') (hrd : c'.readers = c.readers)
    (hstop : c'.stopper = c.stopper)
    (hans : ∀ l, th'.pc.inFlight = some l →
      ∃ a ips, th'.answer = some a ∧ (podListFetch c.environ.deploymentEnv a).list = .ok ips ∧
        (c'.lists l).ips = ips ∧ ((∀ pods error, th'.pc ≠ .fetched pods error) → ips ≠ [])) :
    HistoryInv c' := by
  refine h.quiet hq ?_ (fun rd hm => Or.inl (hrd ▸ hm)) fun hd => h.detached (hstop ▸ hd)
  intro th l hs hl
  rw [hth', Option.some.injEq] at hs
  subst hs
  exact hans l hl

/-- **One step, whoever takes it.** -/
theorem HistoryInv.step (h : HistoryInv c) (hi : CacheInv c) {a : CacheAct}
    (hst : c.step a = some c') : HistoryInv c' := by
  cases hi.move_of_step hst with
  | tick => exact ⟨h.answered, h.newest, h.readers, h.detached⟩
  | closingReset => exact ⟨h.answered, h.newest, h.readers, h.detached⟩
  | closingBegin => exact ⟨h.answered, h.newest, h.readers, h.detached⟩
  | start hs hmv => exact h.started hi hmv
  | stop hmv => exact h.stopped hi hmv
  | spawnReader =>
    refine ⟨h.answered, h.newest, fun rd hm => ?_, h.detached⟩
    rcases List.mem_append.mp hm with hm | hm
    · exact h.readers rd hm
    · rw [List.mem_singleton.mp hm]
      exact ⟨List.Pairwise.nil, fun r hr => absurd hr (by simp)⟩
  | refused hrd hacq => exact h
  | acquired hrd hcur hfresh => exact h.acquired hi hrd hcur
  | read hrd => exact h
  | releasedLast hrd h0 => exact h.giveBack hi (Quiet.counted rfl rfl rfl) rfl rfl hrd rfl rfl
  | released hrd h0 => exact h.giveBack hi (Quiet.counted rfl rfl rfl) rfl rfl hrd rfl rfl
  | freed hrd =>
    have hr := mem_dying_of_reader (List.mem_of_getElem? hrd) rfl
    exact h.giveBack hi (Quiet.freed hr rfl rfl rfl) rfl rfl hrd rfl rfl
  | refresher hth hmv => exact h.refresherMoved hi hth hmv
  | @fetched th startedAt a ips hth hpc hok =>
    refine h.fetchEnded (Quiet.fetched c _ _) rfl rfl rfl fun l hl => ?_
    rw [RefresherPc.inFlight, Option.some.injEq] at hl
    subst hl
    exact ⟨a, ips, rfl, hok, by simp, fun hne => absurd rfl (hne _ _)⟩
  | fetchFailed hth hpc hno =>
    exact h.fetchEnded (Quiet.same rfl rfl rfl) rfl rfl rfl fun l hl => absurd hl (by
      simp [RefresherPc.inFlight])
  | @allocated th l0 hth hpc =>
    refine h.fetchEnded (Quiet.same rfl rfl rfl) rfl rfl rfl fun l hl => ?_
    rw [RefresherPc.inFlight, Option.some.injEq] at hl
    subst hl
    obtain ⟨a, ips, ha, hok, hips, hne⟩ := h.answered th l0 hth (by rw [hpc]; rfl)
    exact ⟨a, ips, ha, hok, hips, fun _ => hne fun pods error => by rw [hpc]; simp⟩
  | outOfMemory hth hpc =>
    exact h.fetchEnded (Quiet.discarded rfl rfl rfl) rfl rfl rfl fun l hl => absurd hl (by
      simp [RefresherPc.inFlight])

theorem HistoryInv.init (h : c.Initial) : HistoryInv c := by
  obtain ⟨e, clock, rfl⟩ := h
  exact ⟨fun th l hs => absurd hs (by simp [PodCache.init]),
    fun r hr => absurd hr (by simp [PodCache.init]),
    fun rd hm => absurd hm (by simp [PodCache.init]), fun _ => rfl⟩

theorem PodCache.Reachable.history (h : c.Reachable) : HistoryInv c := by
  have hboth : CacheInv c ∧ HistoryInv c :=
    Lts.Reachable.invariant (I := fun d => CacheInv d ∧ HistoryInv d) h
      (fun _ h0 => ⟨CacheInv.init h0, HistoryInv.init h0⟩)
      fun _ _ _ hi hst => ⟨hi.1.step hst, hi.2.step hi.1 hst⟩
  exact hboth.2

end History

/-! ## 3. The results -/

section Results

variable {c c' : PodCache}

/-- A snapshot is freed by a step of a thread that stands before that `free`. -/
theorem CacheInv.frees_of_step (h : CacheInv c) {a : CacheAct} (hst : c.step a = some c')
    {r : Nat} (hr : r < c.nextSnap) (hne : (c'.snaps r).frees ≠ (c.snaps r).frees) :
    0 < c.freers r := by
  rcases h.step_cases hst with hq | ⟨th, receivedAt, pods, -, -, -, rfl⟩ | ⟨-, -, rfl⟩
  · rcases hq.frees r with heq | hd
    · exact absurd heq hne
    · exact List.count_pos_iff.mpr hd
  · refine absurd ?_ hne
    simp only [PodCache.swap, Function.update_of_ne (Nat.ne_of_lt hr)]
  · exact absurd rfl hne

/-- A list is freed once at most, and not while the refresher carries it or its snapshot lives. -/
theorem CacheInv.list_frees (hi : CacheInv c) {l : Nat} (hl : l < c.nextList) :
    (c.lists l).frees ≤ 1 ∧ ((c.lists l).frees = 0 ↔ c.inFlight = some l ∨
      ∃ r < c.nextSnap, (c.snaps r).pods = l ∧ (c.snaps r).frees = 0) := by
  constructor
  · rcases hi.listOwner l hl with h1 | h1 | ⟨r, hr, rfl⟩
    · exact le_of_eq h1
    · exact le_of_eq_of_le (hi.flight l h1).2.1 (Nat.zero_le 1)
    · rw [hi.podsFrees r hr]
      by_cases hf : 0 < (c.snaps r).frees
      · exact le_of_eq ((hi.sound.account r hr).of_freed hf).1
      · omega
  · constructor
    · intro h0
      rcases hi.listOwner l hl with h1 | h1 | ⟨r, hr, rfl⟩
      · omega
      · exact Or.inl h1
      · exact Or.inr ⟨r, hr, rfl, (hi.podsFrees r hr).symm.trans h0⟩
    · rintro (h1 | ⟨r, hr, rfl, h0⟩)
      · exact (hi.flight l h1).2.1
      · exact (hi.podsFrees r hr).trans h0

/-- Where nobody owns a snapshot and nobody is about to free one, all is freed. -/
theorem CacheInv.all_freed (hi : CacheInv c) (hcur : c.current = none) (hth : c.refresher = none)
    (hidle : c.stopper = .idle)
    (hrd : ∀ rd ∈ c.readers, rd.held = none ∧ rd.freeing = none) :
    (∀ r < c.nextSnap, (c.snaps r).frees = 1) ∧ ∀ l < c.nextList, (c.lists l).frees = 1 := by
  have hall : ∀ r < c.nextSnap, (c.snaps r).frees = 1 := by
    intro r hr
    have hacc : Account (c.snaps r).refs (c.owners.count (some r)) (c.freers r)
        (c.snaps r).frees := hi.sound.account r hr
    refine hacc.freed_of_none ?_ ?_
    · refine List.count_eq_zero.mpr fun hm => ?_
      simp only [PodCache.owners, hcur, hth, hidle, Option.bind_none, StopPc.slot,
        List.mem_cons, reduceCtorEq, false_or, List.mem_map] at hm
      obtain ⟨rd, hm, heq⟩ := hm
      rw [(hrd rd hm).1] at heq
      exact absurd heq (by simp)
    · refine List.count_eq_zero.mpr fun hm => ?_
      simp only [PodCache.dying, hth, hidle, Option.bind_none, StopPc.dying,
        List.mem_cons, reduceCtorEq, false_or, List.mem_map] at hm
      obtain ⟨rd, hm, heq⟩ := hm
      rw [(hrd rd hm).2] at heq
      exact absurd heq (by simp)
  refine ⟨hall, fun l hl => ?_⟩
  rcases hi.listOwner l hl with h1 | h1 | ⟨r, hr, rfl⟩
  · exact h1
  · simp only [PodCache.inFlight, hth, Option.bind_none, reduceCtorEq] at h1
  · rw [hi.podsFrees r hr]
    exact hall r hr

/-- **Reference counting is sound in every reachable state.** -/
theorem PodCache.Reachable.refsSound (h : c.Reachable) : RefsSound c := by
  have hi := h.inv
  have hacc : ∀ r < c.nextSnap, Account (c.snaps r).refs (c.owners.count (some r))
      (c.freers r) (c.snaps r).frees := hi.sound.account
  refine ⟨?_, ?_, ?_, hi.noFault, fun l hl => hi.list_frees hl, ?_, hi.all_freed⟩
  · intro r hr h0
    rw [(hacc r hr).refs_eq h0, PodCache.owners_count]
    push_cast
    split <;> rfl
  · intro r hd
    have hr : r < c.nextSnap := hi.sound.allocated_of_dying (List.count_pos_iff.mp hd)
    obtain ⟨h1, h2, h3⟩ := (hacc r hr).of_dying hd
    exact ⟨h1, hr, h3, (c.unowned_iff r).mpr h2⟩
  · intro r hr hf
    obtain ⟨h1, h2, h3⟩ := (hacc r hr).of_freed hf
    exact ⟨h1, h3, (c.unowned_iff r).mpr h2⟩
  · intro hd
    refine ⟨h.history.detached hd, ?_⟩
    cases hth : c.refresher with
    | none => rfl
    | some th =>
      have hidle := (hi.alive (by rw [hth]; rfl)).2
      rw [hidle] at hd
      exact hd.elim

/-- What `current` stands for: the snapshot, when it was received, and its addresses. -/
def PodCache.view (c : PodCache) : Option (Nat × Int × List Text) :=
  c.current.map fun r => (r, (c.snaps r).receivedAt, c.podsOf r)

/-- The request of the round the refresher is in ended with a good answer for `ips`. -/
def PodCache.GoodRound (c : PodCache) (ips : List Text) : Prop :=
  ∃ a, c.refresher.bind (·.answer) = some a ∧ a.Good c.environ.deploymentEnv ips

/-- `pod_cache_stop` does not get to the place where it detaches the list. -/
def NotDetached (c : PodCache) (a : CacheAct) : Prop := ¬(a = .stop ∧ c.stopper = .detach)

/-- No request ends with a good answer, and `pod_cache_stop` does not detach the list. -/
def NoGoodAnswer (c : PodCache) (a : CacheAct) : Prop :=
  NotDetached c a ∧ ∀ b, a = .fetchEnds b → ∀ ips, ¬ b.Good c.environ.deploymentEnv ips

/-- Where a request ended with a good answer, `publish` finds no memory for its list; and
`pod_cache_stop` does not detach the list. -/
def NoGoodRound (c : PodCache) (a : CacheAct) : Prop :=
  NotDetached c a ∧ (a = .publishAlloc true → ∀ ips, ¬ c.GoodRound ips)

/-- A published snapshot keeps its moment and its addresses over a quiet step. -/
theorem CacheInv.content_quiet (h : CacheInv c) (hq : Quiet c c') {r : Nat}
    (hr : r < c.nextSnap) :
    (c'.snaps r).receivedAt = (c.snaps r).receivedAt ∧ c'.podsOf r = c.podsOf r := by
  refine ⟨hq.receivedAt r, ?_⟩
  rw [PodCache.podsOf, PodCache.podsOf, hq.pods, hq.ips _ (h.podsLt r hr)]

theorem CacheInv.view_quiet (h : CacheInv c) (hq : Quiet c c') : c'.view = c.view := by
  unfold PodCache.view
  rw [hq.current]
  cases hcur : c.current with
  | none => rfl
  | some r =>
    have hr := (h.owned (mem_owners_of_current hcur)).1
    obtain ⟨h1, h2⟩ := h.content_quiet hq hr
    simp only [Option.map_some, h1, h2]

theorem view_swap (c : PodCache) (th : Refresher) (receivedAt : Int) (l : Nat) :
    (c.swap th receivedAt l).view = some (c.nextSnap, receivedAt, (c.lists l).ips) := by
  simp only [PodCache.view, PodCache.swap, Option.map_some, PodCache.podsOf, Function.update_self]

/-- The list `publish` is called with is that of a good answer. -/
theorem HistoryInv.good_of_inFlight (h : HistoryInv c) {th : Refresher} {l : Nat}
    (hth : c.refresher = some th) (hl : th.pc.inFlight = some l)
    (hpc : ∀ pods error, th.pc ≠ .fetched pods error) :
    c.GoodRound (c.lists l).ips ∧ (c.lists l).ips ≠ [] := by
  obtain ⟨a, ips, ha, hok, hips, hne⟩ := h.answered th l hth hl
  rw [hips]
  exact ⟨⟨a, by rw [hth, Option.bind_some, ha], podListFetch_good hok (hne hpc)⟩, hne hpc⟩

theorem HistoryInv.good_of_swapping (h : HistoryInv c) {th : Refresher} {receivedAt : Int}
    {l : Nat} (hth : c.refresher = some th) (hpc : th.pc = .swapping receivedAt l) :
    c.GoodRound (c.lists l).ips ∧ (c.lists l).ips ≠ [] :=
  h.good_of_inFlight hth (by rw [hpc]; rfl) fun pods error => by rw [hpc]; simp

/-- **What a step does to `current`**: nothing, or it publishes the list of a good answer, or
`pod_cache_stop` detaches it. -/
theorem PodCache.Reachable.view_step (h : c.Reachable) {a : CacheAct}
    (hst : c.step a = some c') :
    c'.view = c.view ∨
      (∃ ips receivedAt, a = .refresher ∧ c.GoodRound ips ∧ ips ≠ [] ∧
        c'.view = some (c.nextSnap, receivedAt, ips)) ∨
      (a = .stop ∧ c.stopper = .detach ∧ c'.view = none) := by
  rcases h.inv.step_cases hst with hq | ⟨th, receivedAt, l, ha, hth, hpc, rfl⟩ | ⟨ha, hpc, rfl⟩
  · exact Or.inl (h.inv.view_quiet hq)
  · obtain ⟨hgood, hne⟩ := h.history.good_of_swapping hth hpc
    exact Or.inr (Or.inl ⟨_, receivedAt, ha, hgood, hne, view_swap c th receivedAt l⟩)
  · exact Or.inr (Or.inr ⟨ha, hpc, rfl⟩)

/-- **What is in flight after a step** was in flight before, or the step is the end of the
request that brought it. -/
theorem CacheInv.inFlight_step (h : CacheInv c) {a : CacheAct} (hst : c.step a = some c')
    {l : Nat} (hl : c'.inFlight = some l) :
    (c.inFlight = some l ∧ (c'.lists l).ips = (c.lists l).ips) ∨
      ∃ b ips, a = .fetchEnds b ∧ (podListFetch c.environ.deploymentEnv b).list = .ok ips ∧
        (c'.lists l).ips = ips := by
  -- nothing is in flight from `pc'`, so this move is not the one
  have hnone : ∀ {th' : Refresher}, c'.refresher = some th' → th'.pc.inFlight = none → False := by
    intro th' hth' hfl
    rw [PodCache.inFlight, hth', Option.bind_some, hfl] at hl
    exact absurd hl (by simp)
  cases h.move_of_step hst with
  | start hs hmv =>
    obtain ⟨-, -, -, hth, -⟩ := hmv.frame
    rcases hth with hth | hth
    · have hin : c.inFlight = some l := by rw [← hl, PodCache.inFlight, PodCache.inFlight, hth]
      exact Or.inl ⟨hin, hmv.quiet.ips l (h.flight l hin).1⟩
    · exact (hnone hth rfl).elim
  | stop hmv =>
    obtain ⟨-, hth, -⟩ := hmv.frame
    rcases hth with hth | hth
    · have hin : c.inFlight = some l := by rw [← hl, PodCache.inFlight, PodCache.inFlight, hth]
      rcases hmv.quiet with hq | ⟨-, rfl⟩
      · exact Or.inl ⟨hin, hq.ips l (h.flight l hin).1⟩
      · exact Or.inl ⟨hin, rfl⟩
    · rw [PodCache.inFlight, hth] at hl
      exact absurd hl (by simp)
  | @refresher th c' hth hmv =>
    obtain ⟨-, -, th', hth', hfl⟩ := h.refresher_frame hmv
    rcases hfl with hfl | ⟨l', error, hpc, -, hpc', -⟩
    · exact (hnone hth' hfl).elim
    · rw [PodCache.inFlight, hth', Option.bind_some, hpc', RefresherPc.inFlight,
        Option.some.injEq] at hl
      subst hl
      have hin : c.inFlight = some l' := by
        simp only [PodCache.inFlight, hth, Option.bind_some, hpc, RefresherPc.inFlight]
      rcases h.refresher_quiet hth hmv with hq | ⟨receivedAt, l, hpc1, -⟩
      · exact Or.inl ⟨hin, hq.ips l' (h.flight l' hin).1⟩
      · exact absurd (hpc.symm.trans hpc1) (by simp)
  | @fetched th startedAt b ips hth hpc hok =>
    rw [PodCache.inFlight, Option.bind_some, RefresherPc.inFlight, Option.some.injEq] at hl
    subst hl
    exact Or.inr ⟨b, ips, rfl, hok, by simp⟩
  | fetchFailed hth hpc hno => exact (hnone rfl rfl).elim
  | @allocated th l0 hth hpc =>
    rw [PodCache.inFlight, PodCache.goto, Option.bind_some, RefresherPc.inFlight,
      Option.some.injEq] at hl
    subst hl
    refine Or.inl ⟨?_, rfl⟩
    simp only [PodCache.inFlight, hth, Option.bind_some, hpc, RefresherPc.inFlight]
  | outOfMemory hth hpc => exact (hnone rfl rfl).elim
  | freed hrd => exact Or.inl ⟨hl, c.freeList_ips (c.snaps _).pods l⟩
  | _ => exact Or.inl ⟨hl, rfl⟩

/-- Whatever the refresher carries is empty. -/
def EmptyHanded (c : PodCache) : Prop := ∀ l, c.inFlight = some l → (c.lists l).ips = []

/-- **Rounds without a good answer** leave the refresher with empty hands, so it publishes
nothing. -/
theorem PodCache.Reachable.emptyHanded_step (h : c.Reachable) (he : EmptyHanded c)
    {a : CacheAct} (hok : NoGoodAnswer c a) (hst : c.step a = some c') :
    EmptyHanded c' ∧ c'.view = c.view := by
  have hi := h.inv
  have hview : c'.view = c.view := by
    rcases hi.step_cases hst with hq | ⟨th, receivedAt, l, ha, hth, hpc, rfl⟩ | ⟨ha, hpc, -⟩
    · exact hi.view_quiet hq
    · have hin : c.inFlight = some l := by
        simp only [PodCache.inFlight, hth, Option.bind_some, hpc, RefresherPc.inFlight]
      exact absurd (he l hin) (h.history.good_of_swapping hth hpc).2
    · exact absurd ⟨ha, hpc⟩ hok.1
  refine ⟨fun l hl => ?_, hview⟩
  rcases hi.inFlight_step hst hl with ⟨hin, hips⟩ | ⟨b, ips, hb, hlist, hips⟩
  · exact hips.trans (he l hin)
  · by_contra hne
    rw [hips] at hne
    exact hok.2 b hb ips (podListFetch_good hlist hne)

/-- Before the swap of a list stands the allocation for it. -/
theorem CacheInv.swapping_step (h : CacheInv c) {a : CacheAct} (hst : c.step a = some c')
    {th' : Refresher} {receivedAt : Int} {l : Nat} (hth' : c'.refresher = some th')
    (hpc' : th'.pc = .swapping receivedAt l) :
    (∃ th, c.refresher = some th ∧ th.pc = .swapping receivedAt l) ∨
      a = .publishAlloc true ∧ ∃ th, c.refresher = some th ∧ th.pc = .publishing l := by
  have hfl : th'.pc.inFlight = some l := by rw [hpc']; rfl
  cases h.move_of_step hst with
  | start hs hmv =>
    obtain ⟨-, -, -, hth, -⟩ := hmv.frame
    rcases hth with hth | hth
    · exact Or.inl ⟨th', hth ▸ hth', hpc'⟩
    · obtain rfl := Option.some.inj (hth.symm.trans hth')
      exact absurd hpc' (by simp [Refresher.create])
  | stop hmv =>
    obtain ⟨-, hth, -⟩ := hmv.frame
    rcases hth with hth | hth
    · exact Or.inl ⟨th', hth ▸ hth', hpc'⟩
    · exact absurd (hth.symm.trans hth') (by simp)
  | @refresher th c' hth hmv =>
    -- no step of its own ends before the swap
    obtain ⟨-, -, th1, hth1, hno⟩ := h.refresher_frame hmv
    obtain rfl := Option.some.inj (hth1.symm.trans hth')
    rcases hno with hno | ⟨l', error, -, -, hpc1, -⟩
    · exact absurd (hno.symm.trans hfl) (by simp)
    · exact absurd (hpc1.symm.trans hpc') (by simp)
  | fetched hth hpc hok =>
    obtain rfl := Option.some.inj hth'
    exact absurd hpc' (by simp)
  | fetchFailed hth hpc hno =>
    obtain rfl := Option.some.inj hth'
    exact absurd hpc' (by simp)
  | @allocated th l' hth hpc =>
    obtain rfl := Option.some.inj hth'
    obtain ⟨-, rfl⟩ : c.nowSeconds = receivedAt ∧ l' = l := by simpa using hpc'
    exact Or.inr ⟨rfl, th, hth, hpc⟩
  | outOfMemory hth hpc =>
    obtain rfl := Option.some.inj hth'
    exact absurd hpc' (by simp)
  | _ => exact Or.inl ⟨th', hth', hpc'⟩

/-- The refresher does not stand before the swap. -/
def NotSwapping (c : PodCache) : Prop :=
  ∀ th, c.refresher = some th → ∀ receivedAt l, th.pc ≠ .swapping receivedAt l

/-- **Rounds in which `publish` finds no memory** do not come to the swap. -/
theorem PodCache.Reachable.notSwapping_step (h : c.Reachable) (hno : NotSwapping c)
    {a : CacheAct} (hok : NoGoodRound c a) (hst : c.step a = some c') :
    NotSwapping c' ∧ c'.view = c.view := by
  have hi := h.inv
  constructor
  · intro th' hth' receivedAt l hpc'
    rcases hi.swapping_step hst hth' hpc' with ⟨th, hth, hpc⟩ | ⟨ha, th, hth, hpc⟩
    · exact hno th hth receivedAt l hpc
    · have hgood := h.history.good_of_inFlight hth (l := l) (by rw [hpc]; rfl)
        fun pods error => by rw [hpc]; simp
      exact hok.2 ha _ hgood.1
  · rcases hi.step_cases hst with hq | ⟨th, receivedAt, l, -, hth, hpc, -⟩ | ⟨ha, hpc, -⟩
    · exact hi.view_quiet hq
    · exact absurd hpc (hno th hth receivedAt l)
    · exact absurd ⟨ha, hpc⟩ hok.1

/-- **Publications over a run.**  Without a good answer the view stays, whatever else happens;
without the detaching a list that is there stays there; and what was published once keeps its
content. -/
theorem PodCache.Reachable.view_run (h : c.Reachable) (hin : c.inFlight = none)
    (hr : Lts.Run PodCache.step NoGoodAnswer c c') : c'.view = c.view := by
  have hall : c'.Reachable ∧ EmptyHanded c' ∧ c'.view = c.view := by
    refine hr.invariant (I := fun d => d.Reachable ∧ EmptyHanded d ∧ d.view = c.view)
      ⟨h, fun l hl => absurd (hin.symm.trans hl) (by simp), rfl⟩ ?_
    rintro t a u ⟨ht, he, hv⟩ hok hst
    obtain ⟨he', hv'⟩ := ht.emptyHanded_step he hok hst
    exact ⟨ht.next hst, he', hv'.trans hv⟩
  exact hall.2.2

theorem PodCache.Reachable.view_run_noMemory (h : c.Reachable) (hno : NotSwapping c)
    (hr : Lts.Run PodCache.step NoGoodRound c c') : c'.view = c.view := by
  have hall : c'.Reachable ∧ NotSwapping c' ∧ c'.view = c.view := by
    refine hr.invariant (I := fun d => d.Reachable ∧ NotSwapping d ∧ d.view = c.view)
      ⟨h, hno, rfl⟩ ?_
    rintro t a u ⟨ht, hn, hv⟩ hok hst
    obtain ⟨hn', hv'⟩ := ht.notSwapping_step hn hok hst
    exact ⟨ht.next hst, hn', hv'.trans hv⟩
  exact hall.2.2

theorem PodCache.Reachable.current_run (h : c.Reachable) (hcur : c.current ≠ none)
    (hr : Lts.Run PodCache.step NotDetached c c') : c'.current ≠ none := by
  have hall : c'.Reachable ∧ c'.current ≠ none := by
    refine hr.invariant (I := fun d => d.Reachable ∧ d.current ≠ none) ⟨h, hcur⟩ ?_
    rintro t a u ⟨ht, hc⟩ hok hst
    refine ⟨ht.next hst, ?_⟩
    rcases ht.inv.step_cases hst with hq | ⟨th, receivedAt, l, -, -, -, rfl⟩ | ⟨ha, hpc, -⟩
    · rw [hq.current]
      exact hc
    · simp [PodCache.swap]
    · exact absurd ⟨ha, hpc⟩ hok
  exact hall.2

theorem PodCache.Reachable.content_step (h : c.Reachable) {a : CacheAct}
    (hst : c.step a = some c') {r : Nat} (hr : r < c.nextSnap) :
    r < c'.nextSnap ∧ (c'.snaps r).receivedAt = (c.snaps r).receivedAt ∧
      c'.podsOf r = c.podsOf r := by
  rcases h.inv.step_cases hst with hq | ⟨th, receivedAt, l, -, -, -, rfl⟩ | ⟨-, -, rfl⟩
  · exact ⟨hq.nextSnap ▸ hr, h.inv.content_quiet hq hr⟩
  · refine ⟨Nat.lt_succ_of_lt hr, ?_, ?_⟩
    · simp only [PodCache.swap, Function.update_of_ne (Nat.ne_of_lt hr)]
    · simp only [PodCache.podsOf, PodCache.swap, Function.update_of_ne (Nat.ne_of_lt hr)]
  · exact ⟨hr, rfl, rfl⟩

/-- **Only a good answer replaces the list**, over every run and with any number of readers. -/
theorem only_good_answer_replaces (c : PodCache) (h : c.Reachable) :
    (∀ a c', c.step a = some c' →
      c'.view = c.view ∨
        (∃ ips receivedAt, a = .refresher ∧ c.GoodRound ips ∧ ips ≠ [] ∧
          c'.view = some (c.nextSnap, receivedAt, ips)) ∨
        (a = .stop ∧ c.stopper = .detach ∧ c'.view = none)) ∧
    (c.inFlight = none → ∀ c', Lts.Run PodCache.step NoGoodAnswer c c' → c'.view = c.view) ∧
    (NotSwapping c → ∀ c', Lts.Run PodCache.step NoGoodRound c c' → c'.view = c.view) ∧
    (c.current ≠ none → ∀ c', Lts.Run PodCache.step NotDetached c c' → c'.current ≠ none) ∧
    (∀ rd ∈ c.readers, rd.acquired.Pairwise (· ≥ ·) ∧ ∀ r ∈ rd.acquired, r < c.nextSnap ∧
      ∀ c', Lts.Run PodCache.step Lts.free c c' →
        (c'.snaps r).receivedAt = (c.snaps r).receivedAt ∧ c'.podsOf r = c.podsOf r) := by
  refine ⟨fun a c' hst => h.view_step hst, fun hin c' hr => h.view_run hin hr,
    fun hno c' hr => h.view_run_noMemory hno hr, fun hcur c' hr => h.current_run hcur hr,
    fun rd hm => ?_⟩
  obtain ⟨hp, hlt⟩ := h.history.readers rd hm
  refine ⟨hp, fun r hr => ⟨hlt r hr, fun c' hrun => ?_⟩⟩
  have hall : c'.Reachable ∧ r < c'.nextSnap ∧
      (c'.snaps r).receivedAt = (c.snaps r).receivedAt ∧ c'.podsOf r = c.podsOf r := by
    refine hrun.invariant (I := fun d => d.Reachable ∧ r < d.nextSnap ∧
      (d.snaps r).receivedAt = (c.snaps r).receivedAt ∧ d.podsOf r = c.podsOf r)
      ⟨h, hlt r hr, rfl, rfl⟩ ?_
    rintro t a u ⟨ht, hlt, h1, h2⟩ - hst
    obtain ⟨hlt', h1', h2'⟩ := ht.content_step hst hlt
    exact ⟨ht.next hst, hlt', h1'.trans h1, h2'.trans h2⟩
  exact hall.2.2

/-- A start, and a first round up to the swap of `publish`, with one reader waiting. -/
def firstRound : List CacheAct :=
  [.start true true, .spawnReader, .refresher, .fetchEnds (onePod (some (ascii "prod"))),
    .refresher, .publishAlloc true]

/-- The rest of that round, and one in which the namespace cannot be read. -/
def unreadableNext : List CacheAct :=
  [.refresher, .refresher, .tick 5000000000, .refresher, .refresher, .fetchEnds (onePod none),
    .refresher, .refresher, .refresher, .refresher]

/-- No namespace is to be found, and nothing detaches the list. -/
def unreadableOnly (c : PodCache) : CacheAct → Bool
  | .stop => false
  | .fetchEnds b => b.namespaceFile.isNone && c.environ.deploymentEnv.isNone
  | _ => true

theorem noGoodAnswer_of_unreadable {a : CacheAct} (h : unreadableOnly c a = true) :
    NoGoodAnswer c a := by
  refine ⟨?_, ?_⟩
  · rintro ⟨rfl, -⟩
    exact absurd h (by simp [unreadableOnly])
  · rintro b rfl ips ⟨⟨⟨name, hname⟩, -⟩, -⟩
    obtain ⟨hfile, henv⟩ := Bool.and_eq_true_iff.mp h
    rw [Option.isNone_iff_eq_none.mp hfile, Option.isNone_iff_eq_none.mp henv] at hname
    exact absurd hname (by simp [resolveNamespace, readTrimmed])

/-- In the first round the swap publishes the one pod that was listed, and it is still current
behind a round without a request. -/
theorem only_good_answer_replaces_firstRound :
    ∃ c c' c'' : PodCache, c.Reachable ∧ c.step .refresher = some c' ∧ c.view = none ∧
      c'.view = some (0, 0, [ascii "10.0.0.7"]) ∧ c.GoodRound [ascii "10.0.0.7"] ∧
      Lts.Trace PodCache.step NoGoodAnswer c' unreadableNext c'' ∧ c''.view = c'.view := by
  have hbefore : (Lts.exec PodCache.step (PodCache.init {} 0) firstRound).map PodCache.view
      = some none := rfl
  have hafter : ((Lts.exec PodCache.step (PodCache.init {} 0) firstRound).bind
      (·.step .refresher)).map (fun c => (c.view, c.inFlight,
        (Lts.execIf PodCache.step unreadableOnly c unreadableNext).isSome)) =
        some (some (0, 0, [ascii "10.0.0.7"]), none, true) := rfl
  obtain ⟨c, hc, hview⟩ := Option.map_eq_some_iff.mp hbefore
  obtain ⟨c', hc', hparts⟩ := Option.map_eq_some_iff.mp hafter
  simp only [Prod.mk.injEq] at hparts
  obtain ⟨hview', hin, hnext⟩ := hparts
  rw [hc, Option.bind_some] at hc'
  have hreach : c.Reachable := Lts.reachable_of_exec ⟨{}, 0, rfl⟩ hc
  obtain ⟨c'', hc''⟩ := Option.isSome_iff_exists.mp hnext
  have htr : Lts.Trace PodCache.step NoGoodAnswer c' unreadableNext c'' :=
    Lts.trace_of_execIf (fun u a hu => noGoodAnswer_of_unreadable hu) hc''
  refine ⟨c, c', c'', hreach, hc', hview, hview', ?_, htr,
    (only_good_answer_replaces c' (hreach.next hc')).2.1 hin c'' htr.run⟩
  rcases (only_good_answer_replaces c hreach).1 _ _ hc' with
    heq | ⟨ips, receivedAt, -, hgood, -, heq⟩ | ⟨ha, -, -⟩
  · rw [hview, hview'] at heq
    exact absurd heq (by simp)
  · rw [hview', Option.some.injEq, Prod.mk.injEq, Prod.mk.injEq] at heq
    rw [heq.2.2]
    exact hgood
  · exact absurd ha (by simp)

end Results

end Unicaster
