/-
# What the counters are for

`Board` says what `pod_cache.c` does for the threads that use it, and no more: a list is posted,
and a thread that asks for it is given a copy of its own.  There is no heap, no counter, nothing
to free, and no mutex.

The cache refines it (`counting_is_copying`): what the readers are given, what they read and when
they give it back is what a board lets them notice.  A board accepts no empty list, none that is
older than the posted one and none from the future, so the refinement says that of the cache too.
-/
import Unicaster.Reports

namespace Unicaster

open CLib

/-! ## 1. The board -/

/-- A list, and when it was received. -/
structure Posted where
  pods : List Text
  receivedAt : Int
  deriving DecidableEq

@[ext] structure Board where
  clock : Int
  maxAge : Int
  posted : Option Posted
  /-- the copy each reader has in its hands -/
  hands : List (Option (List Text))

inductive BoardAct where
  | tick (ns : Nat)
  | setAge (maxAge : Int)
  | post (p : Posted)
  | clear
  | join
  | take (t : Nat)
  | look (t : Nat)
  | drop (t : Nat)

/-- What there is to notice of a reader. -/
inductive Notice where
  /-- `pod_cache_acquire` returned these pods, or `NULL` -/
  | given (t : Nat) (pods : Option (List Text))
  | reads (t : Nat) (pods : List Text)
  | givesBack (t : Nat)
  deriving DecidableEq

namespace Board

variable (b : Board)

/-- What a reader that asks is given. -/
def offer : Option (List Text) :=
  b.posted.bind fun p =>
    if b.maxAge > 0 ∧ b.clock / nsPerSecond - p.receivedAt > b.maxAge then none else some p.pods

/-- The list may be posted. -/
def Accepts (p : Posted) : Prop :=
  p.pods ≠ [] ∧ p.receivedAt ≤ b.clock / nsPerSecond ∧ ∀ q ∈ b.posted, q.receivedAt ≤ p.receivedAt

instance (p : Posted) : Decidable (b.Accepts p) := inferInstanceAs (Decidable (_ ∧ _ ∧ _))

/-- What an action does, or `none` where it is not possible. -/
def step : BoardAct → Option Board
  | .tick ns => some { b with clock := b.clock + ns }
  | .setAge maxAge => some { b with maxAge := maxAge }
  | .post p => if b.Accepts p then some { b with posted := some p } else none
  | .clear => some { b with posted := none }
  | .join => some { b with hands := b.hands ++ [none] }
  | .take t =>
    match b.hands[t]? with
    | some none => some { b with hands := b.hands.set t b.offer }
    | _ => none
  | .look t =>
    match b.hands[t]? with
    | some (some _) => some b
    | _ => none
  | .drop t =>
    match b.hands[t]? with
    | some (some _) => some { b with hands := b.hands.set t none }
    | _ => none

def notice : BoardAct → Option Notice
  | .take t => some (.given t b.offer)
  | .look t => b.hands[t]?.join.map (.reads t)
  | .drop t => some (.givesBack t)
  | _ => none

end Board

/-! ## 2. The cache, for who sees neither heap nor counters -/

namespace PodCache

variable (c : PodCache)

def board : Board where
  clock := c.clock
  maxAge := c.maxAge
  posted := c.current.map fun r => ⟨c.podsOf r, (c.snaps r).receivedAt⟩
  hands := c.readers.map fun rd => rd.held.map c.podsOf

def notice : CacheAct → Option Notice
  | .acquire t => some (.given t (c.podCacheAcquire.2.map c.podsOf))
  | .read t => (c.readers[t]?.bind (·.held)).map fun r => .reads t (c.podsOf r)
  | .release t => some (.givesBack t)
  | _ => none

end PodCache

/-! ## 3. Moments of reception -/

/-- No list is from the future, and what replaces the current list is not older. -/
structure Dated (c : PodCache) : Prop where
  current : ∀ r, c.current = some r → (c.snaps r).receivedAt ≤ c.nowSeconds
  next : ∀ th receivedAt l, c.refresher = some th → th.pc = .swapping receivedAt l →
    receivedAt ≤ c.nowSeconds ∧ ∀ r, c.current = some r → (c.snaps r).receivedAt ≤ receivedAt

section Dates

variable {c c' : PodCache}

theorem nowSeconds_le (h : c.clock ≤ c'.clock) : c.nowSeconds ≤ c'.nowSeconds :=
  Int.ediv_le_ediv (by decide) h

/-- What keeps the list in place keeps its date. -/
theorem Dated.quiet (h : Dated c) (hq : Quiet c c') (hclock : c.clock ≤ c'.clock)
    (hnext : ∀ th receivedAt l, c'.refresher = some th → th.pc = .swapping receivedAt l →
      receivedAt = c.nowSeconds ∨
        ∃ th', c.refresher = some th' ∧ th'.pc = .swapping receivedAt l) : Dated c' := by
  have hnow := nowSeconds_le hclock
  refine ⟨fun r hcur => ?_, fun th receivedAt l hth hpc => ?_⟩
  · rw [hq.current] at hcur
    rw [hq.receivedAt]
    exact (h.current r hcur).trans hnow
  · rcases hnext th receivedAt l hth hpc with rfl | ⟨th', hth', hpc'⟩
    · refine ⟨hnow, fun r hcur => ?_⟩
      rw [hq.current] at hcur
      rw [hq.receivedAt]
      exact h.current r hcur
    · obtain ⟨hle, hold⟩ := h.next th' receivedAt l hth' hpc'
      refine ⟨hle.trans hnow, fun r hcur => ?_⟩
      rw [hq.current] at hcur
      rw [hq.receivedAt]
      exact hold r hcur

/-- A step of the refresher leads to the place before the swap from no other place. -/
theorem CacheInv.not_swapping (h : CacheInv c) {th th' : Refresher} (hmv : RefresherMove c th c')
    (hth' : c'.refresher = some th') {receivedAt : Int} {l : Nat} :
    th'.pc ≠ .swapping receivedAt l := by
  obtain ⟨-, -, th1, hth1, hfl⟩ := h.refresher_frame hmv
  obtain rfl : th1 = th' := Option.some.inj (hth1.symm.trans hth')
  intro hpc
  rcases hfl with hfl | ⟨l', error, -, -, hpc', -⟩
  · rw [hpc] at hfl
    exact absurd hfl (by simp [RefresherPc.inFlight])
  · rw [hpc] at hpc'
    exact absurd hpc' (by simp)

theorem Dated.step (h : Dated c) (hi : CacheInv c) {a : CacheAct} (hst : c.step a = some c') :
    Dated c' := by
  have hclock := hi.clock_le hst
  have hsame : c'.refresher = c.refresher → ∀ th receivedAt l, c'.refresher = some th →
      th.pc = .swapping receivedAt l → receivedAt = c.nowSeconds ∨
        ∃ th', c.refresher = some th' ∧ th'.pc = .swapping receivedAt l := by
    intro heq th receivedAt l hth hpc
    exact Or.inr ⟨th, heq ▸ hth, hpc⟩
  rcases hi.step_cases hst with hq | ⟨th, receivedAt, l, rfl, hth, hpc, rfl⟩ | ⟨-, -, rfl⟩
  · refine h.quiet hq hclock fun th receivedAt l hth hpc => ?_
    cases hi.move_of_step hst with
    | refresher hth0 hmv => exact absurd hpc (hi.not_swapping hmv hth)
    | allocated hth0 hpc0 =>
      obtain rfl := Option.some.inj hth
      obtain ⟨rfl, -⟩ := RefresherPc.swapping.inj hpc
      exact Or.inl rfl
    | fetched hth0 hpc0 hok =>
      obtain rfl := Option.some.inj hth
      exact absurd hpc (by simp)
    | fetchFailed hth0 hpc0 hno =>
      obtain rfl := Option.some.inj hth
      exact absurd hpc (by simp)
    | outOfMemory hth0 hpc0 =>
      obtain rfl := Option.some.inj hth
      exact absurd hpc (by simp)
    | start hs hmv =>
      obtain ⟨-, -, -, heq | heq, -⟩ := hmv.frame
      · exact hsame heq th receivedAt l hth hpc
      · obtain rfl := Option.some.inj (heq.symm.trans hth)
        exact absurd hpc (by simp [Refresher.create])
    | stop hmv =>
      obtain ⟨-, heq | heq, -⟩ := hmv.frame
      · exact hsame heq th receivedAt l hth hpc
      · rw [heq] at hth
        exact absurd hth (by simp)
    | _ => exact hsame rfl th receivedAt l hth hpc
  · obtain ⟨hle, -⟩ := h.next th receivedAt l hth hpc
    refine ⟨fun r hcur => ?_, fun th' receivedAt' l' hth' hpc' => ?_⟩
    · obtain rfl := Option.some.inj hcur
      have hself : ((c.swap th receivedAt l).snaps c.nextSnap).receivedAt = receivedAt := by
        simp only [PodCache.swap, Function.update_self]
      rw [hself]
      exact hle
    · obtain rfl := Option.some.inj hth'
      exact absurd hpc' (by simp)
  · refine ⟨fun r hcur => absurd hcur (by simp), fun th receivedAt l hth hpc => ?_⟩
    exact ⟨(h.next th receivedAt l hth hpc).1, fun r hcur => absurd hcur (by simp)⟩

/-- **No date is from the future**, in any state that is reached. -/
theorem PodCache.Reachable.dated (h : c.Reachable) : Dated c := by
  have hboth : CacheInv c ∧ Dated c := by
    refine Lts.Reachable.invariant (I := fun d => CacheInv d ∧ Dated d) h ?_ ?_
    · rintro d ⟨e, clock, rfl⟩
      refine ⟨CacheInv.init ⟨e, clock, rfl⟩, ⟨?_, ?_⟩⟩
      · exact fun r hcur => absurd hcur (by simp [PodCache.init])
      · exact fun th receivedAt l hth => absurd hth (by simp [PodCache.init])
    · exact fun d a d' hi hst => ⟨hi.1.step hst, hi.2.step hi.1 hst⟩
  exact hboth.2

end Dates

/-! ## 4. Every step, seen on the board -/

section Board

variable {c c' : PodCache} {a : CacheAct}

/-- A snapshot in use shows the same pods behind the step. -/
theorem PodCache.Reachable.podsOf_owned (h : c.Reachable) (hst : c.step a = some c') {r : Nat}
    (hr : some r ∈ c.owners) : c'.podsOf r = c.podsOf r :=
  (h.content_step hst (h.inv.owned hr).1).2.2

/-- What a reader has in its hands stays as it is. -/
theorem PodCache.Reachable.hand (h : c.Reachable) (hst : c.step a = some c') {rd : Reader}
    (hrd : rd ∈ c.readers) : rd.held.map c'.podsOf = rd.held.map c.podsOf := by
  cases hheld : rd.held with
  | none => rfl
  | some r =>
    rw [Option.map_some, Option.map_some, h.podsOf_owned hst (mem_owners_of_reader hrd hheld)]

theorem PodCache.Reachable.hands (h : c.Reachable) (hst : c.step a = some c') :
    c.readers.map (fun rd => rd.held.map c'.podsOf) = c.board.hands :=
  List.map_congr_left fun _ hrd => h.hand hst hrd

theorem PodCache.Reachable.hands_set (h : c.Reachable) (hst : c.step a = some c') {t : Nat}
    {rd : Reader} (hset : c'.readers = c.readers.set t rd) :
    c'.board.hands = c.board.hands.set t (rd.held.map c'.podsOf) := by
  rw [← h.hands hst, ← List.map_set, ← hset]
  rfl

theorem PodCache.Reachable.posted (h : c.Reachable) (hst : c.step a = some c')
    (hcur : c'.current = c.current) : c'.board.posted = c.board.posted := by
  simp only [PodCache.board, hcur]
  cases hc : c.current with
  | none => rfl
  | some r =>
    obtain ⟨-, hat, hpods⟩ := h.content_step hst (h.inv.owned (mem_owners_of_current hc)).1
    rw [Option.map_some, Option.map_some, hat, hpods]

/-- A step that neither writes what is posted nor is about a reader is not seen. -/
theorem PodCache.Reachable.board_same (h : c.Reachable) (hst : c.step a = some c')
    (hclock : c'.clock = c.clock) (hage : c'.maxAge = c.maxAge) (hcur : c'.current = c.current)
    (hrd : c'.readers = c.readers) : c'.board = c.board := by
  refine Board.ext hclock hage (h.posted hst hcur) ?_
  rw [← h.hands hst, ← hrd]
  rfl

/-- A step of reader `t` is seen in its hands. -/
theorem PodCache.Reachable.board_set (h : c.Reachable) (hst : c.step a = some c')
    (hclock : c'.clock = c.clock) (hage : c'.maxAge = c.maxAge) (hcur : c'.current = c.current)
    {t : Nat} {rd : Reader} (hset : c'.readers = c.readers.set t rd) :
    c'.board = { c.board with hands := c.board.hands.set t (rd.held.map c'.podsOf) } :=
  Board.ext hclock hage (h.posted hst hcur) (h.hands_set hst hset)

theorem board_hand {t : Nat} {rd : Reader} (hrd : c.readers[t]? = some rd) :
    c.board.hands[t]? = some (rd.held.map c.podsOf) := by
  simp only [PodCache.board, List.getElem?_map, hrd, Option.map_some]

/-- **`pod_cache_acquire` offers what the board offers.** -/
theorem board_offer (c : PodCache) : c.board.offer = c.podCacheAcquire.2.map c.podsOf := by
  cases hcur : c.current with
  | none => simp only [Board.offer, PodCache.board, PodCache.podCacheAcquire, hcur, Option.map_none,
      Option.bind_none]
  | some r =>
    have hoffer : c.board.offer = if c.Refuses r then none else some (c.podsOf r) := by
      simp only [Board.offer, PodCache.board, hcur, Option.map_some, Option.bind_some]
      rfl
    rw [hoffer, podCacheAcquire_snd hcur]
    split <;> rfl

/-- What `publish` swaps in is accepted. -/
theorem PodCache.Reachable.board_swap (h : c.Reachable) {th : Refresher} {receivedAt : Int}
    {l : Nat} (hth : c.refresher = some th) (hpc : th.pc = .swapping receivedAt l)
    (hst : c.step a = some (c.swap th receivedAt l)) :
    c.board.step (.post ⟨(c.lists l).ips, receivedAt⟩) = some (c.swap th receivedAt l).board := by
  have haccepts : c.board.Accepts ⟨(c.lists l).ips, receivedAt⟩ := by
    obtain ⟨hle, hold⟩ := h.dated.next th receivedAt l hth hpc
    obtain ⟨-, ips, -, -, hips, hne⟩ := h.history.answered th l hth (by rw [hpc]; rfl)
    refine ⟨hips ▸ hne fun pods error => by rw [hpc]; simp, hle, fun q hq => ?_⟩
    obtain ⟨r, hcur, rfl⟩ := Option.map_eq_some_iff.mp hq
    exact hold r hcur
  rw [Board.step, if_pos haccepts]
  refine congrArg some (Board.ext rfl rfl ?_ (h.hands hst).symm)
  simp only [PodCache.board, PodCache.swap, PodCache.podsOf, Option.map_some,
    Function.update_self]

/-- A reader takes a copy: of what is posted, or of nothing. -/
theorem board_take {t : Nat} {acquired : List Nat}
    (hrd : c.readers[t]? = some ⟨none, none, acquired⟩) :
    c.board.step (.take t) = some { c.board with hands := c.board.hands.set t c.board.offer } := by
  rw [Board.step, board_hand hrd]
  rfl

/-- A reader throws its copy away. -/
theorem PodCache.Reachable.board_drop (h : c.Reachable) (hst : c.step a = some c') {t r : Nat}
    {acquired : List Nat} {freeing : Option Nat}
    (hrd : c.readers[t]? = some ⟨some r, none, acquired⟩) (hclock : c'.clock = c.clock)
    (hage : c'.maxAge = c.maxAge) (hcur : c'.current = c.current)
    (hset : c'.readers = c.readers.set t ⟨none, freeing, acquired⟩) :
    c.board.step (.drop t) = some c'.board := by
  rw [Board.step, board_hand hrd, h.board_set hst hclock hage hcur hset]
  rfl

/-- **Every step of the cache is one of the board**, and the same is noticed; or it is not seen
and nothing is noticed. -/
theorem PodCache.Reachable.board_step (h : c.Reachable) (hst : c.step a = some c') :
    c'.board = c.board ∧ c.notice a = none ∨
      ∃ b, c.board.step b = some c'.board ∧ c.board.notice b = c.notice a := by
  have hi := h.inv
  cases hi.move_of_step hst with
  | @tick ns => exact Or.inr ⟨.tick ns, rfl, rfl⟩
  | closingReset => exact Or.inl ⟨rfl, rfl⟩
  | closingBegin => exact Or.inl ⟨rfl, rfl⟩
  | start hs hmv =>
    cases hmv with
    | running hrun => exact Or.inl ⟨rfl, rfl⟩
    | noClient hrun => exact Or.inr ⟨.setAge c.environ.getPodsMaxAge, rfl, rfl⟩
    | noThread hrun => exact Or.inr ⟨.setAge c.environ.getPodsMaxAge, rfl, rfl⟩
    | started hrun => exact Or.inr ⟨.setAge c.environ.getPodsMaxAge, rfl, rfl⟩
  | stop hmv =>
    cases hmv with
    | detach hs => exact Or.inr ⟨.clear, rfl, rfl⟩
    | _ => exact Or.inl ⟨h.board_same hst rfl rfl rfl rfl, rfl⟩
  | spawnReader =>
    refine Or.inr ⟨.join, congrArg some (Board.ext rfl rfl rfl ?_), rfl⟩
    simp only [PodCache.board, List.map_append]
    rfl
  | @refused t acquired hrd hacq =>
    have hoffer : c.board.offer = none := by
      rw [board_offer, hacq]
      rfl
    refine Or.inr ⟨.take t, ?_, by rw [Board.notice, board_offer, PodCache.notice]⟩
    rw [board_take hrd, hoffer]
    refine congrArg some (Board.ext rfl rfl rfl ?_)
    exact List.set_eq_self (board_hand hrd)
  | @acquired t r acquired hrd hcur hfresh =>
    have hoffer : c.board.offer = some (c.podsOf r) := by
      have hno : ¬ c.Refuses r := hfresh
      rw [board_offer, podCacheAcquire_snd hcur, if_neg hno, Option.map_some]
    refine Or.inr ⟨.take t, ?_, by rw [Board.notice, board_offer, PodCache.notice]⟩
    rw [board_take hrd, h.board_set hst rfl rfl rfl rfl, hoffer, Option.map_some,
      h.podsOf_owned hst (mem_owners_of_current hcur)]
  | @read t r acquired hrd =>
    refine Or.inr ⟨.look t, ?_, ?_⟩
    · rw [Board.step, board_hand hrd]
      rfl
    · rw [Board.notice, board_hand hrd, PodCache.notice, hrd]
      rfl
  | @releasedLast t r acquired hrd h0 =>
    exact Or.inr ⟨.drop t, h.board_drop hst hrd rfl rfl rfl rfl, rfl⟩
  | @released t r acquired hrd h0 =>
    exact Or.inr ⟨.drop t, h.board_drop hst hrd rfl rfl rfl rfl, rfl⟩
  | @freed t r acquired hrd =>
    refine Or.inl ⟨?_, rfl⟩
    rw [h.board_set hst rfl rfl rfl rfl]
    refine Board.ext rfl rfl rfl ?_
    exact List.set_eq_self (board_hand hrd)
  | refresher hth hmv =>
    obtain ⟨hf, hrd, -⟩ := hi.refresher_frame hmv
    rcases hi.refresher_quiet hth hmv with hq | ⟨receivedAt, l, hpc, rfl⟩
    · exact Or.inl ⟨h.board_same hst hf.clock hf.maxAge hq.current hrd, rfl⟩
    · exact Or.inr ⟨_, h.board_swap hth hpc hst, rfl⟩
  | _ => exact Or.inl ⟨h.board_same hst rfl rfl rfl rfl, rfl⟩

/-- **Counting references is copying lists.**  All that the readers notice of a run of the cache,
the lists with it, they notice of a run of a board, which shows in the end what the cache does. -/
theorem counting_is_copying (c c' : PodCache) (h : c.Reachable) (as : List CacheAct)
    (htrace : Lts.Trace PodCache.step Lts.free c as c') :
    ∃ bs, Lts.Trace Board.step Lts.free c.board bs c'.board ∧
      Lts.noticed Board.step Board.notice c.board bs =
        Lts.noticed PodCache.step PodCache.notice c as := by
  refine Lts.Trace.noticed_eq (I := fun d => d.Reachable) (π := PodCache.board) ?_ htrace h
  intro d a d' hd _ hst
  exact ⟨hd.next hst, hd.board_step hst⟩

/-- The pod has come back under another address. -/
def movedPod : Answer :=
  { onePod (some (ascii "prod")) with
    body := .data (some
      (.object [(ascii "items", .array
        [.object [(ascii "status", .object [(ascii "podIP", .string (ascii "10.0.0.8"))])]])])) }

/-- A reader holds the list of the first round while the second round replaces it. -/
def listReplaced : List CacheAct :=
  firstRound ++
    [.refresher, .acquire 0, .refresher, .refresher, .tick 10000000000, .refresher, .refresher,
      .fetchEnds movedPod, .refresher, .publishAlloc true, .refresher, .refresher, .read 0,
      .release 0, .free 0, .acquire 0]

/-- It reads the list it was given, and is given the other one when it asks again. -/
theorem counting_is_copying_listReplaced :
    ∃ b bs, Lts.Trace Board.step Lts.free (PodCache.init {} 0).board bs b ∧
      Lts.noticed Board.step Board.notice (PodCache.init {} 0).board bs =
        [.given 0 (some [ascii "10.0.0.7"]), .reads 0 [ascii "10.0.0.7"], .givesBack 0,
          .given 0 (some [ascii "10.0.0.8"])] := by
  have hend : (Lts.execIf PodCache.step (fun _ _ => true) (PodCache.init {} 0) listReplaced).map
      (·.nextSnap) = some 2 := by decide +kernel
  have hseen : Lts.noticed PodCache.step PodCache.notice (PodCache.init {} 0) listReplaced =
      [.given 0 (some [ascii "10.0.0.7"]), .reads 0 [ascii "10.0.0.7"], .givesBack 0,
        .given 0 (some [ascii "10.0.0.8"])] := by decide +kernel
  obtain ⟨c', hc', -⟩ := Option.map_eq_some_iff.mp hend
  have htrace := Lts.trace_of_execIf (fun _ _ _ => trivial) hc'
  obtain ⟨bs, hbs, hnotice⟩ := counting_is_copying (PodCache.init {} 0) c'
    (Lts.Reachable.of_init ⟨{}, 0, rfl⟩) listReplaced htrace
  exact ⟨c'.board, bs, hbs, hnotice.trans hseen⟩

end Board

end Unicaster
