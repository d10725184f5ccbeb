/-
# How much there is of the pod list

A slow sender keeps the list it has acquired, and the refresher brings a new one every time, so
old lists could pile up behind the senders.  They do not: a snapshot lives only while a slot of
the ledger holds it, and there are few.  The refresher has one list at most, in flight, detached
or dying; the same holds of `pod_cache_stop`, which begins only when there is no refresher; and a
sender that was joined holds nothing.
-/
import Unicaster.Listed
import Unicaster.Lib.Refcount

namespace Unicaster

open CLib Refcount

/-! ## 1. The cells that are not freed -/

namespace PodCache

variable (c : PodCache)

def liveSnaps : List Nat := (List.range c.nextSnap).filter fun r => c.snapLive r

def liveLists : List Nat := (List.range c.nextList).filter fun l => c.listLive l

/-- The readers that hold a snapshot. -/
def holding : Nat := c.readers.countP (·.held.isSome)

/-- The readers that are about to free one. -/
def burying : Nat := c.readers.countP (·.freeing.isSome)

end PodCache

/-- A slot that is full counts. -/
def full (slot : Option Nat) : Nat := if slot.isSome then 1 else 0

theorem full_le (slot : Option Nat) : full slot ≤ 1 := by
  unfold full
  split <;> omega

theorem full_eq_length (slot : Option Nat) : slot.toList.length = full slot := by
  cases slot <;> rfl

/-- What the refresher has in hand is one thing at a time. -/
theorem RefresherPc.one_slot (pc : RefresherPc) :
    full pc.inFlight + full pc.slot + full pc.dying ≤ 1 := by
  cases pc with
  | fetched pods error => exact full_le pods
  | releasing previous =>
    change 0 + full previous + 0 ≤ 1
    rw [Nat.zero_add, Nat.add_zero]
    exact full_le previous
  | _ => simp [RefresherPc.inFlight, RefresherPc.slot, RefresherPc.dying, full]

theorem StopPc.one_slot (pc : StopPc) : full pc.slot + full pc.dying ≤ 1 := by
  cases pc with
  | release previous => exact full_le previous
  | _ => simp [StopPc.slot, StopPc.dying, full]

section Cells

variable {c : PodCache} {r l : Nat}

theorem mem_liveSnaps : r ∈ c.liveSnaps ↔ r < c.nextSnap ∧ (c.snaps r).frees = 0 := by
  simp only [PodCache.liveSnaps, PodCache.snapLive, List.mem_filter, List.mem_range,
    decide_eq_true_eq]
  exact and_iff_right_of_imp And.left

theorem mem_liveLists : l ∈ c.liveLists ↔ l < c.nextList ∧ (c.lists l).frees = 0 := by
  simp only [PodCache.liveLists, PodCache.listLive, List.mem_filter, List.mem_range,
    decide_eq_true_eq]
  exact and_iff_right_of_imp And.left

theorem countP_map_held (c : PodCache) :
    (c.readers.map (·.held)).countP (·.isSome) = c.holding := by
  rw [List.countP_map]
  rfl

theorem countP_map_freeing (c : PodCache) :
    (c.readers.map (·.freeing)).countP (·.isSome) = c.burying := by
  rw [List.countP_map]
  rfl

/-- The slots outside the readers that hold a snapshot or, in the refresher, a list. -/
def PodCache.slots (c : PodCache) : Nat :=
  full c.current + (full (c.refresher.bind (·.pc.slot)) + full (c.refresher.bind (·.pc.dying))) +
    (full c.stopper.slot + full c.stopper.dying)

/-- **Every live snapshot fills a slot.** -/
theorem CacheInv.liveSnaps_le (h : CacheInv c) :
    c.liveSnaps.length ≤ c.slots + (c.holding + c.burying) := by
  have hle := h.sound.live_le c.liveSnaps (List.nodup_range.filter _) fun r hr =>
    mem_liveSnaps.mp hr
  simp only [PodCache.ledger, PodCache.owners, PodCache.dying, List.countP_cons, countP_map_held,
    countP_map_freeing] at hle
  unfold PodCache.slots full
  omega

/-- **Every live list is in flight or that of a live snapshot.** -/
theorem CacheInv.liveLists_le (h : CacheInv c) :
    c.liveLists.length ≤ full c.inFlight + c.liveSnaps.length := by
  have hsub : c.liveLists ⊆ c.inFlight.toList ++ c.liveSnaps.map fun r => (c.snaps r).pods := by
    intro l hl
    obtain ⟨hlt, h0⟩ := mem_liveLists.mp hl
    rcases (h.list_frees hlt).2.mp h0 with hin | ⟨r, hr, rfl, hr0⟩
    · exact List.mem_append_left _ (by rw [hin]; exact List.mem_singleton.mpr rfl)
    · exact List.mem_append_right _ (List.mem_map_of_mem (mem_liveSnaps.mpr ⟨hr, hr0⟩))
  have hle := (List.subperm_of_subset (List.nodup_range.filter _) hsub).length_le
  rwa [List.length_append, List.length_map, full_eq_length] at hle

/-- The refresher and `pod_cache_stop` have one list between them. -/
theorem CacheInv.slots_le (h : CacheInv c) : full c.inFlight + c.slots ≤ 2 := by
  have hcur := full_le c.current
  have hstop := c.stopper.one_slot
  unfold PodCache.slots PodCache.inFlight
  cases hth : c.refresher with
  | none =>
    simp only [Option.bind_none]
    unfold full at *
    simp only [Option.isSome_none, Bool.false_eq_true, if_false]
    omega
  | some th =>
    have hidle := (h.alive (by rw [hth]; rfl)).2
    have hone := th.pc.one_slot
    simp only [Option.bind_some, hidle]
    have hno : full StopPc.idle.slot + full StopPc.idle.dying = 0 := rfl
    omega

end Cells

/-! ## 2. The senders -/

section Senders

variable {s : System}

/-- A sender holds nothing, or it is about to free nothing. -/
theorem SenderPc.Reads.not_both {pc : SenderPc} {held dying : Option Nat}
    (h : pc.Reads held dying) : held.isSome = true → dying.isSome = false := by
  intro hheld
  cases pc with
  | sending l =>
    rw [h.2]
    rfl
  | reporting l =>
    rw [h.2]
    rfl
  | releasing l =>
    rw [h.2]
    rfl
  | _ =>
    rw [h.1] at hheld
    exact absurd hheld (by simp)

/-- Who holds or frees a snapshot is a sender that is not joined. -/
theorem System.Reachable.holding_le (h : s.Reachable) :
    s.cache.holding + s.cache.burying ≤ s.statics.threadCount := by
  have hl := h.life
  have hlen := h.senders.length
  have hcount := hl.count_le
  have hreader : ∀ (t : Nat) rd, s.cache.readers[t]? = some rd → ∃ th : Sender,
      s.senders[t]? = some th ∧ th.pc.Reads rd.held rd.freeing := by
    intro t rd hrd
    have hlt : t < s.senders.length := by
      rw [← hlen]
      exact (List.getElem?_eq_some_iff.mp hrd).1
    have hth := List.getElem?_eq_getElem hlt
    obtain ⟨rd', hrd', hreads⟩ := (h.senders.sender t _ hth).reader
    obtain rfl := Option.some.inj (hrd.symm.trans hrd')
    exact ⟨_, hth, hreads⟩
  have hle := List.countP_add_countP_le (l := s.cache.readers)
    (p := fun rd => rd.held.isSome) (q := fun rd => rd.freeing.isSome)
    (n := s.senders.length - s.statics.threadCount) (fun t rd hrd hlt => ?_) fun rd hm => ?_
  · unfold PodCache.holding PodCache.burying
    omega
  · obtain ⟨th, hth, hreads⟩ := hreader t rd hrd
    have hset : t < s.settled := Nat.lt_of_lt_of_le hlt (Nat.le_add_right _ _)
    rw [(hl.joined t th hth hset).2] at hreads
    rw [hreads.1, hreads.2]
    exact ⟨rfl, rfl⟩
  · obtain ⟨t, ht⟩ := List.getElem?_of_mem hm
    obtain ⟨th, -, hreads⟩ := hreader t rd ht
    exact hreads.not_both

/-- No list has more than `MAX_PODS` addresses, published or not. -/
theorem PodCache.Reachable.ips_length_le {c : PodCache} (h : c.Reachable) {l : Nat}
    (hl : l ∈ c.liveLists) : (c.lists l).ips.length ≤ maxPods := by
  obtain ⟨hlt, h0⟩ := mem_liveLists.mp hl
  rcases (h.inv.list_frees hlt).2.mp h0 with hin | ⟨r, hr, rfl, -⟩
  · unfold PodCache.inFlight at hin
    obtain ⟨th, hth, hfl⟩ := Option.bind_eq_some_iff.mp hin
    obtain ⟨a, ips, -, hok, hips, -⟩ := h.history.answered th l hth hfl
    obtain ⟨-, -, -, root, items, -, -, hexact⟩ := podListFetch_exact hok
    rw [hips]
    exact hexact.short.trans (Nat.min_le_right _ _)
  · exact h.podsOf_length_le hr

/-- **The memory of the pod lists is bounded**, over any number of refreshes and of loads and for
any schedule: there are never more of them than senders and two, nor of their snapshots, and each
has `MAX_PODS` addresses at most. -/
theorem memory_bounded (s : System) (h : s.Reachable) :
    s.cache.liveSnaps.length ≤ s.statics.threadCount + 2 ∧
      s.cache.liveLists.length ≤ s.statics.threadCount + 2 ∧
      (s.cache.liveLists.map fun l => (s.cache.lists l).ips.length).sum ≤
        (s.statics.threadCount + 2) * maxPods := by
  have hi := h.cache.inv
  have hsnaps := hi.liveSnaps_le
  have hlists := hi.liveLists_le
  have hslots := hi.slots_le
  have hheld := h.holding_le
  have hcount : s.cache.liveLists.length ≤ s.statics.threadCount + 2 := by omega
  refine ⟨by omega, hcount, ?_⟩
  have hsum := List.sum_map_le_of_settled (fun l => (s.cache.lists l).ips.length) (n := 0)
    (fun t l _ hlt => absurd hlt (Nat.not_lt_zero t)) fun l hl => h.cache.ips_length_le hl
  exact hsum.trans (Nat.mul_le_mul_right _ hcount)

/-- The sender is slow: it keeps the list of the first round while two more are fetched, the last
of which has just been swapped in. -/
def slowSender : List Act :=
  let wake : List Act := [.tick 10000000000, .refresher]
  startUp ++ refreshRound ++ [senderOk, senderOk, senderOk] ++ wake ++ refreshRound ++ wake ++
    refreshRound.take 5

/-- One sender and three lists: one it holds, one is current, one is about to be dropped. -/
theorem memory_bounded_slowSender :
    ∃ s : System, s.cache.liveLists.length = 3 ∧ s.statics.threadCount = 1 ∧
      s.cache.liveLists.length ≤ 1 + 2 := by
  have hend : (Lts.exec System.step (System.init {} 0 (portsConfig (ascii "6379") (ascii "0")))
      slowSender).map (fun s => (s.cache.liveLists.length, s.statics.threadCount)) =
        some (3, 1) := by decide +kernel
  obtain ⟨s, hs, hview⟩ := Option.map_eq_some_iff.mp hend
  obtain ⟨hlists, hcount⟩ := Prod.mk.inj hview
  have hreach : s.Reachable := Lts.reachable_of_exec ⟨{}, 0, _, rfl⟩ hs
  obtain ⟨-, hle, -⟩ := memory_bounded s hreach
  rw [hcount] at hle
  exact ⟨s, hlists, hcount, hle⟩

end Senders

end Unicaster
