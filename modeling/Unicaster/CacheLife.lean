/-
# Starting and stopping the cache

What `pod_cache_start` creates, `pod_cache_stop` undoes, whatever happens in between: a client is
destroyed once, a refresher is joined once, and the client only after its refresher.  The
counts in `clients` and `refreshers` are read off the place of the stopper (`CacheBooks`).
-/
import Unicaster.CacheSteps
import Unicaster.Lib.Lists

namespace Unicaster

open CLib

/-! ## 1. The books -/

/-- What is left of a started cache, at each place of `pod_cache_stop`. -/
def StopPlace (c : PodCache) : StopPc → Prop
  | .idle => c.refresherRunning = false → c.client = none ∧ c.current = none
  | .destroy => c.refresherRunning = false
  | .detach => c.refresherRunning = false ∧ c.client = none
  | .release _ => c.refresherRunning = false ∧ c.client = none ∧ c.current = none
  | .free _ => c.refresherRunning = false ∧ c.client = none ∧ c.current = none

structure CacheBooks (c : PodCache) : Prop where
  /-- every client but the one in use was destroyed once -/
  clients : ∀ k n, c.clients[k]? = some n → n = if c.client = some k then 0 else 1
  client_lt : ∀ k, c.client = some k → k < c.clients.length
  /-- every refresher but the one that runs was joined once -/
  refreshers : ∀ k n, c.refreshers[k]? = some n →
    n = if c.refresherRunning = true ∧ k + 1 = c.refreshers.length then 0 else 1
  refreshers_pos : c.refresherRunning = true → 0 < c.refreshers.length
  place : StopPlace c c.stopper
  maxAge : c.refresherRunning = true → c.maxAge = c.environ.getPodsMaxAge

section Books

variable {c c' : PodCache}

/-- A step that leaves the main thread's variables and `current` alone. -/
theorem CacheBooks.frame (h : CacheBooks c) (hf : Frame c c')
    (hcur : c'.current = c.current ∨ c.refresherRunning = true ∧ c.stopper = .idle) :
    CacheBooks c' := by
  refine ⟨?_, ?_, ?_, ?_, ?_, ?_⟩
  · rw [hf.clients, hf.client]
    exact h.clients
  · rw [hf.clients, hf.client]
    exact h.client_lt
  · rw [hf.refreshers, hf.refresherRunning]
    exact h.refreshers
  · rw [hf.refreshers, hf.refresherRunning]
    exact h.refreshers_pos
  · have hp := h.place
    rw [hf.stopper]
    rcases hcur with hcur | ⟨hrun, hidle⟩
    · cases hs : c.stopper <;> rw [hs] at hp <;>
        simpa only [StopPlace, hf.refresherRunning, hf.client, hcur] using hp
    · rw [hidle]
      intro hno
      rw [hf.refresherRunning, hrun] at hno
      exact absurd hno (by simp)
  · rw [hf.refresherRunning, hf.maxAge, hf.environ]
    exact h.maxAge

/-- A step of the flag or of the clock, or a new reader. -/
theorem CacheBooks.aside (h : CacheBooks c) (hcl : c'.clients = c.clients)
    (hc : c'.client = c.client) (hre : c'.refreshers = c.refreshers)
    (hrun : c'.refresherRunning = c.refresherRunning) (hst : c'.stopper = c.stopper)
    (hcur : c'.current = c.current)
    (hmax : c.refresherRunning = true → c'.maxAge = c'.environ.getPodsMaxAge) :
    CacheBooks c' := by
  refine ⟨?_, ?_, ?_, ?_, ?_, fun hr => hmax (hrun ▸ hr)⟩
  · rw [hcl, hc]
    exact h.clients
  · rw [hcl, hc]
    exact h.client_lt
  · rw [hre, hrun]
    exact h.refreshers
  · rw [hre, hrun]
    exact h.refreshers_pos
  · have hp := h.place
    rw [hst]
    cases hs : c.stopper <;> rw [hs] at hp <;> simpa only [StopPlace, hrun, hc, hcur] using hp

/-- `pod_list_client_destroy`, on the client in use. -/
theorem CacheBooks.destroyed (h : CacheBooks c) (k n : Nat)
    (hk : c.podListClientDestroy.clients[k]? = some n) : n = 1 := by
  unfold PodCache.podListClientDestroy at hk
  cases hc : c.client with
  | none =>
    rw [hc] at hk
    have := h.clients k n hk
    rw [hc] at this
    simpa using this
  | some j =>
    simp only [hc] at hk
    have hlt := h.client_lt j hc
    have hj : c.clients.getD j 0 = 0 := by
      have hget : c.clients[j]? = some c.clients[j] := List.getElem?_eq_getElem hlt
      have := h.clients j _ hget
      rw [if_pos hc] at this
      rw [List.getD_eq_getElem?_getD, hget, Option.getD_some]
      exact this
    rcases List.getElem?_set_cases hk with ⟨hne, hk⟩ | ⟨-, hn, -⟩
    · have := h.clients k n hk
      rw [hc] at this
      rw [this, if_neg fun e => hne (Option.some.inj e).symm]
    · rw [hn, hj]

/-- `pod_cache_start`: one more client and one more refresher, or neither. -/
theorem CacheBooks.started (h : CacheBooks c) (hs : c.stopper = .idle)
    {clientOk threadOk ok : Bool} (hmv : StartMove c clientOk threadOk c' ok) :
    CacheBooks c' := by
  have hempty : c.refresherRunning = false → c.client = none ∧ c.current = none := fun hrun => by
    have hplace := h.place
    rw [hs] at hplace
    exact hplace hrun
  have hall : c.refresherRunning = false → ∀ (k n : Nat), c.clients[k]? = some n → n = 1 := by
    intro hrun k n hk
    have hn := h.clients k n hk
    rw [(hempty hrun).1] at hn
    simpa using hn
  have hjoined : c.refresherRunning = false → ∀ (k n : Nat), c.refreshers[k]? = some n → n = 1 := by
    intro hrun k n hk
    have hn := h.refreshers k n hk
    rw [hrun] at hn
    simpa using hn
  cases hmv with
  | running hrun => exact h
  | noClient hrun =>
    exact h.aside rfl rfl rfl rfl rfl rfl fun hr => absurd (hrun.symm.trans hr) (by simp)
  | noThread hrun =>
    refine ⟨fun k n hk => ?_, fun k hk => absurd hk (by simp), h.refreshers, h.refreshers_pos, ?_,
      fun hr => absurd (hrun.symm.trans hr) (by simp)⟩
    · rw [if_neg (by simp)]
      rcases List.getElem?_concat_cases hk with ⟨-, hk⟩ | ⟨-, hn⟩
      · exact hall hrun k n hk
      · exact hn
    · simp only [hs]
      exact fun _ => ⟨rfl, (hempty hrun).2⟩
  | started hrun =>
    refine ⟨fun k n hk => ?_, fun k hk => ?_, fun k n hk => ?_, fun _ => by simp, ?_,
      fun _ => rfl⟩
    · rcases List.getElem?_concat_cases (l := c.clients) hk with ⟨hlt, hk⟩ | ⟨rfl, rfl⟩
      · rw [hall hrun k n hk, if_neg]
        intro he
        have hkl : c.clients.length = k := Option.some.inj he
        omega
      · exact (if_pos rfl).symm
    · have hkl : c.clients.length = k := Option.some.inj hk
      change k < (c.clients ++ [0]).length
      rw [List.length_append, List.length_singleton]
      omega
    · change n = if true = true ∧ k + 1 = (c.refreshers ++ [0]).length then 0 else 1
      rw [List.length_append, List.length_singleton]
      rcases List.getElem?_concat_cases (l := c.refreshers) hk with ⟨hlt, hk⟩ | ⟨rfl, rfl⟩
      · rw [hjoined hrun k n hk, if_neg]
        rintro ⟨-, he⟩
        omega
      · rw [if_pos ⟨rfl, rfl⟩]
    · simp only [hs]
      exact fun hno => absurd hno (by simp)

/-- The refresher joined is the one that ran. -/
theorem CacheBooks.joined (h : CacheBooks c) (hrun : c.refresherRunning = true) (k n : Nat)
    (hk : (c.refreshers.set (c.refreshers.length - 1)
      (c.refreshers.getD (c.refreshers.length - 1) 0 + 1))[k]? = some n) : n = 1 := by
  have hpos := h.refreshers_pos hrun
  rcases List.getElem?_set_cases hk with ⟨hne, hk⟩ | ⟨-, hn, hlt⟩
  · rw [h.refreshers k n hk, if_neg]
    rintro ⟨-, he⟩
    omega
  · have hget : c.refreshers[c.refreshers.length - 1]?
        = some c.refreshers[c.refreshers.length - 1] := List.getElem?_eq_getElem hlt
    have h0 := h.refreshers _ _ hget
    rw [if_pos ⟨hrun, by omega⟩] at h0
    rw [hn, List.getD_eq_getElem?_getD, hget, Option.getD_some, h0]

/-- **`pod_cache_stop`**: first the refresher, then the client, then the list. -/
theorem CacheBooks.stopped (h : CacheBooks c) (hmv : StopMove c c') : CacheBooks c' := by
  have hp := h.place
  cases hmv with
  | join hs hrun hth hpc =>
    refine ⟨h.clients, h.client_lt, fun k n hk => ?_, fun hno => absurd hno (by simp), rfl,
      fun hno => absurd hno (by simp)⟩
    rw [if_neg (by simp)]
    exact h.joined hrun k n hk
  | noRefresher hs hrun =>
    exact ⟨h.clients, h.client_lt, h.refreshers, h.refreshers_pos, hrun, h.maxAge⟩
  | destroy hs hcl =>
    rw [hs] at hp
    have hone := h.destroyed
    rw [hcl] at hone
    refine ⟨fun k n hk => ?_, fun k hk => absurd hk (by simp), h.refreshers, h.refreshers_pos,
      ⟨hp, rfl⟩, h.maxAge⟩
    rw [if_neg (by simp)]
    exact hone k n hk
  | detach hs =>
    rw [hs] at hp
    exact ⟨h.clients, h.client_lt, h.refreshers, h.refreshers_pos, ⟨hp.1, hp.2, rfl⟩, h.maxAge⟩
  | noList hs =>
    rw [hs] at hp
    exact ⟨h.clients, h.client_lt, h.refreshers, h.refreshers_pos, fun _ => hp.2, h.maxAge⟩
  | dropLast hs h0 =>
    rw [hs] at hp
    exact ⟨h.clients, h.client_lt, h.refreshers, h.refreshers_pos, hp, h.maxAge⟩
  | drop hs h0 =>
    rw [hs] at hp
    exact ⟨h.clients, h.client_lt, h.refreshers, h.refreshers_pos, fun _ => hp.2, h.maxAge⟩
  | free hs =>
    rw [hs] at hp
    exact ⟨h.clients, h.client_lt, h.refreshers, h.refreshers_pos, fun _ => hp.2, h.maxAge⟩

theorem CacheBooks.step (h : CacheBooks c) (hi : CacheInv c) {a : CacheAct}
    (hst : c.step a = some c') : CacheBooks c' := by
  cases hi.move_of_step hst with
  | tick => exact h.aside rfl rfl rfl rfl rfl rfl h.maxAge
  | closingReset => exact h.aside rfl rfl rfl rfl rfl rfl h.maxAge
  | closingBegin => exact h.aside rfl rfl rfl rfl rfl rfl h.maxAge
  | start hs hmv => exact h.started hs hmv
  | stop hmv => exact h.stopped hmv
  | spawnReader => exact h.aside rfl rfl rfl rfl rfl rfl h.maxAge
  | refresher hth hmv =>
    have hsome : c.refresher.isSome = true := by rw [hth]; rfl
    exact h.frame (hi.refresher_frame hmv).1
      (Or.inr ⟨hi.running.trans hsome, (hi.alive hsome).2⟩)
  | _ => exact h.frame rfl (Or.inl rfl)

theorem CacheBooks.init (h : c.Initial) : CacheBooks c := by
  obtain ⟨e, clock, rfl⟩ := h
  exact ⟨fun k n hk => absurd hk (by simp [PodCache.init]),
    fun k hk => absurd hk (by simp [PodCache.init]),
    fun k n hk => absurd hk (by simp [PodCache.init]),
    fun hno => absurd hno (by simp [PodCache.init]), fun _ => ⟨rfl, rfl⟩,
    fun hno => absurd hno (by simp [PodCache.init])⟩

theorem PodCache.Reachable.books (h : c.Reachable) : CacheBooks c := by
  have hboth : CacheInv c ∧ CacheBooks c :=
    Lts.Reachable.invariant (I := fun d => CacheInv d ∧ CacheBooks d) h
      (fun _ h0 => ⟨CacheInv.init h0, CacheBooks.init h0⟩)
      fun _ _ _ hi hst => ⟨hi.1.step hst, hi.2.step hi.1 hst⟩
  exact hboth.2

end Books

end Unicaster
