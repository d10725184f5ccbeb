/-
# The closing signal (`closing.c`)

Any number of threads call `closing_sleep` and `closing_begin`, under one mutex and one condition
variable.  Every access of the flag, every operation on the mutex and the wait are steps of their
own.  A thread that waits is notified by the broadcast of `closing_begin`, or wakes up of itself
at any time, or times out once its deadline has come; behind each of these it takes the mutex
again before `pthread_cond_timedwait` returns.

`closing_reset` is possible only while no thread is in `closing_sleep`, as `closing.h` asks.
`pthread_once` sets up the condition variable before its first use and is no step here.

The modules that take `closing_sleep` as one place rely on what is proved here: it returns only
when the flag is set or the deadline has come.
-/
import Unicaster.PodCache
import Unicaster.Lib.Monitor

namespace Unicaster

open Monitor

/-! ## 1. The model -/

/-- Where a thread stands in `closing.c`. -/
inductive ClosingPc where
  /-- outside; what its last `closing_sleep` returned -/
  | out (returned : Option Bool)
  /-- in `closing_sleep`, at `pthread_mutex_lock` -/
  | entering (deadline : Int)
  /-- at the test of the loop -/
  | testing (deadline : Int)
  /-- at `pthread_cond_timedwait` -/
  | waits (deadline : Int)
  /-- at `pthread_mutex_unlock` -/
  | leaving (deadline : Int)
  /-- at the last `atomic_load` -/
  | answering (deadline : Int)
  /-- in `closing_begin`, at `pthread_mutex_lock` -/
  | beginning
  /-- at `atomic_store` -/
  | storing
  /-- at `pthread_cond_broadcast` -/
  | broadcasting
  /-- at `pthread_mutex_unlock` -/
  | ending
  deriving DecidableEq

/-- The place is inside `closing_sleep`, up to its last load. -/
def SleepsAt : Place ClosingPc → Bool
  | .code (.entering _) => true
  | .code (.testing _) => true
  | .code (.waits _) => true
  | .code (.leaving _) => true
  | .code (.answering _) => true
  | .code _ => false
  | .waiting _ => true
  | .woken _ _ => true

/-- The place is inside the critical section of `closing_begin`. -/
def ClosingPc.InBegin : ClosingPc → Prop
  | .storing => True
  | .broadcasting => True
  | .ending => True
  | _ => False

/-- The mutex is held there. -/
def ClosingPc.Holds : ClosingPc → Prop
  | .testing _ => True
  | .waits _ => True
  | .leaving _ => True
  | .storing => True
  | .broadcasting => True
  | .ending => True
  | _ => False

structure Closing where
  /-- the flag `closing` -/
  closing : Bool
  /-- `CLOCK_MONOTONIC`, in nanoseconds -/
  clock : Int
  monitor : Monitor ClosingPc

/-- `n` threads outside, before anything has happened. -/
def Closing.init (n : Nat) (clock : Int) : Closing where
  closing := false
  clock := clock
  monitor := ⟨none, List.replicate n (.code (.out none))⟩

namespace Closing

variable (s : Closing)

/-- The next step of thread `t` in its code, or on its way back from a wait. -/
def go (t : Nat) : Option Closing :=
  match s.monitor.places[t]? with
  | some (.code (.entering deadline)) =>
    (s.monitor.lock t (.testing deadline)).map fun m => { s with monitor := m }
  | some (.code (.testing deadline)) =>
    if s.closing then some { s with monitor := s.monitor.goto t (.leaving deadline) }
    else some { s with monitor := s.monitor.goto t (.waits deadline) }
  | some (.code (.waits deadline)) => some { s with monitor := s.monitor.wait t deadline }
  | some (.woken deadline timedOut) =>
    (s.monitor.lock t (if timedOut then .leaving deadline else .testing deadline)).map
      fun m => { s with monitor := m }
  | some (.code (.leaving deadline)) =>
    some { s with monitor := s.monitor.unlock t (.answering deadline) }
  | some (.code (.answering _)) =>
    some { s with monitor := s.monitor.goto t (.out (some s.closing)) }
  | some (.code .beginning) =>
    (s.monitor.lock t .storing).map fun m => { s with monitor := m }
  | some (.code .storing) =>
    some { s with closing := true, monitor := s.monitor.goto t .broadcasting }
  | some (.code .broadcasting) =>
    some { s with monitor := s.monitor.broadcast.goto t .ending }
  | some (.code .ending) => some { s with monitor := s.monitor.unlock t (.out none) }
  | _ => none

/-- A thread outside goes in. -/
def call (t : Nat) (pc : ClosingPc) : Option Closing :=
  match s.monitor.places[t]? with
  | some (.code (.out _)) => some { s with monitor := s.monitor.goto t pc }
  | _ => none

/-- Thread `t` stops waiting without a notification. -/
def wakeUp (t : Nat) (timedOut : Bool) : Option Closing :=
  match s.monitor.places[t]? with
  | some (.waiting deadline) =>
    if timedOut = true ∧ s.clock < deadline then none
    else some { s with monitor := s.monitor.wake t deadline timedOut }
  | _ => none

end Closing

inductive ClosingAct where
  | tick (ns : Nat)
  /-- thread `t` calls `closing_sleep`, and reads the clock -/
  | sleep (t : Nat) (seconds : Int)
  /-- thread `t` calls `closing_begin` -/
  | begins (t : Nat)
  | go (t : Nat)
  /-- a spurious wake-up -/
  | spurious (t : Nat)
  | timeOut (t : Nat)
  /-- `closing_reset` -/
  | reset

namespace Closing

/-- What an action does, or `none` where it is not possible. -/
def step (s : Closing) : ClosingAct → Option Closing
  | .tick ns => some { s with clock := s.clock + ns }
  | .sleep t seconds => s.call t (.entering (s.clock + seconds * nsPerSecond))
  | .begins t => s.call t .beginning
  | .go t => s.go t
  | .spurious t => s.wakeUp t false
  | .timeOut t => s.wakeUp t true
  | .reset =>
    if s.monitor.places.any SleepsAt then none else some { s with closing := false }

def Initial (s : Closing) : Prop := ∃ n clock, s = init n clock

abbrev Reachable (s : Closing) : Prop := Lts.Reachable step Initial s

end Closing

/-! ## 2. What a step can do -/

/-- **What a step of `closing.c` can do.** -/
inductive ClosingMove (s : Closing) : ClosingAct → Closing → Prop where
  | tick {ns : Nat} : ClosingMove s (.tick ns) { s with clock := s.clock + ns }
  | sleep {t : Nat} {seconds : Int} {r : Option Bool}
      (ht : s.monitor.places[t]? = some (.code (.out r))) :
      ClosingMove s (.sleep t seconds)
        { s with monitor := s.monitor.goto t (.entering (s.clock + seconds * nsPerSecond)) }
  | begins {t : Nat} {r : Option Bool} (ht : s.monitor.places[t]? = some (.code (.out r))) :
      ClosingMove s (.begins t) { s with monitor := s.monitor.goto t .beginning }
  /-- the mutex is taken -/
  | lock {t : Nat} {p : Place ClosingPc} {pc : ClosingPc} {m : Monitor ClosingPc}
      (ht : s.monitor.places[t]? = some p) (hl : s.monitor.lock t pc = some m)
      (hp : (∃ d, p = .code (.entering d) ∧ pc = .testing d) ∨
        (∃ d, p = .woken d false ∧ pc = .testing d) ∨
        (∃ d, p = .woken d true ∧ pc = .leaving d) ∨ p = .code .beginning ∧ pc = .storing) :
      ClosingMove s (.go t) { s with monitor := m }
  | test {t : Nat} {d : Int} (ht : s.monitor.places[t]? = some (.code (.testing d))) :
      ClosingMove s (.go t)
        { s with monitor := s.monitor.goto t (if s.closing then .leaving d else .waits d) }
  | wait {t : Nat} {d : Int} (ht : s.monitor.places[t]? = some (.code (.waits d))) :
      ClosingMove s (.go t) { s with monitor := s.monitor.wait t d }
  | leave {t : Nat} {d : Int} (ht : s.monitor.places[t]? = some (.code (.leaving d))) :
      ClosingMove s (.go t) { s with monitor := s.monitor.unlock t (.answering d) }
  | answer {t : Nat} {d : Int} (ht : s.monitor.places[t]? = some (.code (.answering d))) :
      ClosingMove s (.go t) { s with monitor := s.monitor.goto t (.out (some s.closing)) }
  | store {t : Nat} (ht : s.monitor.places[t]? = some (.code .storing)) :
      ClosingMove s (.go t)
        { s with closing := true, monitor := s.monitor.goto t .broadcasting }
  | broadcast {t : Nat} (ht : s.monitor.places[t]? = some (.code .broadcasting)) :
      ClosingMove s (.go t) { s with monitor := s.monitor.broadcast.goto t .ending }
  | finish {t : Nat} (ht : s.monitor.places[t]? = some (.code .ending)) :
      ClosingMove s (.go t) { s with monitor := s.monitor.unlock t (.out none) }
  | wake {t : Nat} {d : Int} {timedOut : Bool} {a : ClosingAct}
      (ht : s.monitor.places[t]? = some (.waiting d))
      (ha : a = if timedOut then .timeOut t else .spurious t)
      (hdue : timedOut = true → d ≤ s.clock) :
      ClosingMove s a { s with monitor := s.monitor.wake t d timedOut }
  | reset (hno : ∀ p ∈ s.monitor.places, SleepsAt p = false) :
      ClosingMove s .reset { s with closing := false }

section Moves

variable {s s' : Closing} {t : Nat}

theorem Closing.go_move (hst : s.go t = some s') : ClosingMove s (.go t) s' := by
  unfold Closing.go at hst
  split at hst
  · rename_i d ht
    obtain ⟨m, hl, rfl⟩ := Option.map_eq_some_iff.mp hst
    exact .lock ht hl (Or.inl ⟨d, rfl, rfl⟩)
  · rename_i d ht
    have heq := ClosingMove.test ht
    split at hst
    · rename_i hcl
      rw [if_pos hcl] at heq
      exact Option.some.inj hst ▸ heq
    · rename_i hcl
      rw [if_neg hcl] at heq
      exact Option.some.inj hst ▸ heq
  · rename_i d ht
    exact Option.some.inj hst ▸ .wait ht
  · rename_i d timedOut ht
    obtain ⟨m, hl, rfl⟩ := Option.map_eq_some_iff.mp hst
    cases timedOut with
    | false => exact .lock ht hl (Or.inr (Or.inl ⟨d, rfl, rfl⟩))
    | true => exact .lock ht hl (Or.inr (Or.inr (Or.inl ⟨d, rfl, rfl⟩)))
  · rename_i d ht
    exact Option.some.inj hst ▸ .leave ht
  · rename_i d ht
    exact Option.some.inj hst ▸ .answer ht
  · rename_i ht
    obtain ⟨m, hl, rfl⟩ := Option.map_eq_some_iff.mp hst
    exact .lock ht hl (Or.inr (Or.inr (Or.inr ⟨rfl, rfl⟩)))
  · rename_i ht
    exact Option.some.inj hst ▸ .store ht
  · rename_i ht
    exact Option.some.inj hst ▸ .broadcast ht
  · rename_i ht
    exact Option.some.inj hst ▸ .finish ht
  · exact absurd hst (by simp)

theorem Closing.wakeUp_move {timedOut : Bool} (hst : s.wakeUp t timedOut = some s') :
    ClosingMove s (if timedOut then .timeOut t else .spurious t) s' := by
  unfold Closing.wakeUp at hst
  split at hst
  · rename_i d ht
    split at hst
    · exact absurd hst (by simp)
    · rename_i hno
      exact Option.some.inj hst ▸ .wake ht rfl fun h => Int.not_lt.mp fun hlt => hno ⟨h, hlt⟩
  · exact absurd hst (by simp)

theorem Closing.call_eq {pc : ClosingPc} (hst : s.call t pc = some s') :
    ∃ r, s.monitor.places[t]? = some (.code (.out r)) ∧
      s' = { s with monitor := s.monitor.goto t pc } := by
  unfold Closing.call at hst
  split at hst
  · rename_i r ht
    exact ⟨r, ht, (Option.some.inj hst).symm⟩
  · exact absurd hst (by simp)

theorem Closing.move_of_step {a : ClosingAct} (hst : s.step a = some s') :
    ClosingMove s a s' := by
  cases a with
  | tick ns => exact Option.some.inj hst ▸ .tick
  | sleep t seconds =>
    obtain ⟨r, ht, rfl⟩ := Closing.call_eq hst
    exact .sleep ht
  | begins t =>
    obtain ⟨r, ht, rfl⟩ := Closing.call_eq hst
    exact .begins ht
  | go t => exact Closing.go_move hst
  | spurious t => exact Closing.wakeUp_move hst
  | timeOut t => exact Closing.wakeUp_move hst
  | reset =>
    simp only [Closing.step] at hst
    split at hst
    · exact absurd hst (by simp)
    · rename_i hno
      refine Option.some.inj hst ▸ .reset fun p hp => Bool.eq_false_iff.mpr fun hsl => hno ?_
      exact List.any_eq_true.mpr ⟨p, hp, hsl⟩

end Moves

/-! ## 3. The invariant -/

/-- **Why no signal is lost.** -/
structure ClosingInv (s : Closing) : Prop where
  held : Held ClosingPc.Holds s.monitor
  /-- the flag was clear when the wait began, and it was raised since only if the broadcast is
  about to come -/
  waiting : ∀ (t : Nat) (d : Int), s.monitor.places[t]? = some (.waiting d) →
    s.closing = false ∨ ∃ u : Nat, s.monitor.places[u]? = some (.code .broadcasting)
  /-- between the test and the wait the mutex is held -/
  waits : ∀ (t : Nat) (d : Int), s.monitor.places[t]? = some (.code (.waits d)) → s.closing = false
  /-- the loop is left for one of two reasons -/
  left : ∀ (t : Nat) (d : Int), s.monitor.places[t]? = some (.code (.leaving d)) ∨
    s.monitor.places[t]? = some (.code (.answering d)) → s.closing = true ∨ d ≤ s.clock
  timedOut : ∀ (t : Nat) (d : Int), s.monitor.places[t]? = some (.woken d true) → d ≤ s.clock

section Invariant

variable {s s' : Closing} {t : Nat}

/-- One thread moves, and it is not the one about to broadcast. -/
theorem ClosingInv.moved (h : ClosingInv s) {p p' : Place ClosingPc} {m : Monitor ClosingPc}
    (ht : s.monitor.places[t]? = some p) (hplaces : m.places = s.monitor.places.set t p')
    (hheld : Held ClosingPc.Holds m) (hp : p ≠ .code .broadcasting)
    (hclear : ∀ d, p' = .waiting d ∨ p' = .code (.waits d) → s.closing = false)
    (hleft : ∀ d, p' = .code (.leaving d) ∨ p' = .code (.answering d) →
      s.closing = true ∨ d ≤ s.clock)
    (htimed : ∀ d, p' = .woken d true → d ≤ s.clock) :
    ClosingInv { s with monitor := m } := by
  have hcases : ∀ {u : Nat} {q : Place ClosingPc}, m.places[u]? = some q →
      u ≠ t ∧ s.monitor.places[u]? = some q ∨ u = t ∧ q = p' ∧ t < s.monitor.places.length := by
    intro u q hu
    rw [hplaces] at hu
    exact List.getElem?_set_cases hu
  refine ⟨hheld, fun u d hu => ?_, fun u d hu => ?_, fun u d hu => ?_, fun u d hu => ?_⟩
  · rcases hcases hu with ⟨-, hu⟩ | ⟨-, hq, -⟩
    · refine (h.waiting u d hu).imp id fun ⟨v, hv⟩ => ⟨v, ?_⟩
      have hne : t ≠ v := by
        rintro rfl
        exact hp (Option.some.inj (ht.symm.trans hv))
      dsimp only
      rw [hplaces, List.getElem?_set_ne hne]
      exact hv
    · exact Or.inl (hclear d (Or.inl hq.symm))
  · rcases hcases hu with ⟨-, hu⟩ | ⟨-, hq, -⟩
    · exact h.waits u d hu
    · exact hclear d (Or.inr hq.symm)
  · rcases hu with hu | hu
    · rcases hcases hu with ⟨-, hu⟩ | ⟨-, hq, -⟩
      · exact h.left u d (Or.inl hu)
      · exact hleft d (Or.inl hq.symm)
    · rcases hcases hu with ⟨-, hu⟩ | ⟨-, hq, -⟩
      · exact h.left u d (Or.inr hu)
      · exact hleft d (Or.inr hq.symm)
  · rcases hcases hu with ⟨-, hu⟩ | ⟨-, hq, -⟩
    · exact h.timedOut u d hu
    · exact htimed d hq.symm

/-- The flag is raised under the mutex, so no thread is between its test and its wait. -/
theorem ClosingInv.store (h : ClosingInv s)
    (ht : s.monitor.places[t]? = some (.code .storing)) :
    ClosingInv { s with closing := true, monitor := s.monitor.goto t .broadcasting } := by
  have hnow : (s.monitor.goto t .broadcasting).places[t]? = some (.code .broadcasting) :=
    List.getElem?_set_eq ht _
  refine ⟨h.held.goto ht Iff.rfl, fun u d hu => Or.inr ⟨t, hnow⟩, fun u d hu => ?_,
    fun _ _ _ => Or.inl rfl, fun u d hu => ?_⟩
  · rcases List.getElem?_set_cases hu with ⟨hne, hu⟩ | ⟨-, hq, -⟩
    · exact absurd (h.held.unique ht hu trivial trivial).symm hne
    · exact absurd hq (by simp)
  · rcases List.getElem?_set_cases hu with ⟨-, hu⟩ | ⟨-, hq, -⟩
    · exact h.timedOut u d hu
    · exact absurd hq (by simp)

/-- Behind the broadcast nobody waits. -/
theorem ClosingInv.broadcast (h : ClosingInv s)
    (ht : s.monitor.places[t]? = some (.code .broadcasting)) :
    ClosingInv { s with monitor := s.monitor.broadcast.goto t .ending } := by
  have hheld : Held ClosingPc.Holds (s.monitor.broadcast.goto t .ending) :=
    h.held.broadcast.goto (broadcast_code.mpr ht) Iff.rfl
  -- at every place but this one a thread was there before
  have hcases : ∀ {u : Nat} {q : Place ClosingPc}, q ≠ .code .ending →
      (s.monitor.broadcast.goto t .ending).places[u]? = some q →
      s.monitor.broadcast.places[u]? = some q := by
    intro u q hq hu
    rcases List.getElem?_set_cases hu with ⟨-, hu⟩ | ⟨-, rfl, -⟩
    · exact hu
    · exact absurd rfl hq
  refine ⟨hheld, fun u d hu => ?_, fun u d hu => ?_, fun u d hu => ?_, fun u d hu => ?_⟩
  · exact absurd (hcases (by simp) hu) broadcast_not_waiting
  · exact h.waits u d (broadcast_code.mp (hcases (by simp) hu))
  · rcases hu with hu | hu
    · exact h.left u d (Or.inl (broadcast_code.mp (hcases (by simp) hu)))
    · exact h.left u d (Or.inr (broadcast_code.mp (hcases (by simp) hu)))
  · exact h.timedOut u d (broadcast_timedOut.mp (hcases (by simp) hu))

/-- **One step, whoever takes it.** -/
theorem ClosingInv.move (h : ClosingInv s) {a : ClosingAct} (hmv : ClosingMove s a s') :
    ClosingInv s' := by
  cases hmv with
  | @tick ns =>
    have hle : s.clock ≤ s.clock + ns := Int.le_add_of_nonneg_right (Int.natCast_nonneg ns)
    exact ⟨h.held, h.waiting, h.waits, fun u d hu => (h.left u d hu).imp id (le_trans · hle),
      fun u d hu => le_trans (h.timedOut u d hu) hle⟩
  | sleep ht =>
    exact h.moved ht rfl (h.held.goto ht Iff.rfl) (by simp) (by simp) (by simp) (by simp)
  | begins ht =>
    exact h.moved ht rfl (h.held.goto ht Iff.rfl) (by simp) (by simp) (by simp) (by simp)
  | lock ht hl hp =>
    rcases hp with ⟨d, rfl, rfl⟩ | ⟨d, rfl, rfl⟩ | ⟨d, rfl, rfl⟩ | ⟨rfl, rfl⟩
    · obtain ⟨hheld, -, rfl⟩ := h.held.lock ht hl trivial
      exact h.moved ht rfl hheld (by simp) (by simp) (by simp) (by simp)
    · obtain ⟨hheld, -, rfl⟩ := h.held.lock ht hl trivial
      exact h.moved ht rfl hheld (by simp) (by simp) (by simp) (by simp)
    · obtain ⟨hheld, -, rfl⟩ := h.held.lock ht hl trivial
      refine h.moved ht rfl hheld (by simp) (by simp) (fun d' hd => Or.inr ?_) (by simp)
      obtain rfl : d = d' := by simpa using hd
      exact h.timedOut _ _ ht
    · obtain ⟨hheld, -, rfl⟩ := h.held.lock ht hl trivial
      exact h.moved ht rfl hheld (by simp) (by simp) (by simp) (by simp)
  | @test t d ht =>
    have hsame : ClosingPc.Holds (if s.closing then .leaving d else .waits d) ↔
        ClosingPc.Holds (.testing d) := by
      split <;> exact Iff.rfl
    refine h.moved ht rfl (h.held.goto ht hsame) (by simp) (fun d' hd => ?_) (fun d' hd => ?_)
      (by simp)
    · by_cases hcl : s.closing = true
      · rw [if_pos hcl] at hd
        exact absurd hd (by simp)
      · exact Bool.eq_false_iff.mpr hcl
    · by_cases hcl : s.closing = true
      · exact Or.inl hcl
      · rw [if_neg hcl] at hd
        exact absurd hd (by simp)
  | wait ht =>
    exact h.moved ht rfl (h.held.release ht trivial (by simp)) (by simp)
      (fun _ _ => h.waits _ _ ht) (by simp) (by simp)
  | @leave t d ht =>
    refine h.moved ht rfl (h.held.release ht trivial ?_) (by simp) (by simp) (fun d' hd => ?_)
      (by simp)
    · intro q hq
      rw [← Place.code.inj hq]
      exact id
    · obtain rfl : d = d' := by simpa using hd
      exact h.left t d (Or.inl ht)
  | answer ht =>
    exact h.moved ht rfl (h.held.goto ht Iff.rfl) (by simp) (by simp) (by simp) (by simp)
  | store ht => exact h.store ht
  | broadcast ht => exact h.broadcast ht
  | finish ht =>
    refine h.moved ht rfl (h.held.release ht trivial ?_) (by simp) (by simp) (by simp) (by simp)
    intro q hq
    rw [← Place.code.inj hq]
    exact id
  | @wake t d timedOut a ht ha hdue =>
    refine h.moved ht rfl (h.held.wake ht d timedOut) (by simp) (by simp) (by simp)
      fun d' hd => ?_
    obtain ⟨rfl, rfl⟩ : d = d' ∧ timedOut = true := by simpa using hd
    exact hdue rfl
  | reset hno =>
    have hout : ∀ {u : Nat} {p : Place ClosingPc}, s.monitor.places[u]? = some p →
        SleepsAt p = false := fun hu => hno _ (List.mem_of_getElem? hu)
    refine ⟨h.held, fun _ _ _ => Or.inl rfl, fun _ _ _ => rfl, fun u d hu => ?_, h.timedOut⟩
    rcases hu with hu | hu
    · exact absurd (hout hu) (by simp [SleepsAt])
    · exact absurd (hout hu) (by simp [SleepsAt])

theorem ClosingInv.init (h : s.Initial) : ClosingInv s := by
  obtain ⟨n, clock, rfl⟩ := h
  have hout : ∀ {t : Nat} {p : Place ClosingPc},
      (Closing.init n clock).monitor.places[t]? = some p → p = .code (.out none) :=
    fun ht => List.eq_of_mem_replicate (List.mem_of_getElem? ht)
  refine ⟨⟨fun t pc ht => ?_, fun t ht => absurd ht (by simp [Closing.init])⟩, fun t d ht => ?_,
    fun t d ht => ?_, fun t d ht => ?_, fun t d ht => ?_⟩
  · rw [Place.code.inj (hout ht)]
    exact ⟨fun hh => hh.elim, fun ho => absurd ho (by simp [Closing.init])⟩
  · exact absurd (hout ht) (by simp)
  · exact absurd (hout ht) (by simp)
  · rcases ht with ht | ht <;> exact absurd (hout ht) (by simp)
  · exact absurd (hout ht) (by simp)

theorem Closing.Reachable.inv (h : s.Reachable) : ClosingInv s :=
  Lts.Reachable.invariant h (fun _ => ClosingInv.init) fun _ _ _ hi hst =>
    hi.move (Closing.move_of_step hst)

end Invariant

/-! ## 4. One call of `closing_sleep` -/

/-- Thread `t` is in `closing_sleep`. -/
def Closing.Sleeping (s : Closing) (t : Nat) : Prop :=
  ∃ p, s.monitor.places[t]? = some p ∧ SleepsAt p = true

/-- The side condition of the runs up to the return of thread `t`. -/
def StillIn (t : Nat) (s : Closing) (_ : ClosingAct) : Prop := s.Sleeping t

/-- **What a thread in `closing_sleep` can do**, in a state `s`. -/
inductive SleeperMove (s : Closing) : Place ClosingPc → Place ClosingPc → Prop where
  | enter {d : Int} : SleeperMove s (.code (.entering d)) (.code (.testing d))
  | closes {d : Int} (hcl : s.closing = true) :
      SleeperMove s (.code (.testing d)) (.code (.leaving d))
  | clear {d : Int} (hcl : s.closing = false) :
      SleeperMove s (.code (.testing d)) (.code (.waits d))
  | wait {d : Int} : SleeperMove s (.code (.waits d)) (.waiting d)
  | wake {d : Int} {timedOut : Bool} (hdue : timedOut = true → d ≤ s.clock) :
      SleeperMove s (.waiting d) (.woken d timedOut)
  | again {d : Int} : SleeperMove s (.woken d false) (.code (.testing d))
  | late {d : Int} : SleeperMove s (.woken d true) (.code (.leaving d))
  | leave {d : Int} : SleeperMove s (.code (.leaving d)) (.code (.answering d))
  | answer {d : Int} : SleeperMove s (.code (.answering d)) (.code (.out (some s.closing)))

/-- What a step is for thread `t`, at the place `p` in `closing_sleep`: nothing, or one of its own
moves, and then nothing else.  The flag is not lowered. -/
def StepAt (t : Nat) (p : Place ClosingPc) (s s' : Closing) : Prop :=
  ∃ p', s'.monitor.places[t]? = some p' ∧
    (p' = p ∨ SleeperMove s p p' ∧ s'.closing = s.closing ∧ s'.clock = s.clock) ∧
    (s.closing = true → s'.closing = true)

section Calls

variable {s s' u : Closing} {t : Nat} {p : Place ClosingPc} {d : Int} {a : ClosingAct}

/-- **What a step does to a thread in `closing_sleep`.** -/
theorem ClosingMove.sleeper (hmv : ClosingMove s a s') (ht : s.monitor.places[t]? = some p)
    (hp : SleepsAt p = true) : StepAt t p s s' := by
  -- one thread moves, this one or another
  have hmoves : ∀ {v : Nat} {q q' : Place ClosingPc} {m : Monitor ClosingPc},
      s.monitor.places[v]? = some q → m.places = s.monitor.places.set v q' →
      (q = p → SleeperMove s p q') → StepAt t p s { s with monitor := m } := by
    intro v q q' m hv hplaces hown
    unfold StepAt
    rw [hplaces]
    by_cases hvt : v = t
    · subst hvt
      have hmove := hown (Option.some.inj (hv.symm.trans ht))
      exact ⟨q', List.getElem?_set_eq hv q', Or.inr ⟨hmove, rfl, rfl⟩, id⟩
    · exact ⟨p, (List.getElem?_set_ne hvt).trans ht, Or.inl rfl, id⟩
  -- one that is not in `closing_sleep` is another
  have hother : ∀ {v : Nat} {q : Place ClosingPc}, s.monitor.places[v]? = some q →
      SleepsAt q = false → v ≠ t := by
    rintro v q hv hq rfl
    rw [Option.some.inj (hv.symm.trans ht), hp] at hq
    exact absurd hq (by simp)
  have hnot : ∀ {v : Nat} {q q' : Place ClosingPc}, s.monitor.places[v]? = some q →
      SleepsAt q = false → q = p → SleeperMove s p q' := by
    rintro v q q' hv hq rfl
    rw [hp] at hq
    exact absurd hq (by simp)
  cases hmv with
  | tick => exact ⟨p, ht, Or.inl rfl, id⟩
  | sleep hv => exact hmoves hv rfl (hnot hv rfl)
  | begins hv => exact hmoves hv rfl (hnot hv rfl)
  | @lock v q pc m hv hl hor =>
    refine hmoves hv (lock_places hl) ?_
    rintro rfl
    rcases hor with ⟨d, rfl, rfl⟩ | ⟨d, rfl, rfl⟩ | ⟨d, rfl, rfl⟩ | ⟨rfl, rfl⟩
    · exact .enter
    · exact .again
    · exact .late
    · exact absurd hp (by simp [SleepsAt])
  | @test v d hv =>
    refine hmoves hv rfl ?_
    rintro rfl
    split
    · rename_i hcl
      exact .closes hcl
    · rename_i hcl
      exact .clear (Bool.eq_false_iff.mpr hcl)
  | wait hv => exact hmoves hv rfl (by rintro rfl; exact .wait)
  | leave hv => exact hmoves hv rfl (by rintro rfl; exact .leave)
  | answer hv => exact hmoves hv rfl (by rintro rfl; exact .answer)
  | @store v hv =>
    refine ⟨p, ?_, Or.inl rfl, fun _ => rfl⟩
    exact (List.getElem?_set_ne (hother hv rfl)).trans ht
  | @broadcast v hv =>
    have hplace : (s.monitor.broadcast.goto v .ending).places[t]? = some p.notify := by
      simp only [Monitor.goto, Monitor.broadcast]
      rw [List.getElem?_set_ne (hother hv rfl), List.getElem?_map, ht]
      rfl
    refine ⟨p.notify, hplace, ?_, id⟩
    cases p with
    | code pc => exact Or.inl rfl
    | waiting d => exact Or.inr ⟨.wake (by simp), rfl, rfl⟩
    | woken d timedOut => exact Or.inl rfl
  | finish hv => exact hmoves hv rfl (hnot hv rfl)
  | wake hv ha hdue => exact hmoves hv rfl (by rintro rfl; exact .wake hdue)
  | reset hout =>
    rw [hout p (List.mem_of_getElem? ht)] at hp
    exact absurd hp (by simp)

/-- The flag is not lowered while a thread is in `closing_sleep`. -/
theorem closing_kept (hr : Lts.Run Closing.step (StillIn t) s s') (hcl : s.closing = true) :
    s'.closing = true := by
  refine hr.invariant (I := fun u => u.closing = true) hcl ?_
  rintro u a v hu ⟨p, hp, hin⟩ hst
  obtain ⟨-, -, -, hkeep⟩ := (Closing.move_of_step hst).sleeper hp hin
  exact hkeep hu

/-- The deadline of the call. -/
def deadlineAt : Place ClosingPc → Option Int
  | .code (.entering d) => some d
  | .code (.testing d) => some d
  | .code (.waits d) => some d
  | .code (.leaving d) => some d
  | .code (.answering d) => some d
  | .code _ => none
  | .waiting d => some d
  | .woken d _ => some d

/-- The place is not in `pthread_cond_timedwait`, nor at its call. -/
def NotWaiting : Place ClosingPc → Prop
  | .code (.waits _) => False
  | .code _ => True
  | .waiting _ => False
  | .woken _ _ => False

/-- In the loop of a call with the deadline `d`, and not timed out. -/
def InLoop (d : Int) : Place ClosingPc → Prop
  | .code (.testing d') => d' = d
  | .code (.waits d') => d' = d
  | .code _ => False
  | .waiting d' => d' = d
  | .woken d' timedOut => d' = d ∧ timedOut = false

/-- What one step of the thread itself does to its deadline. -/
theorem SleeperMove.deadline {p' : Place ClosingPc} (h : SleeperMove s p p') :
    SleepsAt p' = true ∧ deadlineAt p' = deadlineAt p ∨
      ∃ d, p = .code (.answering d) ∧ p' = .code (.out (some s.closing)) := by
  cases h with
  | answer => exact Or.inr ⟨_, rfl, rfl⟩
  | _ => exact Or.inl ⟨rfl, rfl⟩

/-- The call of thread `t` is going on, or it has returned what it found. -/
def CallOf (t : Nat) (d : Int) (u : Closing) : Prop :=
  (∃ p, u.monitor.places[t]? = some p ∧ SleepsAt p = true ∧ deadlineAt p = some d) ∨
    ∃ r, u.monitor.places[t]? = some (.code (.out (some r))) ∧ u.closing = r ∧
      (r = false → d ≤ u.clock)

/-- **A call runs to its return.** -/
theorem Closing.Reachable.call_run (h : s.Reachable) (ht : s.monitor.places[t]? = some p)
    (hp : SleepsAt p = true) (hd : deadlineAt p = some d)
    (hr : Lts.Run Closing.step (StillIn t) s s') : s'.Reachable ∧ CallOf t d s' := by
  refine hr.invariant (I := fun u => u.Reachable ∧ CallOf t d u) ⟨h, Or.inl ⟨p, ht, hp, hd⟩⟩ ?_
  rintro u a v ⟨hu, hcall⟩ ⟨q, hq, hin⟩ hst
  refine ⟨hu.next hst, ?_⟩
  rcases hcall with ⟨p, ht, hp, hd⟩ | ⟨r, hret, -, -⟩
  · obtain ⟨p', ht', hor, -⟩ := (Closing.move_of_step hst).sleeper ht hp
    rcases hor with rfl | ⟨hmove, hclosing, hclock⟩
    · exact Or.inl ⟨p', ht', hp, hd⟩
    · rcases hmove.deadline with ⟨hin', hd'⟩ | ⟨d', rfl, rfl⟩
      · exact Or.inl ⟨p', ht', hin', hd'.trans hd⟩
      · -- it returns the flag
        obtain rfl : d' = d := Option.some.inj hd
        refine Or.inr ⟨u.closing, ht', hclosing, fun hclear => ?_⟩
        rw [hclock]
        exact (hu.inv.left t d' (Or.inr ht)).resolve_left (Bool.eq_false_iff.mp hclear)
  · rw [Option.some.inj (hq.symm.trans hret)] at hin
    exact absurd hin (by simp [SleepsAt])

/-- **What `closing_sleep` returns is the flag**, and it returns only when that is set or its
deadline has come. -/
theorem closing_sleep_returns (h : s.Reachable) {seconds : Int} {r : Bool}
    (hst : s.step (.sleep t seconds) = some u) (hr : Lts.Run Closing.step (StillIn t) u s')
    (hret : s'.monitor.places[t]? = some (.code (.out (some r)))) :
    s'.closing = r ∧ (s'.closing = true ∨ s.clock + seconds * nsPerSecond ≤ s'.clock) := by
  obtain ⟨r₀, hout, rfl⟩ := Closing.call_eq hst
  have hin := List.getElem?_set_eq hout (.code (.entering (s.clock + seconds * nsPerSecond)))
  have hreach : Closing.Reachable _ := Lts.Reachable.next h hst
  obtain ⟨-, ⟨p, hp, hsl, -⟩ | ⟨r', hr', hcl, hdue⟩⟩ := hreach.call_run hin rfl rfl hr
  · rw [Option.some.inj (hp.symm.trans hret)] at hsl
    exact absurd hsl (by simp [SleepsAt])
  · obtain rfl : r' = r := by simpa using hr'.symm.trans hret
    cases r' with
    | true => exact ⟨hcl, Or.inl hcl⟩
    | false => exact ⟨hcl, Or.inr (hdue rfl)⟩

/-- So where it has returned, `refresh_pods` can go on from the one place it is there. -/
theorem closing_sleep_refresher (h : s.Reachable) {seconds : Int} {r : Bool}
    (hst : s.step (.sleep t seconds) = some u) (hr : Lts.Run Closing.step (StillIn t) u s')
    (hret : s'.monitor.places[t]? = some (.code (.out (some r)))) {c : PodCache} {th : Refresher}
    (hpc : th.pc = .sleeping (s.clock + seconds * nsPerSecond)) (hflag : c.closing = s'.closing)
    (hclock : c.clock = s'.clock) : c.refresherStep th = some (c.goto th .check) := by
  obtain ⟨-, hend⟩ := closing_sleep_returns h hst hr hret
  rw [← hflag, ← hclock] at hend
  unfold PodCache.refresherStep
  rw [hpc]
  exact if_pos hend

/-- What the thread can do while the flag is up, if it does not wait yet. -/
theorem SleeperMove.notWaiting {p' : Place ClosingPc} (h : SleeperMove s p p')
    (hset : s.closing = true) (hp : NotWaiting p) : NotWaiting p' := by
  cases h with
  | clear hcl =>
    rw [hset] at hcl
    exact absurd hcl (by simp)
  | wait => exact hp.elim
  | wake => exact hp.elim
  | _ => exact trivial

/-- A call that begins with the flag up does not wait. -/
theorem never_waits (hr : Lts.Run Closing.step (StillIn t) s s') (hset : s.closing = true)
    (ht : s.monitor.places[t]? = some p) (hp : NotWaiting p) :
    ∃ p', s'.monitor.places[t]? = some p' ∧ NotWaiting p' := by
  have hboth : s'.closing = true ∧ ∃ p', s'.monitor.places[t]? = some p' ∧ NotWaiting p' := by
    refine hr.invariant
      (I := fun u => u.closing = true ∧ ∃ p', u.monitor.places[t]? = some p' ∧ NotWaiting p')
      ⟨hset, p, ht, hp⟩ ?_
    rintro u a v ⟨hcl, p, ht, hp⟩ ⟨q, hq, hin⟩ hst
    obtain rfl := Option.some.inj (ht.symm.trans hq)
    obtain ⟨p', ht', hor, hkeep⟩ := (Closing.move_of_step hst).sleeper hq hin
    refine ⟨hkeep hcl, p', ht', ?_⟩
    rcases hor with rfl | ⟨hmove, -, -⟩
    · exact hp
    · exact hmove.notWaiting hcl hp
  exact hboth.2

/-- The loop is left only for one of the two reasons. -/
theorem SleeperMove.inLoop {p' : Place ClosingPc} (h : SleeperMove s p p') (hp : InLoop d p) :
    InLoop d p' ∨ s.closing = true ∨ d ≤ s.clock := by
  cases h with
  | enter => exact hp.elim
  | closes hcl => exact Or.inr (Or.inl hcl)
  | clear => exact Or.inl hp
  | wait => exact Or.inl hp
  | @wake d' timedOut hdue =>
    obtain rfl : d' = d := hp
    cases timedOut with
    | false => exact Or.inl ⟨rfl, rfl⟩
    | true => exact Or.inr (Or.inr (hdue rfl))
  | again => exact Or.inl hp.1
  | late => exact absurd hp.2 (by simp)
  | leave => exact hp.elim
  | answer => exact hp.elim

theorem ClosingMove.clock_le (hmv : ClosingMove s a s') : s.clock ≤ s'.clock := by
  cases hmv with
  | @tick ns => exact Int.le_add_of_nonneg_right (Int.natCast_nonneg ns)
  | _ => exact le_refl _

theorem stays_in_loop (hr : Lts.Run Closing.step (StillIn t) s s')
    (ht : s.monitor.places[t]? = some p) (hp : InLoop d p) :
    (∃ p', s'.monitor.places[t]? = some p' ∧ InLoop d p') ∨ s'.closing = true ∨
      d ≤ s'.clock := by
  refine hr.invariant (I := fun u => (∃ p', u.monitor.places[t]? = some p' ∧ InLoop d p') ∨
    u.closing = true ∨ d ≤ u.clock) (Or.inl ⟨p, ht, hp⟩) ?_
  rintro u a v hu ⟨q, hq, hin⟩ hst
  have hmv := Closing.move_of_step hst
  obtain ⟨p', ht', hor, hkeep⟩ := hmv.sleeper hq hin
  rcases hu with ⟨p, ht, hp⟩ | hset | hdue
  · obtain rfl := Option.some.inj (ht.symm.trans hq)
    rcases hor with rfl | ⟨hmove, hclosing, hclock⟩
    · exact Or.inl ⟨p', ht', hp⟩
    · rw [hclosing, hclock]
      exact (hmove.inLoop hp).imp (fun hp' => ⟨p', ht', hp'⟩) id
  · exact Or.inr (Or.inl (hkeep hset))
  · exact Or.inr (Or.inr (le_trans hdue hmv.clock_le))

end Calls

/-! ## 5. No sleeper misses the signal -/

/-- **No sleeper misses the signal**, of any number of threads in any order of steps.  With the
flag up and no thread in `closing_begin`, nobody waits.  A call of `closing_sleep` that begins with
the flag up does not wait; one that returns 0 has reached its deadline, and the flag was clear all
the time; and whoever has been woken up without having timed out is back in the loop as long as the
flag is clear and the deadline has not come. -/
theorem no_sleeper_misses {s : Closing} (h : s.Reachable) :
    (s.closing = true →
      (∀ (u : Nat) (pc : ClosingPc), s.monitor.places[u]? = some (.code pc) → ¬ pc.InBegin) →
      ∀ (t : Nat) (d : Int), s.monitor.places[t]? ≠ some (.waiting d)) ∧
    (∀ (t : Nat) (seconds : Int) (s₁ s₂ : Closing), s.step (.sleep t seconds) = some s₁ →
      Lts.Run Closing.step (StillIn t) s₁ s₂ →
      (s.closing = true → ∃ p, s₂.monitor.places[t]? = some p ∧ NotWaiting p) ∧
      (s₂.monitor.places[t]? = some (.code (.out (some false))) →
        s.clock + seconds * nsPerSecond ≤ s₂.clock ∧
        ∀ u, Lts.Run Closing.step (StillIn t) s₁ u → Lts.Run Closing.step (StillIn t) u s₂ →
          u.closing = false)) ∧
    ∀ (t : Nat) (d : Int) (s₂ : Closing), s.monitor.places[t]? = some (.woken d false) →
      Lts.Run Closing.step (StillIn t) s s₂ → s₂.closing = false → s₂.clock < d →
      ∃ p, s₂.monitor.places[t]? = some p ∧ InLoop d p := by
  refine ⟨fun hset hno t d ht => ?_, fun t seconds s₁ s₂ hst hr => ?_,
    fun t d s₂ ht hr hclear hearly => ?_⟩
  · rcases h.inv.waiting t d ht with hclear | ⟨u, hu⟩
    · rw [hset] at hclear
      exact absurd hclear (by simp)
    · exact hno u _ hu trivial
  · refine ⟨fun hset => ?_, fun hret => ?_⟩
    · obtain ⟨r, hout, rfl⟩ := Closing.call_eq hst
      exact never_waits hr hset (List.getElem?_set_eq hout _) trivial
    · obtain ⟨hcl, hend⟩ := closing_sleep_returns h hst hr hret
      refine ⟨hend.resolve_left (Bool.eq_false_iff.mp hcl), fun u _ hu => ?_⟩
      refine Bool.eq_false_iff.mpr fun hset => ?_
      rw [closing_kept hu hset] at hcl
      exact absurd hcl (by simp)
  · rcases stays_in_loop hr ht ⟨rfl, rfl⟩ with hloop | hset | hdue
    · exact hloop
    · rw [hclear] at hset
      exact absurd hset (by simp)
    · exact absurd hdue (Int.not_le.mpr hearly)

/-- Thread 1 raises the flag between the test of thread 0 and its wait, but gets the mutex only
behind the wait.  A call for one second that nobody interrupts returns 0.  A spurious wake-up after
4 ns leads back to the wait. -/
theorem no_sleeper_misses_twoThreads :
    (∀ (t : Nat) (d : Int), (⟨true, 3, none, [.woken 5000000000 false, .code (.out none)]⟩ :
      Closing).monitor.places[t]? ≠ some (.waiting d)) ∧
    (∃ s : Closing, s.monitor.places[0]? = some (.code (.out (some false))) ∧
      (Closing.init 2 0).clock + 1 * nsPerSecond ≤ s.clock) ∧
    ∃ s : Closing, s.clock = 4 ∧ s.monitor.owner = none ∧
      ∃ p, s.monitor.places[0]? = some p ∧ InLoop 1000000000 p := by
  have hr : Lts.exec Closing.step (Closing.init 2 0)
      [.sleep 0 5, .go 0, .tick 3, .go 0, .begins 1, .go 0, .go 1, .go 1, .go 1, .go 1] =
      some ⟨true, 3, none, [.woken 5000000000 false, .code (.out none)]⟩ := rfl
  have hcall : Lts.execIf Closing.step (fun u _ => u.monitor.places[0]?.any SleepsAt)
      ⟨false, 0, none, [.code (.entering 1000000000), .code (.out none)]⟩
      [.go 0, .go 0, .go 0, .tick 1000000000, .timeOut 0, .go 0, .go 0, .go 0] =
      some ⟨false, 1000000000, none, [.code (.out (some false)), .code (.out none)]⟩ := rfl
  have hwoken : Lts.exec Closing.step (Closing.init 2 0)
      [.sleep 0 1, .go 0, .go 0, .go 0, .tick 4, .spurious 0] =
      some ⟨false, 4, none, [.woken 1000000000 false, .code (.out none)]⟩ := rfl
  have hback : Lts.execIf Closing.step (fun u _ => u.monitor.places[0]?.any SleepsAt)
      ⟨false, 4, none, [.woken 1000000000 false, .code (.out none)]⟩ [.go 0, .go 0, .go 0] =
      some ⟨false, 4, none, [.waiting 1000000000, .code (.out none)]⟩ := rfl
  have hin : ∀ (u : Closing) (a : ClosingAct), u.monitor.places[0]?.any SleepsAt = true →
      StillIn 0 u a := fun u _ hu => (Option.any_eq_true SleepsAt _).mp hu
  refine ⟨(no_sleeper_misses (Lts.reachable_of_exec ⟨2, 0, rfl⟩ hr)).1 rfl fun u pc hu => ?_,
    ⟨⟨false, 1000000000, none, [.code (.out (some false)), .code (.out none)]⟩, rfl, ?_⟩,
    ⟨⟨false, 4, none, [.waiting 1000000000, .code (.out none)]⟩, rfl, rfl, ?_⟩⟩
  · have hmem := List.mem_of_getElem? hu
    simp only [List.mem_cons, List.not_mem_nil, or_false, reduceCtorEq, false_or] at hmem
    rw [Place.code.inj hmem]
    exact id
  · have hrun := Lts.run_of_execIf hin hcall
    exact (((no_sleeper_misses (Lts.Reachable.of_init ⟨2, 0, rfl⟩)).2.1 0 1 _ _ rfl hrun).2 rfl).1
  · have hrun := Lts.run_of_execIf hin hback
    exact (no_sleeper_misses (Lts.reachable_of_exec ⟨2, 0, rfl⟩ hwoken)).2.2 0 1000000000 _ rfl hrun
      rfl (by decide)

end Unicaster
