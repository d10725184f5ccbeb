/-
# What `closing.c` is for

A flag, and threads that sleep until it is raised or their deadline has come.  `Flag` says that
and no more: a call of `closing_sleep` is one place, its return is one step, and `closing_begin`
is the one step that raises the flag.

`Closing` refines it, and loses nothing of it: the states that can be reached, seen without the
mutex and the condition variable, are the states of the flag.  The modules that have one place
for `closing_sleep` let a thread go on under the condition of `Flag.step`.

The other half is that the mutex and the waits hold nobody up once the flag is raised.
-/
import Unicaster.Closing
import Unicaster.Lib.Lts
import Mathlib.Algebra.Order.BigOperators.Group.List

namespace Unicaster

open Monitor

/-! ## 1. The flag -/

/-- Where a thread stands, for a reader of `closing.h`. -/
inductive FlagPlace where
  /-- outside; what its last `closing_sleep` returned -/
  | out (returned : Option Bool)
  | sleeping (deadline : Int)
  /-- in `closing_begin`, the flag not yet set by it -/
  | raising
  deriving DecidableEq

def FlagPlace.isSleeping : FlagPlace → Bool
  | .sleeping _ => true
  | _ => false

structure Flag where
  raised : Bool
  clock : Int
  places : List FlagPlace
  deriving DecidableEq

inductive FlagAct where
  | tick (ns : Nat)
  | sleep (t : Nat) (seconds : Int)
  | begins (t : Nat)
  /-- a call of `closing_sleep` returns the flag -/
  | returns (t : Nat)
  | raises (t : Nat)
  | lower

namespace Flag

variable (f : Flag)

/-- `n` threads outside. -/
def init (n : Nat) (clock : Int) : Flag := ⟨false, clock, List.replicate n (.out none)⟩

/-- Thread `t` is somewhere else. -/
def move (t : Nat) (p : FlagPlace) : Flag := { f with places := f.places.set t p }

/-- What an action does, or `none` where it is not possible. -/
def step : FlagAct → Option Flag
  | .tick ns => some { f with clock := f.clock + ns }
  | .sleep t seconds =>
    match f.places[t]? with
    | some (.out _) => some (f.move t (.sleeping (f.clock + seconds * nsPerSecond)))
    | _ => none
  | .begins t =>
    match f.places[t]? with
    | some (.out _) => some (f.move t .raising)
    | _ => none
  | .returns t =>
    match f.places[t]? with
    | some (.sleeping deadline) =>
      if f.raised ∨ deadline ≤ f.clock then some (f.move t (.out (some f.raised))) else none
    | _ => none
  | .raises t =>
    match f.places[t]? with
    | some .raising => some { f.move t (.out none) with raised := true }
    | _ => none
  | .lower => if f.places.any FlagPlace.isSleeping then none else some { f with raised := false }

def Initial (f : Flag) : Prop := ∃ n clock, f = init n clock

abbrev Reachable (f : Flag) : Prop := Lts.Reachable step Initial f

end Flag

/-! ## 2. The code, seen as the flag -/

/-- A place of the code, without the mutex and the condition variable.  With its `atomic_store`
`closing_begin` has done what it is for. -/
def flagPlace : Place ClosingPc → FlagPlace
  | .code (.out r) => .out r
  | .code (.entering d) => .sleeping d
  | .code (.testing d) => .sleeping d
  | .code (.waits d) => .sleeping d
  | .code (.leaving d) => .sleeping d
  | .code (.answering d) => .sleeping d
  | .code .beginning => .raising
  | .code .storing => .raising
  | .code .broadcasting => .out none
  | .code .ending => .out none
  | .waiting d => .sleeping d
  | .woken d _ => .sleeping d

def Closing.flag (s : Closing) : Flag := ⟨s.closing, s.clock, s.monitor.places.map flagPlace⟩

theorem flagPlace_isSleeping (p : Place ClosingPc) :
    (flagPlace p).isSleeping = SleepsAt p := by
  cases p with
  | code pc => cases pc <;> rfl
  | waiting d => rfl
  | woken d timedOut => rfl

theorem flagPlace_notify (p : Place ClosingPc) : flagPlace p.notify = flagPlace p := by
  cases p with
  | waiting d => rfl
  | _ => rfl

section Refines

variable {s s' : Closing} {t : Nat} {p p' : Place ClosingPc} {a : ClosingAct}

theorem Closing.flag_place (ht : s.monitor.places[t]? = some p) :
    s.flag.places[t]? = some (flagPlace p) := by
  unfold Closing.flag
  rw [List.getElem?_map, ht, Option.map_some]

/-- A thread moves within what the flag sees as one place. -/
theorem Closing.flag_same {m : Monitor ClosingPc} (ht : s.monitor.places[t]? = some p)
    (hplaces : m.places = s.monitor.places.set t p') (hsame : flagPlace p' = flagPlace p) :
    Closing.flag { s with monitor := m } = s.flag := by
  unfold Closing.flag
  dsimp only
  rw [hplaces, List.map_set_of_eq ht hsame]

/-- A thread moves to another place of the flag. -/
theorem Closing.flag_goto (s : Closing) (t : Nat) (pc : ClosingPc) :
    Closing.flag { s with monitor := s.monitor.goto t pc } =
      s.flag.move t (flagPlace (.code pc)) := by
  unfold Closing.flag Flag.move Monitor.goto
  dsimp only
  rw [List.map_set]

/-- **A step of the code is a step of the flag, or none.** -/
theorem ClosingInv.refines (h : ClosingInv s) (hmv : ClosingMove s a s') :
    s'.flag = s.flag ∨ ∃ b, s.flag.step b = some s'.flag := by
  cases hmv with
  | @tick ns => exact Or.inr ⟨.tick ns, rfl⟩
  | @sleep t seconds r ht =>
    refine Or.inr ⟨.sleep t seconds, ?_⟩
    simp only [Flag.step, Closing.flag_place ht, flagPlace]
    rw [Closing.flag_goto]
    rfl
  | @begins t r ht =>
    refine Or.inr ⟨.begins t, ?_⟩
    simp only [Flag.step, Closing.flag_place ht, flagPlace]
    rw [Closing.flag_goto]
    rfl
  | @lock t p pc m ht hl hp =>
    refine Or.inl (Closing.flag_same ht (lock_places hl) ?_)
    rcases hp with ⟨d, rfl, rfl⟩ | ⟨d, rfl, rfl⟩ | ⟨d, rfl, rfl⟩ | ⟨rfl, rfl⟩ <;> rfl
  | @test t d ht =>
    refine Or.inl (Closing.flag_same ht rfl ?_)
    cases s.closing <;> rfl
  | wait ht => exact Or.inl (Closing.flag_same ht rfl rfl)
  | leave ht => exact Or.inl (Closing.flag_same ht rfl rfl)
  | @answer t d ht =>
    refine Or.inr ⟨.returns t, ?_⟩
    have hdue : s.flag.raised = true ∨ d ≤ s.flag.clock := h.left t d (Or.inr ht)
    simp only [Flag.step, Closing.flag_place ht, flagPlace, if_pos hdue]
    rw [Closing.flag_goto]
    rfl
  | @store t ht =>
    refine Or.inr ⟨.raises t, ?_⟩
    simp only [Flag.step, Closing.flag_place ht, flagPlace]
    rw [Closing.flag_goto { s with closing := true }]
    rfl
  | @broadcast t ht =>
    left
    have hnotified : (s.monitor.places.map Place.notify).map flagPlace =
        s.monitor.places.map flagPlace := by
      rw [List.map_map]
      exact List.map_congr_left fun p _ => flagPlace_notify p
    unfold Closing.flag Monitor.goto
    dsimp only
    rw [List.map_set_of_eq (broadcast_code.mpr ht) (show flagPlace (.code .ending) = _ from rfl)]
    exact congrArg (Flag.mk s.closing s.clock) hnotified
  | finish ht => exact Or.inl (Closing.flag_same ht rfl rfl)
  | wake ht ha hdue => exact Or.inl (Closing.flag_same ht rfl rfl)
  | reset hno =>
    refine Or.inr ⟨.lower, ?_⟩
    have hnone : ¬ s.flag.places.any FlagPlace.isSleeping = true := by
      intro hany
      obtain ⟨q, hq, hsl⟩ := List.any_eq_true.mp hany
      obtain ⟨p, hp, rfl⟩ := List.mem_map.mp hq
      rw [flagPlace_isSleeping, hno p hp] at hsl
      exact absurd hsl (by simp)
    simp only [Flag.step, if_neg hnone]
    rfl

theorem Closing.Reachable.flag (h : s.Reachable) : s.flag.Reachable := by
  have hall : s.Reachable ∧ s.flag.Reachable := by
    refine Lts.Reachable.invariant (I := fun u => u.Reachable ∧ u.flag.Reachable) h ?_ ?_
    · rintro u ⟨n, clock, rfl⟩
      refine ⟨Lts.Reachable.of_init ⟨n, clock, rfl⟩, Lts.Reachable.of_init ⟨n, clock, ?_⟩⟩
      unfold Closing.flag Closing.init Flag.init
      dsimp only
      rw [List.map_replicate]
      rfl
    · rintro u a v ⟨hu, hf⟩ hst
      refine ⟨hu.next hst, ?_⟩
      rcases hu.inv.refines (Closing.move_of_step hst) with heq | ⟨b, hb⟩
      · exact heq ▸ hf
      · exact hf.next hb
  exact hall.2

end Refines

/-! ## 3. Nothing of the flag is lost -/

/-- Where the code stands for a place of the flag, without the mutex. -/
def FlagPlace.code : FlagPlace → Place ClosingPc
  | .out r => .code (.out r)
  | .sleeping d => .code (.entering d)
  | .raising => .code .beginning

def Flag.code (f : Flag) : Closing := ⟨f.raised, f.clock, none, f.places.map FlagPlace.code⟩

theorem Flag.flag_code (f : Flag) : f.code.flag = f := by
  have hplaces : (f.places.map FlagPlace.code).map flagPlace = f.places := by
    rw [List.map_map]
    refine List.map_id'' (fun p => ?_) f.places
    cases p <;> rfl
  exact congrArg (Flag.mk f.raised f.clock) hplaces

theorem FlagPlace.notify_code (p : FlagPlace) : p.code.notify = p.code := by
  cases p <;> rfl

theorem FlagPlace.sleepsAt_code (p : FlagPlace) : SleepsAt p.code = p.isSleeping := by
  cases p <;> rfl

section Realizes

variable {c : Bool} {k : Int} {l : List (Place ClosingPc)} {t : Nat} {d : Int}
  {f f' : Flag} {s s' u : Closing}

theorem Closing.go_run (t : Nat) (hst : s.go t = some u) (hr : Lts.Run Closing.step Lts.free u s') :
    Lts.Run Closing.step Lts.free s s' :=
  Lts.Run.cons (a := ClosingAct.go t) trivial hst hr

/-- The way out of `closing_sleep`, from `pthread_mutex_unlock`. -/
theorem Closing.leave_run (hl : t < l.length) :
    Lts.Run Closing.step Lts.free ⟨c, k, some t, l.set t (.code (.leaving d))⟩
      ⟨c, k, none, l.set t (.code (.out (some c)))⟩ := by
  refine Closing.go_run t (u := ⟨c, k, none, l.set t (.code (.answering d))⟩) ?_
    (Closing.go_run t (u := ⟨c, k, none, l.set t (.code (.out (some c)))⟩) ?_
      Relation.ReflTransGen.refl)
  · simp [Closing.go, Monitor.unlock, Monitor.goto, hl]
  · simp [Closing.go, Monitor.goto, hl]

/-- **A call of `closing_sleep` runs to its return**, if there is a reason: with the flag up it does
not wait, and with the deadline behind it waits and times out. -/
theorem Closing.sleep_run (hl : t < l.length) (hdue : c = true ∨ d ≤ k) :
    Lts.Run Closing.step Lts.free ⟨c, k, none, l.set t (.code (.entering d))⟩
      ⟨c, k, none, l.set t (.code (.out (some c)))⟩ := by
  refine Closing.go_run t (u := ⟨c, k, some t, l.set t (.code (.testing d))⟩) ?_ ?_
  · simp [Closing.go, Monitor.lock, Monitor.goto, hl]
  · cases c with
    | true =>
      refine Closing.go_run t (u := ⟨true, k, some t, l.set t (.code (.leaving d))⟩) ?_
        (Closing.leave_run hl)
      simp [Closing.go, Monitor.goto, hl]
    | false =>
      have hpast : d ≤ k := hdue.resolve_left (by simp)
      refine Closing.go_run t (u := ⟨false, k, some t, l.set t (.code (.waits d))⟩) ?_
        (Closing.go_run t (u := ⟨false, k, none, l.set t (.waiting d)⟩) ?_
          (Lts.Run.cons (a := ClosingAct.timeOut t)
            (t := ⟨false, k, none, l.set t (.woken d true)⟩) trivial ?_
            (Closing.go_run t (u := ⟨false, k, some t, l.set t (.code (.leaving d))⟩) ?_
              (Closing.leave_run hl))))
      · simp [Closing.go, Monitor.goto, hl]
      · simp [Closing.go, Monitor.wait, hl]
      · simp [Closing.step, Closing.wakeUp, Monitor.wake, hl, hpast]
      · simp [Closing.go, Monitor.lock, Monitor.goto, hl]

/-- `closing_begin`, with nobody waiting. -/
theorem Closing.begin_run (hl : t < l.length) (hno : l.map Place.notify = l) :
    Lts.Run Closing.step Lts.free ⟨c, k, none, l.set t (.code .beginning)⟩
      ⟨true, k, none, l.set t (.code (.out none))⟩ := by
  refine Closing.go_run t (u := ⟨c, k, some t, l.set t (.code .storing)⟩) ?_
    (Closing.go_run t (u := ⟨true, k, some t, l.set t (.code .broadcasting)⟩) ?_
      (Closing.go_run t (u := ⟨true, k, some t, l.set t (.code .ending)⟩) ?_
        (Closing.go_run t (u := ⟨true, k, none, l.set t (.code (.out none))⟩) ?_
          Relation.ReflTransGen.refl)))
  · simp [Closing.go, Monitor.lock, Monitor.goto, hl]
  · simp [Closing.go, Monitor.goto, hl]
  · simp [Closing.go, Monitor.goto, Monitor.broadcast, List.map_set, hno, hl]
  · simp [Closing.go, Monitor.unlock, Monitor.goto, hl]

theorem Flag.lookup {p : FlagPlace} (ht : f.places[t]? = some p) :
    t < (f.places.map FlagPlace.code).length ∧
      f.places.map FlagPlace.code = (f.places.map FlagPlace.code).set t p.code := by
  obtain ⟨hlt, hp⟩ := List.getElem?_eq_some_iff.mp ht
  refine ⟨by rw [List.length_map]; exact hlt, ?_⟩
  rw [← List.map_set, ← hp, List.set_getElem_self]

theorem Flag.code_move (f : Flag) (t : Nat) (p : FlagPlace) :
    (f.move t p).code = ⟨f.raised, f.clock, none, (f.places.map FlagPlace.code).set t p.code⟩ := by
  unfold Flag.code Flag.move
  dsimp only
  rw [List.map_set]

/-- **A step of the flag is a run of the code.** -/
theorem Flag.realizes {a : FlagAct} (hst : f.step a = some f') :
    Lts.Run Closing.step Lts.free f.code f'.code := by
  cases a with
  | tick ns =>
    obtain rfl := Option.some.inj hst
    exact Lts.Run.single (a := ClosingAct.tick ns) trivial rfl
  | sleep t seconds =>
    simp only [Flag.step] at hst
    split at hst
    · rename_i r ht
      obtain rfl := Option.some.inj hst
      refine Lts.Run.single (a := ClosingAct.sleep t seconds) trivial ?_
      rw [Flag.code_move]
      simp [Closing.step, Closing.call, Flag.code, ht, FlagPlace.code, Monitor.goto]
    · exact absurd hst (by simp)
  | begins t =>
    simp only [Flag.step] at hst
    split at hst
    · rename_i r ht
      obtain rfl := Option.some.inj hst
      refine Lts.Run.single (a := ClosingAct.begins t) trivial ?_
      rw [Flag.code_move]
      simp [Closing.step, Closing.call, Flag.code, ht, FlagPlace.code, Monitor.goto]
    · exact absurd hst (by simp)
  | returns t =>
    simp only [Flag.step] at hst
    split at hst
    · rename_i d ht
      split at hst
      · rename_i hdue
        obtain rfl := Option.some.inj hst
        obtain ⟨hl, hplaces⟩ := Flag.lookup ht
        rw [Flag.code_move, Flag.code, hplaces, List.set_set]
        exact Closing.sleep_run hl hdue
      · exact absurd hst (by simp)
    · exact absurd hst (by simp)
  | raises t =>
    simp only [Flag.step] at hst
    split at hst
    · rename_i ht
      obtain rfl := Option.some.inj hst
      obtain ⟨hl, hplaces⟩ := Flag.lookup ht
      have hno : (f.places.map FlagPlace.code).map Place.notify =
          f.places.map FlagPlace.code := by
        rw [List.map_map]
        exact List.map_congr_left fun p _ => p.notify_code
      have hrun := Closing.begin_run (c := f.raised) (k := f.clock) hl hno
      have hend : Flag.code { f.move t (.out none) with raised := true } =
          ⟨true, f.clock, none, (f.places.map FlagPlace.code).set t (.code (.out none))⟩ :=
        congrArg (fun s : Closing => { s with closing := true }) (f.code_move t (.out none))
      rw [hend, Flag.code, hplaces, List.set_set]
      exact hrun
    · exact absurd hst (by simp)
  | lower =>
    simp only [Flag.step] at hst
    split at hst
    · exact absurd hst (by simp)
    · rename_i hnone
      obtain rfl := Option.some.inj hst
      refine Lts.Run.single (a := ClosingAct.reset) trivial ?_
      have hany : (f.places.map FlagPlace.code).any SleepsAt =
          f.places.any FlagPlace.isSleeping := by
        rw [List.any_map]
        exact congrArg f.places.any (funext FlagPlace.sleepsAt_code)
      simp only [Closing.step, Flag.code, hany, if_neg hnone]

theorem Flag.Reachable.code (h : f.Reachable) : f.code.Reachable := by
  refine Lts.Reachable.invariant (I := fun f => f.code.Reachable) h ?_ ?_
  · rintro f ⟨n, clock, rfl⟩
    refine Lts.Reachable.of_init ⟨n, clock, ?_⟩
    unfold Flag.code Flag.init Closing.init
    dsimp only
    rw [List.map_replicate]
    rfl
  · intro f a f' hf hst
    exact hf.run (Flag.realizes hst)

end Realizes

/-! ## 4. Nobody is held up -/

/-- The action begins no call, and does not lower the flag. -/
def ClosingAct.goesOn : ClosingAct → Bool
  | .sleep _ _ => false
  | .begins _ => false
  | .reset => false
  | _ => true

/-- The action is a thread's. -/
def ClosingAct.ofThread : ClosingAct → Bool
  | .go _ => true
  | .spurious _ => true
  | .timeOut _ => true
  | _ => false

/-- How many steps a thread still has in `closing.c`, with the flag up. -/
def placeLeft : Place ClosingPc → Nat
  | .code (.out _) => 0
  | .code (.answering _) => 1
  | .code (.leaving _) => 2
  | .code (.testing _) => 3
  | .code (.entering _) => 4
  | .code (.waits _) => 5
  | .code .ending => 1
  | .code .broadcasting => 2
  | .code .storing => 3
  | .code .beginning => 4
  | .waiting _ => 5
  | .woken _ false => 4
  | .woken _ true => 3

theorem placeLeft_le (p : Place ClosingPc) : placeLeft p ≤ 5 := by
  cases p with
  | code pc => cases pc <;> exact Nat.le_of_ble_eq_true rfl
  | waiting d => exact Nat.le_refl 5
  | woken d timedOut => cases timedOut <;> exact Nat.le_of_ble_eq_true rfl

theorem placeLeft_notify (p : Place ClosingPc) : placeLeft p.notify ≤ placeLeft p := by
  cases p with
  | waiting d => exact Nat.le_succ 4
  | _ => exact Nat.le_refl _

def Closing.left (s : Closing) : Nat := (s.monitor.places.map placeLeft).sum

section Progress

variable {s s' : Closing} {t : Nat} {p p' : Place ClosingPc} {a : ClosingAct}

/-- One thread comes nearer to its return. -/
theorem Closing.left_lt {c : Bool} {m : Monitor ClosingPc} (ht : s.monitor.places[t]? = some p)
    (hplaces : m.places = s.monitor.places.set t p') (hlt : placeLeft p' < placeLeft p) :
    Closing.left { s with closing := c, monitor := m } < s.left := by
  have hsum := List.sum_map_set placeLeft ht p'
  unfold Closing.left
  dsimp only
  rw [hplaces]
  omega

/-- **With the flag up, every step of a thread brings it nearer to its return**, and no other
thread farther from its own. -/
theorem ClosingInv.left_step (h : ClosingInv s) (hset : s.closing = true)
    (ha : a.goesOn = true) (hmv : ClosingMove s a s') :
    s'.closing = true ∧ s'.left + (if a.ofThread then 1 else 0) ≤ s.left := by
  cases hmv with
  | tick => exact ⟨hset, Nat.le_refl _⟩
  | sleep ht => exact absurd ha (by simp [ClosingAct.goesOn])
  | begins ht => exact absurd ha (by simp [ClosingAct.goesOn])
  | lock ht hl hp =>
    refine ⟨hset, Closing.left_lt ht (lock_places hl) ?_⟩
    rcases hp with ⟨d, rfl, rfl⟩ | ⟨d, rfl, rfl⟩ | ⟨d, rfl, rfl⟩ | ⟨rfl, rfl⟩ <;>
      exact Nat.lt_succ_self _
  | test ht =>
    rw [if_pos hset]
    exact ⟨hset, Closing.left_lt ht rfl (Nat.lt_succ_self _)⟩
  | wait ht =>
    -- the flag was clear when the thread got there, and it still holds the mutex
    rw [h.waits _ _ ht] at hset
    exact absurd hset (by simp)
  | leave ht => exact ⟨hset, Closing.left_lt ht rfl (Nat.lt_succ_self _)⟩
  | answer ht => exact ⟨hset, Closing.left_lt ht rfl (Nat.lt_succ_self _)⟩
  | store ht => exact ⟨rfl, Closing.left_lt ht rfl (Nat.lt_succ_self _)⟩
  | @broadcast t ht =>
    have hnotified : ((s.monitor.places.map Place.notify).map placeLeft).sum ≤ s.left := by
      rw [List.map_map]
      exact List.sum_le_sum fun p _ => placeLeft_notify p
    have hsum := List.sum_map_set placeLeft (broadcast_code.mpr ht) (.code .ending)
    have hone : placeLeft (.code .broadcasting) = placeLeft (.code .ending) + 1 := rfl
    refine ⟨hset, Nat.le_trans ?_ hnotified⟩
    change ((s.monitor.broadcast.places.set t (.code .ending)).map placeLeft).sum + 1 ≤
      (s.monitor.broadcast.places.map placeLeft).sum
    omega
  | finish ht => exact ⟨hset, Closing.left_lt ht rfl (Nat.lt_succ_self _)⟩
  | @wake t d timedOut a ht hact hdue =>
    have hlt : placeLeft (.woken d timedOut) < placeLeft (.waiting d) := by
      cases timedOut <;> simp [placeLeft]
    have hthread : a.ofThread = true := by
      cases timedOut <;> exact hact ▸ rfl
    rw [hthread, if_pos rfl]
    exact ⟨hset, Closing.left_lt ht rfl hlt⟩
  | reset hno => exact absurd ha (by simp [ClosingAct.goesOn])

/-- The holder of the mutex can go on. -/
theorem Closing.holder_goes_on {pc : ClosingPc} (ht : s.monitor.places[t]? = some (.code pc))
    (hpc : pc.Holds) : s.go t ≠ none := by
  cases pc with
  | testing d =>
    simp only [Closing.go, ht]
    cases s.closing <;> simp
  | waits d => simp [Closing.go, ht]
  | leaving d => simp [Closing.go, ht]
  | storing => simp [Closing.go, ht]
  | broadcasting => simp [Closing.go, ht]
  | ending => simp [Closing.go, ht]
  | _ => exact hpc.elim

/-- **Who cannot go on waits for his deadline or the signal.**  Where no thread has a step of its
own, those that are in `closing.c` are in the wait, and the flag is clear. -/
theorem ClosingInv.stuck (h : ClosingInv s) (hno : ∀ t, s.go t = none)
    (ht : s.monitor.places[t]? = some p) :
    (∃ r, p = .code (.out r)) ∨ (∃ d, p = .waiting d) ∧ s.closing = false := by
  have hfree : s.monitor.owner = none := by
    cases hown : s.monitor.owner with
    | none => rfl
    | some u =>
      obtain ⟨pc, hu⟩ := h.held.2 u hown
      exact absurd (hno u) (Closing.holder_goes_on hu ((h.held.1 u pc hu).mpr hown))
  have hnone : ∀ {u : Nat} {pc : ClosingPc}, s.monitor.places[u]? = some (.code pc) →
      ¬ pc.Holds := by
    intro u pc hu hpc
    rw [h.held.1 u pc hu, hfree] at hpc
    exact absurd hpc (by simp)
  have hgo := hno t
  cases p with
  | code pc =>
    cases pc with
    | out r => exact Or.inl ⟨r, rfl⟩
    | entering d => simp [Closing.go, ht, Monitor.lock, hfree] at hgo
    | answering d => simp [Closing.go, ht] at hgo
    | beginning => simp [Closing.go, ht, Monitor.lock, hfree] at hgo
    | _ => exact absurd trivial (hnone ht)
  | waiting d =>
    refine Or.inr ⟨⟨d, rfl⟩, (h.waiting t d ht).resolve_right ?_⟩
    rintro ⟨u, hu⟩
    exact hnone hu trivial
  | woken d timedOut => simp [Closing.go, ht, Monitor.lock, hfree] at hgo

end Progress

/-- **`closing.c` is its flag.**  Any number of threads, in any order of steps of the mutex, the
condition variable and the flag: the states that can be reached are, seen from outside, those of
`Flag`, all of them and no others.  A thread without a step of its own waits, with the flag clear.
And once the flag is up every call returns: the threads take at most five steps each, also those
that wake up too early or time out. -/
theorem closing_is_flag :
    (∀ f : Flag, f.Reachable ↔ ∃ s : Closing, s.Reachable ∧ s.flag = f) ∧
    (∀ s : Closing, s.Reachable → (∀ t, s.step (.go t) = none) → ∀ p ∈ s.monitor.places,
      (∃ r, p = .code (.out r)) ∨ (∃ d, p = .waiting d) ∧ s.closing = false) ∧
    ∀ (s s' : Closing) (as : List ClosingAct), s.Reachable → s.closing = true →
      Lts.Trace Closing.step (fun _ a => a.goesOn = true) s as s' →
      s'.closing = true ∧ as.countP ClosingAct.ofThread ≤ 5 * s.monitor.places.length := by
  refine ⟨fun f => ⟨fun h => ⟨f.code, h.code, f.flag_code⟩, ?_⟩, fun s h hno p hp => ?_,
    fun s s' as h hset htr => ?_⟩
  · rintro ⟨s, h, rfl⟩
    exact h.flag
  · obtain ⟨t, ht⟩ := List.mem_iff_getElem?.mp hp
    exact h.inv.stuck hno ht
  · have hstep : ∀ (u : Closing) (a : ClosingAct) (v : Closing),
        u.Reachable ∧ u.closing = true → a.goesOn = true → u.step a = some v →
        (v.Reachable ∧ v.closing = true) ∧
          v.left + (if a.ofThread then 1 else 0) ≤ u.left := by
      rintro u a v ⟨hu, hcl⟩ ha hst
      obtain ⟨hkept, hle⟩ := hu.inv.left_step hcl ha (Closing.move_of_step hst)
      exact ⟨⟨hu.next hst, hkept⟩, hle⟩
    have hpay := htr.countP_add_le Closing.left ClosingAct.ofThread hstep ⟨h, hset⟩
    have hbound : s.left ≤ s.monitor.places.length * 5 :=
      List.sum_map_le_of_settled (n := 0) placeLeft (fun k y _ hk => absurd hk (Nat.not_lt_zero k))
        fun p _ => placeLeft_le p
    have hkept : s'.closing = true := by
      refine (htr.run.invariant (I := fun u => u.Reachable ∧ u.closing = true) ⟨h, hset⟩ ?_).2
      intro u a v hu ha hst
      exact (hstep u a v hu ha hst).1
    exact ⟨hkept, by omega⟩

end Unicaster
