/-
# A mutex and a condition variable

Threads are numbered.  A thread is somewhere in its own code, or in a timed wait: `waiting` until
it is notified, wakes up of itself or times out, and then `woken`, about to take the mutex again.
To wait is to give the mutex back and to join the waiting ones in one step; a broadcast notifies
all of them.

What a program says of its own places is which of them hold the mutex.  `Held` is that the mutex
agrees, and every operation keeps it.
-/
import Unicaster.Lib.Lists

namespace Monitor

/-- Where a thread is: at a place of its code, or in a timed wait. -/
inductive Place (π : Type) where
  | code (pc : π)
  | waiting (deadline : Int)
  | woken (deadline : Int) (timedOut : Bool)
  deriving DecidableEq

end Monitor

/-- The owner of the mutex, and the threads. -/
structure Monitor (π : Type) where
  owner : Option Nat
  places : List (Monitor.Place π)

namespace Monitor

variable {π : Type}

/-- What a broadcast does to a thread. -/
def Place.notify : Place π → Place π
  | .waiting deadline => .woken deadline false
  | p => p

section Operations

variable (m : Monitor π) (t : Nat)

/-- Thread `t` goes on in its code. -/
def goto (pc : π) : Monitor π := { m with places := m.places.set t (.code pc) }

/-- It takes the mutex, where it is free. -/
def lock (pc : π) : Option (Monitor π) :=
  match m.owner with
  | none => some { m.goto t pc with owner := some t }
  | some _ => none

/-- It gives the mutex back. -/
def unlock (pc : π) : Monitor π := { m.goto t pc with owner := none }

/-- It gives the mutex back and waits. -/
def wait (deadline : Int) : Monitor π where
  owner := none
  places := m.places.set t (.waiting deadline)

/-- It stops waiting. -/
def wake (deadline : Int) (timedOut : Bool) : Monitor π :=
  { m with places := m.places.set t (.woken deadline timedOut) }

/-- All that wait are notified. -/
def broadcast : Monitor π := { m with places := m.places.map Place.notify }

end Operations

/-- **The mutex is held by the one thread whose place says so.** -/
def Held (holds : π → Prop) (m : Monitor π) : Prop :=
  (∀ t pc, m.places[t]? = some (.code pc) → (holds pc ↔ m.owner = some t)) ∧
    ∀ t, m.owner = some t → ∃ pc, m.places[t]? = some (.code pc)

section Held

variable {holds : π → Prop} {m m' : Monitor π} {t : Nat} {pc pc' : π} {deadline : Int}

theorem lock_places (hl : m.lock t pc = some m') : m'.places = m.places.set t (.code pc) := by
  unfold Monitor.lock at hl
  split at hl
  · exact (Option.some.inj hl) ▸ rfl
  · exact absurd hl (by simp)

/-- There is one holder. -/
theorem Held.unique (h : Held holds m) {u : Nat} (ht : m.places[t]? = some (.code pc))
    (hu : m.places[u]? = some (.code pc')) (hpc : holds pc) (hpc' : holds pc') : t = u := by
  have h1 := (h.1 t pc ht).mp hpc
  have h2 := (h.1 u pc' hu).mp hpc'
  exact Option.some.inj (h1.symm.trans h2)

/-- A step in the code that takes no mutex and gives none back. -/
theorem Held.goto (h : Held holds m) (ht : m.places[t]? = some (.code pc))
    (hsame : holds pc' ↔ holds pc) : Held holds (m.goto t pc') := by
  constructor
  · intro u q hu
    rcases List.getElem?_set_cases hu with ⟨-, hu⟩ | ⟨rfl, hq, -⟩
    · exact h.1 u q hu
    · rw [Place.code.inj hq, hsame]
      exact h.1 u pc ht
  · intro u hu
    by_cases hut : u = t
    · subst hut
      exact ⟨pc', List.getElem?_set_eq ht _⟩
    · obtain ⟨q, hq⟩ := h.2 u hu
      exact ⟨q, by rw [Monitor.goto, List.getElem?_set_ne (Ne.symm hut)]; exact hq⟩

/-- The mutex is taken, by a thread that comes from its code or from a wait. -/
theorem Held.lock (h : Held holds m) {p : Place π} (ht : m.places[t]? = some p)
    (hl : m.lock t pc = some m') (hpc : holds pc) : Held holds m' ∧ m.owner = none ∧
      m' = { m.goto t pc with owner := some t } := by
  unfold Monitor.lock at hl
  split at hl
  · rename_i hfree
    obtain rfl := Option.some.inj hl
    refine ⟨⟨fun u q hu => ?_, fun u hu => ?_⟩, hfree, rfl⟩
    · rcases List.getElem?_set_cases hu with ⟨hne, hu⟩ | ⟨rfl, hq, -⟩
      · have hno := h.1 u q hu
        rw [hfree] at hno
        exact ⟨fun hq => absurd (hno.mp hq) (by simp),
          fun ho => absurd (Option.some.inj ho).symm hne⟩
      · rw [Place.code.inj hq]
        exact ⟨fun _ => rfl, fun _ => hpc⟩
    · obtain rfl := Option.some.inj hu
      exact ⟨pc, List.getElem?_set_eq ht _⟩
  · exact absurd hl (by simp)

/-- The holder gives the mutex back, and nobody has it. -/
theorem Held.release (h : Held holds m) (ht : m.places[t]? = some (.code pc)) (hpc : holds pc)
    {p : Place π} (hp : ∀ q, p = .code q → ¬ holds q) :
    Held holds { m with owner := none, places := m.places.set t p } := by
  refine ⟨fun u q hu => ⟨fun hq => ?_, fun ho => absurd ho (by simp)⟩, fun u hu =>
    absurd hu (by simp)⟩
  rcases List.getElem?_set_cases hu with ⟨hne, hu⟩ | ⟨rfl, hq', -⟩
  · exact absurd (h.unique ht hu hpc hq).symm hne
  · exact absurd hq (hp q hq'.symm)

/-- A thread that waits stops waiting. -/
theorem Held.wake (h : Held holds m) {d : Int} (ht : m.places[t]? = some (.waiting d))
    (deadline : Int) (timedOut : Bool) : Held holds (m.wake t deadline timedOut) := by
  constructor
  · intro u q hu
    rcases List.getElem?_set_cases hu with ⟨-, hu⟩ | ⟨-, hq, -⟩
    · exact h.1 u q hu
    · exact absurd hq (by simp)
  · intro u hu
    obtain ⟨q, hq⟩ := h.2 u hu
    have hut : u ≠ t := by
      rintro rfl
      exact absurd (ht.symm.trans hq) (by simp)
    exact ⟨q, by rw [Monitor.wake, List.getElem?_set_ne (Ne.symm hut)]; exact hq⟩

/-- A thread in its code is not touched by a broadcast, and nobody waits behind it. -/
theorem broadcast_code : (m.broadcast).places[t]? = some (.code pc) ↔
    m.places[t]? = some (.code pc) := by
  unfold Monitor.broadcast
  rw [List.getElem?_map]
  cases m.places[t]? with
  | none => simp
  | some p => cases p <;> simp [Place.notify]

theorem broadcast_not_waiting : (m.broadcast).places[t]? ≠ some (.waiting deadline) := by
  unfold Monitor.broadcast
  rw [List.getElem?_map]
  cases m.places[t]? with
  | none => simp
  | some p => cases p <;> simp [Place.notify]

/-- What a broadcast wakes up has not timed out. -/
theorem broadcast_timedOut : (m.broadcast).places[t]? = some (.woken deadline true) ↔
    m.places[t]? = some (.woken deadline true) := by
  unfold Monitor.broadcast
  rw [List.getElem?_map]
  cases m.places[t]? with
  | none => simp
  | some p => cases p <;> simp [Place.notify]

theorem Held.broadcast (h : Held holds m) : Held holds m.broadcast := by
  refine ⟨fun u q hu => h.1 u q (broadcast_code.mp hu), fun u hu => ?_⟩
  obtain ⟨q, hq⟩ := h.2 u hu
  exact ⟨q, broadcast_code.mpr hq⟩

end Held

end Monitor
