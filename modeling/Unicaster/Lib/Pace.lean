/-
# Keeping a pace

The moments at which something was done, in their order.  They are spaced if any two are a given
time apart, and it is due again once that time has gone by since each of them.  Who does it only
when it is due keeps a pace, and does it in no stretch of time more often than the stretch has room
for.

They are dense if no two neighbours are more than a given time apart.  Who does it before that time
has gone by since the last of them leaves no longer stretch of time without.
-/
import Mathlib.Algebra.Order.Ring.Int
import Mathlib.Data.List.Chain
import Mathlib.Data.List.Pairwise
import Mathlib.Tactic.Linarith

namespace Pace

/-- Any two of the moments are `gap` apart. -/
def Spaced (gap : Int) (moments : List Int) : Prop := moments.Pairwise fun x y => x + gap ≤ y

/-- `gap` has gone by at `now`. -/
def Due (gap : Int) (moments : List Int) (now : Int) : Prop := ∀ x ∈ moments, x + gap ≤ now

section Rules

variable {gap now start stop : Int} {moments : List Int}

theorem spaced_nil : Spaced gap [] := List.Pairwise.nil

theorem due_nil : Due gap [] now := fun _ hx => absurd hx (by simp)

theorem Due.later (h : Due gap moments now) {now' : Int} (hle : now ≤ now') :
    Due gap moments now' := fun x hx => le_trans (h x hx) hle

/-- Where nothing is later than `now`, it is due `gap` from `now`. -/
theorem Due.of_past (h : ∀ x ∈ moments, x ≤ now) : Due gap moments (now + gap) := by
  intro x hx
  have hle := h x hx
  omega

/-- **It is done when it is due.** -/
theorem Spaced.concat (h : Spaced gap moments) (hdue : Due gap moments now) :
    Spaced gap (moments ++ [now]) := by
  refine List.pairwise_append.mpr ⟨h, List.pairwise_singleton _ _, fun x hx y hy => ?_⟩
  rw [List.mem_singleton.mp hy]
  exact hdue x hx

theorem past_concat (h : ∀ x ∈ moments, x ≤ now) : ∀ x ∈ moments ++ [now], x ≤ now := by
  intro x hx
  rcases List.mem_append.mp hx with hx | hx
  · exact h x hx
  · exact le_of_eq (List.mem_singleton.mp hx)

/-- **A stretch of time has room for so many.** -/
theorem Spaced.length_le (h : Spaced gap moments) (hspan : start ≤ stop)
    (hin : ∀ x ∈ moments, start ≤ x ∧ x ≤ stop) :
    ((moments.length - 1 : Nat) : Int) * gap ≤ stop - start := by
  induction moments generalizing start with
  | nil =>
    rw [List.length_nil, Nat.zero_sub, Int.natCast_zero, zero_mul]
    omega
  | cons x rest ih =>
    obtain ⟨hlate, hrest⟩ := List.pairwise_cons.mp h
    have hx := hin x List.mem_cons_self
    have hbehind := fun y hy => hin y (List.mem_cons_of_mem x hy)
    cases rest with
    | nil =>
      rw [List.length_singleton, Nat.sub_self, Int.natCast_zero, zero_mul]
      omega
    | cons y ys =>
      -- the others lie behind `x + gap`
      have hroom := @ih (x + gap) hrest
        (le_trans (hlate y List.mem_cons_self) (hbehind y List.mem_cons_self).2)
        fun z hz => ⟨hlate z hz, (hbehind z hz).2⟩
      rw [List.length_cons, Nat.add_sub_cancel] at hroom ⊢
      rw [List.length_cons]
      push_cast
      linarith [hx.1]

/-- The same of those that fall into the stretch. -/
theorem Spaced.countP_le (h : Spaced gap moments) (hspan : start ≤ stop) :
    ((moments.countP (fun x => decide (start ≤ x ∧ x ≤ stop)) - 1 : Nat) : Int) * gap ≤
      stop - start := by
  rw [List.countP_eq_length_filter]
  refine Spaced.length_le (List.Pairwise.filter _ h) hspan fun x hx => ?_
  exact of_decide_eq_true (List.mem_filter.mp hx).2

end Rules

/-- No two neighbours are more than `gap` apart. -/
def Dense (gap : Int) (moments : List Int) : Prop := moments.IsChain fun x y => y ≤ x + gap

/-- At `now`, no more than `gap` has gone by since the last of them. -/
def Within (gap : Int) (moments : List Int) (now : Int) : Prop :=
  ∀ x, moments.getLast? = some x → now ≤ x + gap

section Density

variable {gap now start : Int} {moments : List Int}

theorem dense_nil : Dense gap [] := List.IsChain.nil

theorem within_nil : Within gap [] now := fun _ hx => absurd hx (by simp)

theorem Within.mono (h : Within gap moments now) {gap' now' : Int}
    (hle : now' - now ≤ gap' - gap) : Within gap' moments now' := by
  intro x hx
  have hnow := h x hx
  omega

theorem within_concat {x : Int} (h : now ≤ x + gap) : Within gap (moments ++ [x]) now := by
  intro y hy
  rw [List.getLast?_concat, Option.some.injEq] at hy
  rwa [← hy]

/-- **It is done in time.** -/
theorem Dense.concat (h : Dense gap moments) (hwithin : Within gap moments now) :
    Dense gap (moments ++ [now]) := by
  refine List.isChain_append.mpr ⟨h, List.isChain_singleton now, ?_⟩
  intro x hx y hy
  rw [List.head?_cons, Option.mem_some_iff] at hy
  rw [← hy]
  exact hwithin x hx

/-- **No stretch of `gap` is without one**, from the first of them on. -/
theorem Dense.exists_mem (h : Dense gap moments) (hgap : 0 ≤ gap)
    (hlast : Within gap moments now) {first : Int} (hfirst : moments.head? = some first)
    (hle : first ≤ start) (hstop : start + gap ≤ now) :
    ∃ x ∈ moments, start ≤ x ∧ x ≤ start + gap := by
  induction moments generalizing first with
  | nil => exact absurd hfirst (by simp)
  | cons x rest ih =>
    obtain rfl : x = first := Option.some.inj hfirst
    cases rest with
    | nil =>
      have hnow := hlast x rfl
      refine ⟨x, List.mem_cons_self, ?_, ?_⟩ <;> omega
    | cons y ys =>
      obtain ⟨hnext, hrest⟩ := List.isChain_cons_cons.mp h
      rcases Int.le_total start y with hy | hy
      · exact ⟨y, by simp, hy, by omega⟩
      · have hbehind : Within gap (y :: ys) now := fun z hz => hlast z hz
        obtain ⟨z, hz, hin⟩ := ih hrest hbehind rfl hy
        exact ⟨z, List.mem_cons_of_mem x hz, hin⟩

end Density

end Pace
