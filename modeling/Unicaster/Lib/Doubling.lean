/-
# Doubling below a bound

A loop that doubles a number while it is below a bound: the capacity of a growing buffer, the
delay before another try.  `rounds bound n x` is the number behind at most `n` rounds, computed
in the ring; what such a loop yields is read off `min_rounds`, which says that below the bound
it is `x * 2 ^ n`.

A program doubles machine numbers.  `whileBelow` takes the machine's doubling as a parameter and
is the loop as written, with fuel; it is `rounds` wherever the machine is exact below the bound.
-/
import Mathlib.Algebra.Order.Ring.Defs
import Mathlib.Algebra.Order.Monoid.NatCast

namespace Doubling

/-! ## 1. In a ring -/

section Rounds

variable {α : Type*} [CommSemiring α] [LinearOrder α] {bound x : α} {n : Nat}

/-- At most `n` rounds, none at or above the bound. -/
def rounds (bound : α) : Nat → α → α
  | 0, x => x
  | n + 1, x => if x < bound then rounds bound n (x * 2) else x

theorem rounds_of_le (n : Nat) (h : bound ≤ x) : rounds bound n x = x := by
  cases n with
  | zero => rfl
  | succ n => exact if_neg (not_lt.mpr h)

variable [IsStrictOrderedRing α]

theorem le_mul_two (h0 : 0 ≤ x) : x ≤ x * 2 := le_mul_of_one_le_right h0 one_le_two

/-- **Below the bound it is the power.** -/
theorem min_rounds (bound : α) (n : Nat) (h0 : 0 ≤ x) :
    min (rounds bound n x) bound = min (x * 2 ^ n) bound := by
  induction n generalizing x with
  | zero => simp [rounds]
  | succ n ih =>
    rw [rounds]
    split
    · rw [ih (h0.trans (le_mul_two h0)), pow_succ, mul_assoc, mul_comm 2]
    · rename_i hle
      rw [min_eq_right (not_lt.mp hle),
        min_eq_right ((not_lt.mp hle).trans (le_mul_of_one_le_right h0 (one_le_pow₀ one_le_two)))]

/-- The power, cut at a cap, never falls. -/
theorem min_pow_le (cap : α) (h0 : 0 ≤ x) {k l : Nat} (hkl : k ≤ l) :
    min cap (x * 2 ^ k) ≤ min cap (x * 2 ^ l) :=
  min_le_min_left cap (mul_le_mul_of_nonneg_left (pow_le_pow_right₀ one_le_two hkl) h0)

/-- The bound is reached as soon as the power reaches it. -/
theorem le_rounds (h0 : 0 ≤ x) (h : bound ≤ x * 2 ^ n) : bound ≤ rounds bound n x := by
  have hmin := min_rounds bound n h0
  rw [min_eq_right h] at hmin
  exact min_eq_right_iff.mp hmin

/-- It is left alone, or ends less than twice the bound. -/
theorem rounds_cases (bound : α) (n : Nat) (x : α) :
    rounds bound n x = x ∨ rounds bound n x < bound * 2 := by
  induction n generalizing x with
  | zero => exact Or.inl rfl
  | succ n ih =>
    rw [rounds]
    split
    · rename_i hlt
      right
      have hstep : x * 2 < bound * 2 := mul_lt_mul_of_pos_right hlt two_pos
      rcases ih (x * 2) with heq | hlt'
      · rwa [heq]
      · exact hlt'
    · exact Or.inl rfl

end Rounds

/-! ## 2. In a machine -/

section Machine

variable {α : Type*} [LinearOrder α]

/-- `while (x < bound) x *= 2` with fuel; `none` is a doubling that fails, or a loop that is
still going on. -/
def whileBelow (double : α → Option α) (bound : α) : Nat → α → Option α
  | 0, _ => none
  | fuel + 1, x => if x < bound then (double x).bind (whileBelow double bound fuel) else some x

variable {double : α → Option α} {bound x : α}

theorem whileBelow_of_le (fuel : Nat) (h : bound ≤ x) :
    whileBelow double bound (fuel + 1) x = some x := if_neg (not_lt.mpr h)

theorem whileBelow_of_lt (fuel : Nat) (h : x < bound) :
    whileBelow double bound (fuel + 1) x = (double x).bind (whileBelow double bound fuel) :=
  if_pos h

/-- A loop that is still going on started below the bound. -/
theorem lt_of_whileBelow_none {fuel : Nat} (h : whileBelow double bound (fuel + 1) x = none) :
    x < bound := by
  by_contra hle
  rw [whileBelow_of_le fuel (not_lt.mp hle)] at h
  exact absurd h (by simp)

/-- A loop that comes back to where it is does not end. -/
theorem whileBelow_stuck (h : x < bound) (hstuck : double x = some x) (fuel : Nat) :
    whileBelow double bound fuel x = none := by
  induction fuel with
  | zero => rfl
  | succ fuel ih => rw [whileBelow_of_lt fuel h, hstuck, Option.bind_some, ih]

/-- **Fuel enough.**  Where `n` doublings lead to a number that doubles to itself, as in a
machine that wraps, a loop that is still going on behind them never ends. -/
theorem whileBelow_none {f : α → α} {n : Nat} (hdouble : ∀ y, double y = some (f y))
    (hfix : f (f^[n] x) = f^[n] x) (h : whileBelow double bound (n + 1) x = none) (fuel : Nat) :
    whileBelow double bound fuel x = none := by
  have hlt : x < bound := lt_of_whileBelow_none h
  induction n generalizing x fuel with
  | zero => exact whileBelow_stuck hlt ((hdouble x).trans (congrArg some hfix)) fuel
  | succ n ih =>
    rw [whileBelow_of_lt _ hlt, hdouble, Option.bind_some] at h
    cases fuel with
    | zero => rfl
    | succ fuel =>
      rw [whileBelow_of_lt _ hlt, hdouble, Option.bind_some]
      exact ih hfix h fuel (lt_of_whileBelow_none h)

/-- **The loop of a machine that doubles exactly below the bound ends**, and ends where the ring
says. -/
theorem whileBelow_eq [CommSemiring α] [IsStrictOrderedRing α] {n : Nat}
    (hdouble : ∀ y, 0 ≤ y → y < bound → double y = some (y * 2)) (h0 : 0 ≤ x)
    (h : bound ≤ x * 2 ^ n) :
    whileBelow double bound (n + 1) x = some (rounds bound n x) := by
  induction n generalizing x with
  | zero =>
    rw [pow_zero, mul_one] at h
    exact whileBelow_of_le 0 h
  | succ n ih =>
    by_cases hlt : x < bound
    · rw [whileBelow_of_lt _ hlt, hdouble x h0 hlt, Option.bind_some, rounds, if_pos hlt]
      refine ih (h0.trans (le_mul_two h0)) ?_
      rwa [mul_assoc, ← pow_succ']
    · rw [whileBelow_of_le _ (not_lt.mp hlt), rounds_of_le _ (not_lt.mp hlt)]

end Machine

end Doubling
