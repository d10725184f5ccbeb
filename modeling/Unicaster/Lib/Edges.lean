/-
# Edges

A LEVEL is read again and again, and what is told is that it changed.  The edges of a sequence of
readings are the readings that differ from the level before them; with nothing read yet the level
is given.

An edge comes with what was read besides the level.  Edges alternate, so of any two levels the one
is never told much more often than the other.
-/
import Mathlib.Data.List.Basic

namespace Edges

variable {β : Type}

/-- The level behind the readings. -/
def level : Bool → List (Bool × β) → Bool
  | l, [] => l
  | _, x :: xs => level x.1 xs

/-- The readings that differ from the level before them. -/
def edges : Bool → List (Bool × β) → List (Bool × β)
  | _, [] => []
  | l, x :: xs => if x.1 = l then edges x.1 xs else x :: edges x.1 xs

section Rules

variable {l : Bool} {xs ys : List (Bool × β)} {x : Bool × β} {i : Nat}

theorem level_append (l : Bool) (xs ys : List (Bool × β)) :
    level l (xs ++ ys) = level (level l xs) ys := by
  induction xs generalizing l with
  | nil => rfl
  | cons x xs ih => exact ih x.1

theorem edges_append (l : Bool) (xs ys : List (Bool × β)) :
    edges l (xs ++ ys) = edges l xs ++ edges (level l xs) ys := by
  induction xs generalizing l with
  | nil => rfl
  | cons x xs ih =>
    simp only [List.cons_append, edges, level]
    split
    · exact ih x.1
    · rw [ih x.1, List.cons_append]

/-- One reading more. -/
theorem level_concat (l : Bool) (xs : List (Bool × β)) (x : Bool × β) :
    level l (xs ++ [x]) = x.1 := level_append l xs [x]

theorem edges_concat (l : Bool) (xs : List (Bool × β)) (x : Bool × β) :
    edges l (xs ++ [x]) = edges l xs ++ if x.1 = level l xs then [] else [x] := by
  rw [edges_append]
  rfl

/-- Only what was read is told, in its order. -/
theorem edges_sublist (l : Bool) (xs : List (Bool × β)) : (edges l xs).Sublist xs := by
  induction xs generalizing l with
  | nil => exact List.Sublist.slnil
  | cons x xs ih =>
    simp only [edges]
    split
    · exact (ih x.1).cons x
    · exact (ih x.1).cons_cons x

/-- **Edges alternate**: the first one leaves the level given, and each one the level of the one
before. -/
theorem edges_alternate (h : (edges l xs)[i]? = some x) :
    x.1 = if i % 2 = 0 then !l else l := by
  induction xs generalizing l i with
  | nil => exact absurd h (by simp [edges])
  | cons y xs ih =>
    simp only [edges] at h
    split at h
    · rename_i hy
      rw [ih h, hy]
    · rename_i hy
      have hnot : y.1 = !l := by
        cases hl : l <;> cases hyl : y.1 <;> simp_all
      cases i with
      | zero =>
        obtain rfl : y = x := by simpa using h
        rw [if_pos rfl]
        exact hnot
      | succ i =>
        have hrest := ih (i := i) (by simpa using h)
        rw [hrest, hnot, Bool.not_not]
        rcases Nat.mod_two_eq_zero_or_one i with h0 | h1
        · rw [if_pos h0, if_neg (by omega)]
        · rw [if_neg (by omega), if_pos (by omega)]

/-- The two kinds of edges are told equally often, but for the one the level rests on. -/
theorem countP_edges (l : Bool) (xs : List (Bool × β)) :
    (edges l xs).countP (·.1) + l.toNat =
      (edges l xs).countP (fun x => !x.1) + (level l xs).toNat := by
  induction xs generalizing l with
  | nil => rfl
  | cons x xs ih =>
    obtain ⟨b, y⟩ := x
    have hrest := ih b
    have hlevel : level l ((b, y) :: xs) = level b xs := rfl
    rw [hlevel]
    simp only [edges]
    split
    · rename_i hb
      rw [← hb]
      exact hrest
    · rename_i hb
      rw [List.countP_cons, List.countP_cons]
      cases l <;> cases b <;> simp_all
      omega

end Rules

end Edges
