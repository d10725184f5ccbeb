/-
# Entries of a list that changed

A list of threads, of handles or of events changes in two ways: one entry more at its end, or
another value at an index.  An entry of the list behind the change is either an entry from before
or the new one, and it is said at which index.
-/
import Mathlib.Algebra.GroupWithZero.Nat
import Mathlib.Data.List.Basic
import Mathlib.Data.List.Forall2

namespace List

variable {α β : Type} {l : List α} {x y z : α} {i k : Nat}

/-- An entry of a list with one more at its end. -/
theorem getElem?_concat_cases (h : (l ++ [x])[k]? = some y) :
    k < l.length ∧ l[k]? = some y ∨ k = l.length ∧ y = x := by
  rw [List.getElem?_append] at h
  split at h
  · rename_i hk
    exact Or.inl ⟨hk, h⟩
  · rename_i hk
    have hlt : k - l.length < [x].length := (List.getElem?_eq_some_iff.mp h).1
    have hk0 : k - l.length = 0 := by
      simp only [List.length_singleton] at hlt
      omega
    rw [hk0, List.getElem?_cons_zero, Option.some.injEq] at h
    exact Or.inr ⟨by omega, h.symm⟩

/-- An entry of a list with one of them replaced. -/
theorem getElem?_set_cases (h : (l.set i x)[k]? = some y) :
    k ≠ i ∧ l[k]? = some y ∨ k = i ∧ y = x ∧ i < l.length := by
  rw [List.getElem?_set] at h
  split at h
  · rename_i hik
    split at h
    · rename_i hlt
      exact Or.inr ⟨hik.symm, (Option.some.inj h).symm, hlt⟩
    · exact absurd h (by simp)
  · rename_i hik
    exact Or.inl ⟨fun he => hik he.symm, h⟩

/-- The entry that replaces another is found. -/
theorem getElem?_set_eq (h : l[i]? = some x) (y : α) : (l.set i y)[i]? = some y :=
  List.getElem?_set_self (List.getElem?_eq_some_iff.mp h).1

/-- An entry that is written as it was. -/
theorem set_eq_self (h : l[i]? = some x) : l.set i x = l := by
  obtain ⟨hlt, rfl⟩ := List.getElem?_eq_some_iff.mp h
  exact List.set_getElem_self hlt

/-- A list of which an entry is written that reads the same. -/
theorem map_set_of_eq {f : α → β} (h : l[i]? = some x) (hf : f y = f x) :
    (l.set i y).map f = l.map f := by
  rw [List.map_set]
  refine List.ext_getElem? fun k => ?_
  rw [List.getElem?_set]
  split
  · rename_i hik
    subst hik
    split
    · rw [List.getElem?_map, h, Option.map_some, hf]
    · rename_i hlt
      rw [List.getElem?_eq_none (by omega)]
  · rfl

/-- To change an entry is to replace it. -/
theorem modify_eq_set_of_getElem? (f : α → α) (h : l[i]? = some x) :
    l.modify i f = l.set i (f x) := by
  induction l generalizing i with
  | nil => exact absurd h (by simp)
  | cons y l ih =>
    cases i with
    | zero =>
      obtain rfl : y = x := by simpa using h
      rfl
    | succ i => rw [List.modify_succ_cons, List.set_cons_succ, ih (by simpa using h)]

/-- One entry is changed, and one more comes at the end: in either order. -/
theorem modify_concat (f : α → α) (h : i < l.length) :
    (l ++ [x]).modify i f = l.modify i f ++ [x] := by
  induction l generalizing i with
  | nil => exact absurd h (Nat.not_lt_zero i)
  | cons y l ih =>
    cases i with
    | zero => rfl
    | succ i =>
      rw [List.cons_append, List.modify_succ_cons, List.modify_succ_cons, List.cons_append,
        ih (Nat.lt_of_succ_lt_succ h)]

/-- One entry is changed, and another one replaced: in either order. -/
theorem modify_set (f : α → α) (h : k ≠ i) :
    (l.set k x).modify i f = (l.modify i f).set k x := by
  induction l generalizing i k with
  | nil => simp
  | cons y l ih =>
    cases i with
    | zero =>
      cases k with
      | zero => exact absurd rfl h
      | succ k => rfl
    | succ i =>
      cases k with
      | zero => rfl
      | succ k =>
        rw [List.set_cons_succ, List.modify_succ_cons, List.modify_succ_cons, List.set_cons_succ,
          ih (fun he => h (congrArg Nat.succ he))]

/-! Counting entries, and the sum of a measure over them. -/

/-- The first `n` entries count for nothing, and no entry counts twice. -/
theorem countP_add_countP_le {p q : α → Bool} {n : Nat}
    (h0 : ∀ (k : Nat) y, l[k]? = some y → k < n → p y = false ∧ q y = false)
    (hb : ∀ y ∈ l, p y = true → q y = false) : l.countP p + l.countP q ≤ l.length - n := by
  induction l generalizing n with
  | nil => simp
  | cons z l ih =>
    have hbl : ∀ y ∈ l, p y = true → q y = false := fun y hy => hb y (List.mem_cons_of_mem z hy)
    rw [List.countP_cons, List.countP_cons, List.length_cons]
    cases n with
    | zero =>
      have hrest := ih (n := 0) (fun k y _ hk => absurd hk (Nat.not_lt_zero k)) hbl
      have hz := hb z List.mem_cons_self
      cases hp : p z with
      | true =>
        rw [hz hp, if_pos rfl, if_neg Bool.false_ne_true]
        omega
      | false =>
        rw [if_neg Bool.false_ne_true]
        split <;> omega
    | succ n =>
      obtain ⟨hp, hq⟩ := h0 0 z rfl (Nat.succ_pos n)
      have hrest := ih (n := n) (fun k y hk hlt => h0 (k + 1) y (by simpa using hk) (by omega)) hbl
      rw [hp, hq, if_neg Bool.false_ne_true]
      omega

/-- One entry replaced. -/
theorem sum_map_set (f : α → Nat) (h : l[i]? = some x) (y : α) :
    ((l.set i y).map f).sum + f x = (l.map f).sum + f y := by
  induction l generalizing i with
  | nil => exact absurd h (by simp)
  | cons z l ih =>
    cases i with
    | zero =>
      obtain rfl : z = x := by simpa using h
      simp only [List.set_cons_zero, List.map_cons, List.sum_cons]
      omega
    | succ i =>
      have hrest := ih (by simpa using h)
      simp only [List.set_cons_succ, List.map_cons, List.sum_cons]
      omega

/-- The first `n` entries count nothing, and the others at most `b` each. -/
theorem sum_map_le_of_settled (f : α → Nat) {n b : Nat}
    (h0 : ∀ (k : Nat) y, l[k]? = some y → k < n → f y = 0) (hb : ∀ y ∈ l, f y ≤ b) :
    (l.map f).sum ≤ (l.length - n) * b := by
  induction l generalizing n with
  | nil => simp
  | cons z l ih =>
    have hbl : ∀ y ∈ l, f y ≤ b := fun y hy => hb y (List.mem_cons_of_mem z hy)
    rw [List.map_cons, List.sum_cons, List.length_cons]
    cases n with
    | zero =>
      have hrest := ih (n := 0) (fun k y _ hk => absurd hk (Nat.not_lt_zero k)) hbl
      have hz := hb z List.mem_cons_self
      rw [Nat.sub_zero] at hrest ⊢
      rw [Nat.succ_mul]
      omega
    | succ n =>
      have hz : f z = 0 := h0 0 z rfl (Nat.succ_pos n)
      have hrest := ih (n := n) (fun k y hk hlt => h0 (k + 1) y (by simpa using hk) (by omega)) hbl
      rw [Nat.add_sub_add_right]
      omega

/-! Entries that are about the entries of another list, in its order. -/

/-- Each of `ys` is about one of `xs`, in the same order and no two about the same, and `p` is one
of `xs` behind all these that nothing is about yet. -/
def InOrder (R : α → β → Prop) (xs : List α) (p : Option α) (ys : List β) : Prop :=
  ∃ told, (told ++ p.toList).Sublist xs ∧ Forall₂ R told ys

section InOrder

variable {R : α → β → Prop} {xs : List α} {p : Option α} {ys : List β} {a : α} {b : β}

theorem InOrder.nil : InOrder R [] none [] := ⟨[], Sublist.slnil, .nil⟩

/-- One that nothing is about is passed over. -/
theorem InOrder.pass (h : InOrder R xs p ys) : InOrder R xs none ys := by
  obtain ⟨told, hsub, hall⟩ := h
  refine ⟨told, ?_, hall⟩
  rw [Option.toList_none, append_nil]
  exact (sublist_append_left told p.toList).trans hsub

/-- A new one, which there is something to say about. -/
theorem InOrder.expect (h : InOrder R xs p ys) (a : α) : InOrder R (xs ++ [a]) (some a) ys := by
  obtain ⟨told, hsub, hall⟩ := h.pass
  rw [Option.toList_none, append_nil] at hsub
  exact ⟨told, hsub.append (Sublist.refl [a]), hall⟩

/-- It is said. -/
theorem InOrder.tell (h : InOrder R xs (some a) ys) (hab : R a b) :
    InOrder R xs none (ys ++ [b]) := by
  obtain ⟨told, hsub, hall⟩ := h
  refine ⟨told ++ [a], ?_, rel_append hall (.cons hab .nil)⟩
  rwa [Option.toList_none, append_nil]

end InOrder

end List
