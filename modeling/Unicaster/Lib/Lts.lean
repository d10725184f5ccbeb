/-
# Transition systems given by a partial step function

A system is a function `step : σ → α → Option σ`: what the action `a` does in the state `s`,
or `none` when `a` is not possible there.  Being a function it can be run on a list of
actions (`exec`), so a scenario is evaluated; being partial it says exactly which actions
are enabled, so every interleaving is a list of actions.

A run is the reflexive transitive closure of one step, taken under a SIDE CONDITION
`ok : σ → α → Prop` on the state and the action.  The side condition is what lets one system
serve several results: `free` for all runs, a bound on the clock for the timely ones, "the
caller is still busy" for one call.
-/
import Mathlib.Data.List.Forall2
import Mathlib.Logic.Relation

namespace Lts

variable {σ τ α β γ : Type*}

/-! ## 1. Runs -/

/-- One step of the system, by some action that `ok` allows there. -/
def Next (step : σ → α → Option σ) (ok : σ → α → Prop) (s s' : σ) : Prop :=
  ∃ a, ok s a ∧ step s a = some s'

/-- A run: any number of allowed steps. -/
abbrev Run (step : σ → α → Option σ) (ok : σ → α → Prop) : σ → σ → Prop :=
  Relation.ReflTransGen (Next step ok)

/-- The side condition that allows every action. -/
def free : σ → α → Prop := fun _ _ => True

/-- `s` is reached from some initial state. -/
def Reachable (step : σ → α → Option σ) (init : σ → Prop) (s : σ) : Prop :=
  ∃ s₀, init s₀ ∧ Run step free s₀ s

variable {step : σ → α → Option σ} {ok ok' : σ → α → Prop} {init : σ → Prop} {s s' : σ}

/-- **An invariant, once and for all.**  What holds at the start and is kept by every allowed
step holds at the end of the run. -/
theorem Run.invariant {I : σ → Prop} (h : Run step ok s s') (h0 : I s)
    (hstep : ∀ t a u, I t → ok t a → step t a = some u → I u) : I s' := by
  induction h with
  | refl => exact h0
  | tail _ hn ih =>
    obtain ⟨a, hok, hst⟩ := hn
    exact hstep _ a _ ih hok hst

/-- A weaker side condition allows more runs. -/
theorem Run.mono (h : Run step ok s s') (hok : ∀ t a, ok t a → ok' t a) :
    Run step ok' s s' :=
  Relation.ReflTransGen.mono (fun _ _ ⟨a, h1, h2⟩ => ⟨a, hok _ a h1, h2⟩) _ _ h

/-- One step is a run. -/
theorem Run.single {a : α} (hok : ok s a) (h : step s a = some s') : Run step ok s s' :=
  Relation.ReflTransGen.single ⟨a, hok, h⟩

/-- A run that starts with a given step. -/
theorem Run.cons {a : α} {t : σ} (hok : ok s a) (h : step s a = some t)
    (hr : Run step ok t s') : Run step ok s s' :=
  Relation.ReflTransGen.head ⟨a, hok, h⟩ hr

theorem Reachable.of_init (h : init s) : Reachable step init s :=
  ⟨s, h, Relation.ReflTransGen.refl⟩

theorem Reachable.run (h : Reachable step init s) (hr : Run step ok s s') :
    Reachable step init s' := by
  obtain ⟨s₀, h0, h1⟩ := h
  exact ⟨s₀, h0, h1.trans (hr.mono fun _ _ _ => trivial)⟩

theorem Reachable.next {a : α} (h : Reachable step init s) (hst : step s a = some s') :
    Reachable step init s' :=
  h.run (show Run step free s s' from Run.single trivial hst)

/-- **Inductive invariants hold in every reachable state.** -/
theorem Reachable.invariant {I : σ → Prop} (h : Reachable step init s)
    (h0 : ∀ t, init t → I t) (hstep : ∀ t a u, I t → step t a = some u → I u) : I s := by
  obtain ⟨s₀, hi, hr⟩ := h
  exact hr.invariant (h0 _ hi) fun t a u hI _ hst => hstep t a u hI hst

/-- **Progress.**  Where every state of the invariant that is not a goal has an allowed step that
keeps the invariant and lowers a measure, a run reaches a goal. -/
theorem Run.reaches (I goal : σ → Prop) (μ : σ → Nat) (h0 : I s)
    (hstep : ∀ t, I t → ¬ goal t → ∃ a u, ok t a ∧ step t a = some u ∧ I u ∧ μ u < μ t) :
    ∃ u, Run step ok s u ∧ I u ∧ goal u := by
  induction hn : μ s using Nat.strongRecOn generalizing s with
  | ind n ih =>
    by_cases hg : goal s
    · exact ⟨s, Relation.ReflTransGen.refl, h0, hg⟩
    · obtain ⟨a, t, hok, hst, ht, hlt⟩ := hstep s h0 hg
      obtain ⟨u, hr, hu, hgu⟩ := ih (μ t) (hn ▸ hlt) ht rfl
      exact ⟨u, Run.cons hok hst hr, hu, hgu⟩

/-- **Progress by stretches.**  The same, where it takes some steps to lower the measure. -/
theorem Run.reaches_by_runs (I goal : σ → Prop) (μ : σ → Nat) (h0 : I s)
    (hrun : ∀ t, I t → ¬ goal t → ∃ u, Run step ok t u ∧ I u ∧ μ u < μ t) :
    ∃ u, Run step ok s u ∧ I u ∧ goal u := by
  induction hn : μ s using Nat.strongRecOn generalizing s with
  | ind n ih =>
    by_cases hg : goal s
    · exact ⟨s, Relation.ReflTransGen.refl, h0, hg⟩
    · obtain ⟨t, hst, ht, hlt⟩ := hrun s h0 hg
      obtain ⟨u, hr, hu, hgu⟩ := ih (μ t) (hn ▸ hlt) ht rfl
      exact ⟨u, hst.trans hr, hu, hgu⟩

/-! ## 2. Running a list of actions -/

/-- Take the actions one after the other; `none` as soon as one is not possible. -/
def exec (step : σ → α → Option σ) : σ → List α → Option σ
  | s, [] => some s
  | s, a :: as => (step s a).bind (exec step · as)

/-- The same, refusing an action that the test `p` does not allow where it is taken. -/
def execIf (step : σ → α → Option σ) (p : σ → α → Bool) : σ → List α → Option σ
  | s, [] => some s
  | s, a :: as => if p s a then (step s a).bind (execIf step p · as) else none

theorem run_of_exec {as : List α} {s : σ} (h : exec step s as = some s') :
    Run step free s s' := by
  induction as generalizing s with
  | nil =>
    simp only [exec, Option.some.injEq] at h
    subst h
    exact Relation.ReflTransGen.refl
  | cons a as ih =>
    simp only [exec, Option.bind_eq_some_iff] at h
    obtain ⟨t, hst, hrest⟩ := h
    exact Run.cons trivial hst (ih hrest)

theorem run_of_execIf {p : σ → α → Bool} (hp : ∀ t a, p t a = true → ok t a) {as : List α}
    {s : σ} (h : execIf step p s as = some s') : Run step ok s s' := by
  induction as generalizing s with
  | nil =>
    simp only [execIf, Option.some.injEq] at h
    subst h
    exact Relation.ReflTransGen.refl
  | cons a as ih =>
    simp only [execIf] at h
    split at h
    · rename_i hpa
      obtain ⟨t, hst, hrest⟩ := Option.bind_eq_some_iff.mp h
      exact Run.cons (hp _ _ hpa) hst (ih hrest)
    · exact absurd h (by simp)

/-- A list of actions that can be run from an initial state reaches a state. -/
theorem reachable_of_exec {as : List α} (h0 : init s) (h : exec step s as = some s') :
    Reachable step init s' :=
  (Reachable.of_init h0).run (run_of_exec h)

/-! ## 3. One system inside another -/

/-- **What is reached in the first system projects to what is reached in the second**, as soon
as every step of the first is a step of the second on the projected state, or leaves the
projection as it is.  So an invariant of the second holds of the projection. -/
theorem Reachable.project {step' : τ → β → Option τ} {init' : τ → Prop} {π : σ → τ}
    (h : Reachable step init s) (hinit : ∀ t, init t → init' (π t))
    (hp : ∀ t a u, Reachable step' init' (π t) → step t a = some u →
      π u = π t ∨ ∃ b, step' (π t) b = some (π u)) : Reachable step' init' (π s) := by
  refine h.invariant (I := fun t => Reachable step' init' (π t))
    (fun t ht => Reachable.of_init (hinit t ht)) ?_
  intro t a u hI hst
  rcases hp t a u hI hst with heq | ⟨b, hb⟩
  · exact heq ▸ hI
  · exact hI.next hb

/-! ## 4. Runs with their actions -/

/-- The run that takes these actions, each of them allowed where it is taken. -/
def Trace (step : σ → α → Option σ) (ok : σ → α → Prop) : σ → List α → σ → Prop
  | s, [], s' => s' = s
  | s, a :: as, s' => ok s a ∧ ∃ t, step s a = some t ∧ Trace step ok t as s'

/-- A run, its actions forgotten. -/
theorem Trace.run {as : List α} (h : Trace step ok s as s') : Run step ok s s' := by
  induction as generalizing s with
  | nil =>
    obtain rfl : s' = s := h
    exact Relation.ReflTransGen.refl
  | cons a as ih =>
    obtain ⟨hok, t, hst, hrest⟩ := h
    exact Run.cons hok hst (ih hrest)

theorem trace_of_execIf {p : σ → α → Bool} (hp : ∀ t a, p t a = true → ok t a) {as : List α}
    {s : σ} (h : execIf step p s as = some s') : Trace step ok s as s' := by
  induction as generalizing s with
  | nil => exact (Option.some.inj h).symm
  | cons a as ih =>
    simp only [execIf] at h
    split at h
    · rename_i hpa
      obtain ⟨t, hst, hrest⟩ := Option.bind_eq_some_iff.mp h
      exact ⟨hp _ _ hpa, t, hst, ih hrest⟩
    · exact absurd h (by simp)

/-- What holds of the actions taken so far and of the state they led to, step by step. -/
theorem Trace.history {I : List α → σ → Prop}
    (hstep : ∀ l t a u, I l t → ok t a → step t a = some u → I (l ++ [a]) u)
    {as l : List α} (h : Trace step ok s as s') (h0 : I l s) : I (l ++ as) s' := by
  induction as generalizing s l with
  | nil =>
    obtain rfl : s' = s := h
    rwa [List.append_nil]
  | cons a as ih =>
    obtain ⟨hok, t, hst, hrest⟩ := h
    have hnext := ih hrest (hstep l s a t h0 hok hst)
    rwa [List.append_assoc, List.singleton_append] at hnext

/-- **A variant pays for the steps.**  Where every counted step uses up one unit of a measure and
no other step adds to it, a run takes no more counted steps than it had units. -/
theorem Trace.countP_add_le {I : σ → Prop} (μ : σ → Nat) (p : α → Bool)
    (hstep : ∀ t a u, I t → ok t a → step t a = some u →
      I u ∧ μ u + (if p a then 1 else 0) ≤ μ t) {as : List α} (h : Trace step ok s as s')
    (h0 : I s) : as.countP p + μ s' ≤ μ s := by
  induction as generalizing s with
  | nil =>
    obtain rfl : s' = s := h
    simp
  | cons a as ih =>
    obtain ⟨hok, t, hst, hrest⟩ := h
    obtain ⟨ht, hle⟩ := hstep s a t h0 hok hst
    have hrec := ih hrest ht
    rw [List.countP_cons]
    omega

/-! ## 5. What is noticed of a run -/

/-- What the actions let an observer notice, one after the other. -/
def noticed (step : σ → α → Option σ) (note : σ → α → Option γ) : σ → List α → List γ
  | _, [] => []
  | s, a :: as => (note s a).toList ++ ((step s a).map (noticed step note · as)).getD []

/-- **Nobody can tell the systems apart.**  Where every step of the first is a step of the second
of which the same is noticed, or none at all of which nothing is noticed, all that is noticed of a
run of the first is noticed of a run of the second. -/
theorem Trace.noticed_eq {step' : τ → β → Option τ} {note : σ → α → Option γ}
    {note' : τ → β → Option γ} {I : σ → Prop} {π : σ → τ}
    (hstep : ∀ t a u, I t → ok t a → step t a = some u →
      I u ∧ (π u = π t ∧ note t a = none ∨
        ∃ b, step' (π t) b = some (π u) ∧ note' (π t) b = note t a))
    {as : List α} (h : Trace step ok s as s') (h0 : I s) :
    ∃ bs, Trace step' free (π s) bs (π s') ∧
      noticed step' note' (π s) bs = noticed step note s as := by
  induction as generalizing s with
  | nil =>
    obtain rfl : s' = s := h
    exact ⟨[], rfl, rfl⟩
  | cons a as ih =>
    obtain ⟨hok, t, hst, hrest⟩ := h
    obtain ⟨ht, hmatch⟩ := hstep s a t h0 hok hst
    obtain ⟨bs, hbs, hseen⟩ := ih hrest ht
    rcases hmatch with ⟨heq, hno⟩ | ⟨b, hb, hnote⟩
    · refine ⟨bs, heq ▸ hbs, ?_⟩
      rw [noticed, hst, hno, ← heq, hseen]
      rfl
    · refine ⟨b :: bs, ⟨trivial, π t, hb, hbs⟩, ?_⟩
      rw [noticed, noticed, hst, hb, hnote, Option.map_some, Option.map_some, hseen]

/-! ## 6. Two runs side by side -/

/-- Related results stay related under functions that take them so. -/
theorem rel_map {R : σ → τ → Prop} {S : α → β → Prop} {x : Option σ} {y : Option τ}
    (h : Option.Rel R x y) {f : σ → α} {g : τ → β}
    (hfg : ∀ t t', x = some t → R t t' → S (f t) (g t')) : Option.Rel S (x.map f) (y.map g) := by
  cases h with
  | some hrel => exact Option.Rel.some (hfg _ _ rfl hrel)
  | none => exact Option.Rel.none

theorem rel_mono {R S : σ → τ → Prop} {x : Option σ} {y : Option τ} (h : Option.Rel R x y)
    (hRS : ∀ t t', R t t' → S t t') : Option.Rel S x y := by
  cases h with
  | some hrel => exact Option.Rel.some (hRS _ _ hrel)
  | none => exact Option.Rel.none

/-- **Twins stay twins.**  Two systems of which a step of the one is always a step of the other,
for actions that correspond, are in states that correspond as long as they take such actions; and
neither is ever stuck alone. -/
theorem exec_rel {step' : τ → β → Option τ} {I : σ → Prop} {R : σ → τ → Prop} {A : α → β → Prop}
    (hinv : ∀ t a u, I t → step t a = some u → I u)
    (hstep : ∀ t t' a b, I t → R t t' → A a b → Option.Rel R (step t a) (step' t' b))
    {as : List α} {bs : List β} (has : List.Forall₂ A as bs) {s : σ} {s' : τ} (h0 : I s)
    (h : R s s') : Option.Rel R (exec step s as) (exec step' s' bs) := by
  induction has generalizing s s' with
  | nil => exact Option.Rel.some h
  | @cons a b as bs hab _ ih =>
    have hnext := hstep s s' a b h0 h hab
    simp only [exec]
    generalize hx : step s a = x, step' s' b = y at hnext
    cases hnext with
    | some hrel => exact ih (hinv s a _ h0 hx) hrel
    | none => exact Option.Rel.none

end Lts
