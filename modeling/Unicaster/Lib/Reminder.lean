/-
# Reminders

Something that goes wrong goes wrong in STREAKS.  The first event of a streak is reported, later
ones once in a period, and one that turns urgent at once.  What the reporter keeps of a streak is
when it began, when it was last reported, and whether it is urgent.

Nothing is assumed of the readings of the clock.  Of urgency it is assumed that it stays, as long
as the streak goes on; then it turns up once, so all reports but one keep their distance.
-/
import Unicaster.Lib.Lists

namespace Reminder

/-- Something went wrong, at this reading of the clock. -/
structure Event where
  now : Int
  urgent : Bool

/-- What is kept of a streak. -/
structure State where
  since : Int
  last : Int
  urgent : Bool

/-- An event, and how long the streak is said to last, where the event is reported. -/
abbrev Entry := Event × Option Int

variable (period : Int)

/-- What the next event does; `none` is the state outside a streak. -/
def step : Option State → Event → State × Option Int
  | none, e => (⟨e.now, e.now, e.urgent⟩, some 0)
  | some s, e =>
    if period ≤ e.now - s.last ∨ e.urgent = true ∧ s.urgent = false then
      (⟨s.since, e.now, e.urgent⟩, some (e.now - s.since))
    else (⟨s.since, s.last, e.urgent⟩, none)

/-- A streak so far, and what is kept of it. -/
inductive Streak : List Entry → State → Prop
  | first (e : Event) : Streak [(e, (step period none e).2)] (step period none e).1
  | next {l : List Entry} {s : State} {e : Event} (h : Streak l s)
      (hstays : s.urgent = true → e.urgent = true) :
      Streak (l ++ [(e, (step period (some s) e).2)]) (step period (some s) e).1

/-- Entry `j` is the first urgent one. -/
def TurnsUrgent (l : List Entry) (j : Nat) : Prop :=
  (∃ x, l[j]? = some x ∧ x.1.urgent = true) ∧
    ∀ i < j, ∀ x, l[i]? = some x → x.1.urgent = false

/-- Entry `i` is reported and no other is up to `j`. -/
def LastBefore (l : List Entry) (i j : Nat) : Prop :=
  i < j ∧ (∃ x, l[i]? = some x ∧ x.2 ≠ none) ∧
    ∀ k, i < k → k < j → ∀ x, l[k]? = some x → x.2 = none

/-- **What a streak is told like.** -/
structure Reported (l : List Entry) : Prop where
  first : ∀ x, l[0]? = some x → x.2 = some 0
  /-- a period behind the last report there is another one -/
  reminder : ∀ i j, LastBefore l i j → ∀ x y, l[i]? = some x → l[j]? = some y →
    period ≤ y.1.now - x.1.now → y.2 ≠ none
  urgent : ∀ j, TurnsUrgent l j → ∀ y, l[j]? = some y → y.2 ≠ none
  /-- reports keep their distance, but for the one where the streak turns urgent -/
  spaced : ∀ i j, LastBefore l i j → ∀ x y, l[i]? = some x → l[j]? = some y → y.2 ≠ none →
    period ≤ y.1.now - x.1.now ∨ TurnsUrgent l j
  /-- what is told is the time from the first event on -/
  measured : ∀ x, l[0]? = some x → ∀ (j : Nat) (y : Entry) (d : Int), l[j]? = some y →
    y.2 = some d → d = y.1.now - x.1.now

/-! ## 1. The rules -/

section Rules

variable {period : Int} {l : List Entry} {s : State} {x : Entry} {i j k : Nat}

@[simp] theorem step_since (e : Event) : (step period (some s) e).1.since = s.since := by
  unfold step
  dsimp only
  split <;> rfl

@[simp] theorem step_urgent (e : Event) : (step period (some s) e).1.urgent = e.urgent := by
  unfold step
  dsimp only
  split <;> rfl

/-- When an event of a streak is reported. -/
theorem step_reports_iff {e : Event} : (step period (some s) e).2 ≠ none ↔
    period ≤ e.now - s.last ∨ e.urgent = true ∧ s.urgent = false := by
  unfold step
  dsimp only
  split <;> rename_i hif <;> simp [hif]

/-- What it is said to last, and that the report is remembered. -/
theorem step_reported {e : Event} {d : Int} (h : (step period (some s) e).2 = some d) :
    d = e.now - s.since ∧ (step period (some s) e).1.last = e.now := by
  unfold step at h ⊢
  dsimp only at h ⊢
  split at h
  · rename_i hif
    rw [if_pos hif]
    exact ⟨(Option.some.inj h).symm, rfl⟩
  · exact absurd h (by simp)

theorem step_silent {e : Event} (h : (step period (some s) e).2 = none) :
    (step period (some s) e).1.last = s.last := by
  unfold step at h ⊢
  dsimp only at h ⊢
  split at h
  · exact absurd h (by simp)
  · rename_i hif
    rw [if_neg hif]

/-- A streak turns urgent once. -/
theorem TurnsUrgent.unique (hi : TurnsUrgent l i) (hj : TurnsUrgent l j) : i = j := by
  obtain ⟨⟨x, hx, hux⟩, hbi⟩ := hi
  obtain ⟨⟨y, hy, huy⟩, hbj⟩ := hj
  rcases Nat.lt_trichotomy i j with hlt | heq | hlt
  · rw [hbj i hlt x hx] at hux
    exact absurd hux (by simp)
  · exact heq
  · rw [hbi j hlt y hy] at huy
    exact absurd huy (by simp)

/-- There is one last report before an entry. -/
theorem LastBefore.unique (hi : LastBefore l i k) (hj : LastBefore l j k) : i = j := by
  obtain ⟨hik, ⟨x, hx, hrx⟩, hsi⟩ := hi
  obtain ⟨hjk, ⟨y, hy, hry⟩, hsj⟩ := hj
  rcases Nat.lt_trichotomy i j with hlt | heq | hlt
  · exact absurd (hsi j hlt hjk y hy) hry
  · exact heq
  · exact absurd (hsj i hlt hik x hx) hrx

/-- Two reports in a row that keep less than the distance. -/
def TooClose (period : Int) (l : List Entry) (i j : Nat) : Prop :=
  LastBefore l i j ∧ ∃ x y, l[i]? = some x ∧ l[j]? = some y ∧ y.2 ≠ none ∧
    y.1.now - x.1.now < period

/-- **There is at most one such pair**, and it ends where the streak turns urgent. -/
theorem Reported.tooClose (h : Reported period l) {i' j' : Nat} (h1 : TooClose period l i j) :
    TurnsUrgent l j ∧ (TooClose period l i' j' → i = i' ∧ j = j') := by
  have hturns : ∀ i j, TooClose period l i j → TurnsUrgent l j := by
    rintro i j ⟨hb, x, y, hx, hy, hr, hlt⟩
    exact (h.spaced i j hb x y hx hy hr).resolve_left (by omega)
  refine ⟨hturns i j h1, fun h2 => ?_⟩
  obtain rfl := (hturns i j h1).unique (hturns i' j' h2)
  exact ⟨h1.1.unique h2.1, rfl⟩

/-- Up to its end the longer list is the shorter one. -/
theorem lastBefore_snoc (hj : j ≤ l.length) : LastBefore (l ++ [x]) i j ↔ LastBefore l i j := by
  unfold LastBefore
  constructor
  · rintro ⟨hij, ⟨y, hy, hr⟩, hs⟩
    rw [List.getElem?_append_left (by omega)] at hy
    refine ⟨hij, ⟨y, hy, hr⟩, fun k hik hkj z hz => hs k hik hkj z ?_⟩
    rwa [List.getElem?_append_left (by omega)]
  · rintro ⟨hij, ⟨y, hy, hr⟩, hs⟩
    refine ⟨hij, ⟨y, by rwa [List.getElem?_append_left (by omega)], hr⟩, fun k hik hkj z hz => ?_⟩
    rw [List.getElem?_append_left (by omega)] at hz
    exact hs k hik hkj z hz

theorem turnsUrgent_snoc (hj : j < l.length) : TurnsUrgent (l ++ [x]) j ↔ TurnsUrgent l j := by
  unfold TurnsUrgent
  constructor
  · rintro ⟨⟨y, hy, hu⟩, hb⟩
    rw [List.getElem?_append_left hj] at hy
    refine ⟨⟨y, hy, hu⟩, fun i hi z hz => hb i hi z ?_⟩
    rwa [List.getElem?_append_left (by omega)]
  · rintro ⟨⟨y, hy, hu⟩, hb⟩
    refine ⟨⟨y, by rwa [List.getElem?_append_left hj], hu⟩, fun i hi z hz => ?_⟩
    rw [List.getElem?_append_left (by omega)] at hz
    exact hb i hi z hz

/-! ## 2. What is kept -/

/-- What the reporter keeps is what the streak was like so far. -/
structure Kept (l : List Entry) (s : State) : Prop where
  since : ∃ x, l[0]? = some x ∧ s.since = x.1.now
  last : ∃ i x, LastBefore l i l.length ∧ l[i]? = some x ∧ s.last = x.1.now
  calm : s.urgent = false → ∀ (i : Nat) (x : Entry), l[i]? = some x → x.1.urgent = false
  urgent : s.urgent = true → ∃ i < l.length, TurnsUrgent l i

theorem Streak.length_pos (h : Streak period l s) : 0 < l.length := by
  cases h with
  | first e => exact Nat.one_pos
  | next h hstays => simp

theorem Streak.kept (h : Streak period l s) : Kept l s := by
  induction h with
  | first e =>
    refine ⟨⟨_, rfl, rfl⟩, ⟨0, _, ⟨Nat.one_pos, ⟨_, rfl, by simp [step]⟩, ?_⟩, rfl, rfl⟩, ?_, ?_⟩
    · intro k h0 h1
      simp only [List.length_singleton] at h1
      omega
    · intro hu i x hx
      obtain ⟨rfl, rfl⟩ : i = 0 ∧ (e, (step period none e).2) = x := by
        simpa [List.getElem?_singleton] using hx
      exact hu
    · exact fun hu => ⟨0, Nat.one_pos, ⟨_, rfl, hu⟩, fun i hi => absurd hi (Nat.not_lt_zero i)⟩
  | @next l s e h hstays ih =>
    obtain ⟨⟨x₀, hx₀, hsince⟩, ⟨i, x, hbefore, hx, hlast⟩, hcalm, hurgent⟩ := ih
    have hend : (l ++ [(e, (step period (some s) e).2)])[l.length]? =
        some (e, (step period (some s) e).2) := by simp
    have hlen : (l ++ [(e, (step period (some s) e).2)]).length = l.length + 1 := by simp
    have hpos := h.length_pos
    refine ⟨⟨x₀, by rwa [List.getElem?_append_left hpos], (step_since e).trans hsince⟩,
      ?_, ?_, ?_⟩
    · rw [hlen]
      cases hrep : (step period (some s) e).2 with
      | some d =>
        -- the new entry is the last report
        rw [hrep] at hend
        refine ⟨l.length, _, ⟨Nat.lt_succ_self _, ⟨_, hend, by simp⟩, ?_⟩, hend,
          (step_reported hrep).2⟩
        intro k hlk hkl
        omega
      | none =>
        rw [hrep] at hend
        have hi := hbefore.1
        refine ⟨i, x, ⟨by omega, ?_, ?_⟩, by rwa [List.getElem?_append_left hi],
          (step_silent hrep).trans hlast⟩
        · obtain ⟨y, hy, hr⟩ := hbefore.2.1
          exact ⟨y, by rwa [List.getElem?_append_left hi], hr⟩
        · intro k hik hkl y hy
          rcases List.getElem?_concat_cases hy with ⟨hlt, hy⟩ | ⟨-, rfl⟩
          · exact hbefore.2.2 k hik hlt y hy
          · rfl
    · rw [step_urgent]
      intro hu k y hy
      rcases List.getElem?_concat_cases hy with ⟨-, hy⟩ | ⟨-, rfl⟩
      · refine hcalm (Bool.eq_false_iff.mpr fun hsu => ?_) k y hy
        rw [hstays hsu] at hu
        exact absurd hu (by simp)
      · exact hu
    · rw [step_urgent, hlen]
      intro hu
      by_cases hsu : s.urgent = true
      · obtain ⟨k, hk, ht⟩ := hurgent hsu
        exact ⟨k, Nat.lt_succ_of_lt hk, (turnsUrgent_snoc hk).mpr ht⟩
      · refine ⟨l.length, Nat.lt_succ_self _, ⟨_, hend, hu⟩, fun k hk y hy => ?_⟩
        rw [List.getElem?_append_left hk] at hy
        exact hcalm (Bool.eq_false_iff.mpr hsu) k y hy

/-- The first event is reported. -/
theorem Reported.one (e : Event) : Reported period [(e, some 0)] := by
  have hone : ∀ {j : Nat} {y : Entry}, ([(e, some 0)] : List Entry)[j]? = some y →
      j = 0 ∧ y = (e, some 0) := by
    intro j y hy
    obtain ⟨rfl, rfl⟩ : j = 0 ∧ (e, some 0) = y := by simpa [List.getElem?_singleton] using hy
    exact ⟨rfl, rfl⟩
  refine ⟨fun x hx => by rw [(hone hx).2], ?_, ?_, ?_, ?_⟩
  · rintro i j ⟨hij, -⟩ x y - hy
    have hj := (hone hy).1
    omega
  · rintro j - y hy
    rw [(hone hy).2]
    simp
  · rintro i j ⟨hij, -⟩ x y - hy
    have hj := (hone hy).1
    omega
  · intro x hx j y d hy hd
    obtain ⟨-, rfl⟩ := hone hy
    obtain ⟨-, rfl⟩ := hone hx
    rw [← Option.some.inj hd]
    omega

/-- **Every streak is told like that.** -/
theorem Streak.reported (h : Streak period l s) : Reported period l := by
  induction h with
  | first e => exact .one e
  | @next l s e h hstays ih =>
    obtain ⟨⟨x₀, hx₀, hsince⟩, ⟨m, z, hbefore, hz, hlast⟩, hcalm, hurgent⟩ := h.kept
    have hpos := h.length_pos
    have hend : (l ++ [(e, (step period (some s) e).2)])[l.length]? =
        some (e, (step period (some s) e).2) := by simp
    -- the last report before the new entry is the one that was kept
    have hkept : ∀ i x, LastBefore (l ++ [(e, (step period (some s) e).2)]) i l.length →
        (l ++ [(e, (step period (some s) e).2)])[i]? = some x → s.last = x.1.now := by
      intro i x hb hx
      have hb' := (lastBefore_snoc (Nat.le_refl _)).mp hb
      obtain rfl := hb'.unique hbefore
      rw [List.getElem?_append_left hb'.1] at hx
      rw [hlast, Option.some.inj (hz.symm.trans hx)]
    refine ⟨?_, ?_, ?_, ?_, ?_⟩
    · intro x hx
      rw [List.getElem?_append_left hpos] at hx
      exact ih.first x hx
    · intro i j hb x y hx hy hper
      rcases List.getElem?_concat_cases hy with ⟨hlt, hy'⟩ | ⟨rfl, rfl⟩
      · have hb' := (lastBefore_snoc (Nat.le_of_lt hlt)).mp hb
        rw [List.getElem?_append_left (Nat.lt_trans hb'.1 hlt)] at hx
        exact ih.reminder i j hb' x y hx hy' hper
      · rw [← hkept i x hb hx] at hper
        exact step_reports_iff.mpr (Or.inl hper)
    · intro j hj y hy
      rcases List.getElem?_concat_cases hy with ⟨hlt, hy'⟩ | ⟨rfl, rfl⟩
      · exact ih.urgent j ((turnsUrgent_snoc hlt).mp hj) y hy'
      · obtain ⟨⟨w, hw, hu⟩, hb⟩ := hj
        rw [← Option.some.inj (hend.symm.trans hw)] at hu
        refine step_reports_iff.mpr (Or.inr ⟨hu, Bool.eq_false_iff.mpr fun hsu => ?_⟩)
        obtain ⟨k, hk, ⟨v, hv, huv⟩, -⟩ := hurgent hsu
        rw [hb k hk v (by rwa [List.getElem?_append_left hk])] at huv
        exact absurd huv (by simp)
    · intro i j hb x y hx hy hr
      rcases List.getElem?_concat_cases hy with ⟨hlt, hy'⟩ | ⟨rfl, rfl⟩
      · have hb' := (lastBefore_snoc (Nat.le_of_lt hlt)).mp hb
        rw [List.getElem?_append_left (Nat.lt_trans hb'.1 hlt)] at hx
        rw [turnsUrgent_snoc hlt]
        exact ih.spaced i j hb' x y hx hy' hr
      · rw [← hkept i x hb hx]
        rcases step_reports_iff.mp hr with hper | ⟨hu, hsu⟩
        · exact Or.inl hper
        · refine Or.inr ⟨⟨_, hend, hu⟩, fun k hk v hv => ?_⟩
          rw [List.getElem?_append_left hk] at hv
          exact hcalm hsu k v hv
    · intro x hx j y d hy hd
      rw [List.getElem?_append_left hpos] at hx
      rcases List.getElem?_concat_cases hy with ⟨hlt, hy'⟩ | ⟨rfl, rfl⟩
      · exact ih.measured x hx j y d hy' hd
      · rw [(step_reported hd).1, hsince, Option.some.inj (hx₀.symm.trans hx)]

end Rules

end Reminder
