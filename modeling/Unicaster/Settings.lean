/-
# The settings read from the environment (`settings.c`)

`Environ` is the process environment as far as the module reads it: one field for each
variable, `none` when it is unset.  Every `get_*` function is a total function of it, and the
ranges of what they return are the only facts later modules use.

`parse_int` is stated for any width of `long`; the module runs with 64 bits.
-/
import Unicaster.Lib.CString

namespace Unicaster

open CLib

/-- The environment variables the module reads; `none` when a variable is unset. -/
structure Environ where
  /-- `REDIS_BROADCAST_NAME` -/
  broadcastName : Option CString := none
  /-- `REDIS_BROADCAST_PORT` -/
  broadcastPort : Option CString := none
  /-- `REDIS_BROADCAST_INTERVAL` -/
  broadcastInterval : Option CString := none
  /-- `REDIS_BROADCAST_TLS` -/
  broadcastTls : Option CString := none
  /-- `REDIS_BROADCAST_PODS_REFRESH` -/
  podsRefresh : Option CString := none
  /-- `REDIS_BROADCAST_PODS_TIMEOUT` -/
  podsTimeout : Option CString := none
  /-- `REDIS_BROADCAST_PODS_MAX_AGE` -/
  podsMaxAge : Option CString := none
  /-- `DEPLOYMENT_ENV` -/
  deploymentEnv : Option CString := none
  /-- `SELECTED_INTERFACES` -/
  selectedInterfaces : Option CString := none

/-! ## 1. Integers -/

def intMax : Int := 2 ^ 31 - 1
def intMin : Int := -2 ^ 31

/-- `parse_int`, where `long` has `bits` bits. -/
def parseIntOn (bits : Nat) (buff : Text) : Int :=
  let longMin : Int := -2 ^ (bits - 1)
  let longMax : Int := 2 ^ (bits - 1) - 1
  let r := strtol bits buff
  let sl := r.value
  -- `end == buff`: nothing was converted
  if r.rest.length = buff.length
      ∨ r.rest ≠ []
      ∨ ((longMin = sl ∨ longMax = sl) ∧ r.erange = true)
      ∨ sl > intMax
      ∨ sl < intMin then
    0
  else sl

/-- `parse_int`. -/
def parseInt (buff : Text) : Int := parseIntOn 64 buff

theorem parseIntOn_range (bits : Nat) (buff : Text) :
    intMin ≤ parseIntOn bits buff ∧ parseIntOn bits buff ≤ intMax := by
  simp only [parseIntOn]
  split
  · exact ⟨by decide, by decide⟩
  · rename_i h
    simp only [not_or, not_lt, gt_iff_lt] at h
    exact ⟨h.2.2.2.2, h.2.2.2.1⟩

/-- **`parse_int` on a numeral**: the number it denotes when an `int` holds it, and 0 when
none does, however `strtol` clamped it. -/
theorem parseIntOn_of_denotes {bits : Nat} (hb : 32 ≤ bits) {s : Text} {v : Int}
    (h : Denotes s v) :
    parseIntOn bits s = if intMin ≤ v ∧ v ≤ intMax then v else 0 := by
  have hlong : (2 : Int) ^ 31 ≤ 2 ^ (bits - 1) :=
    pow_le_pow_right₀ (by decide) (by omega)
  have hmax : intMax = 2 ^ 31 - 1 := rfl
  have hmin : intMin = -2 ^ 31 := rfl
  have hread : s.length ≠ 0 := by
    obtain ⟨space, sign, digits, rfl, -, hne, -⟩ := h
    have := List.length_pos_iff.mpr hne
    simp only [List.length_append]
    omega
  rw [parseIntOn, strtol_of_denotes bits h]
  by_cases hlo : v < -2 ^ (bits - 1)
  · -- clamped from below: `ERANGE`
    rw [if_pos hlo, if_pos (by simp), if_neg (by omega)]
  · by_cases hhi : 2 ^ (bits - 1) - 1 < v
    · -- clamped from above: `ERANGE`
      rw [if_neg hlo, if_pos hhi, if_pos (by simp), if_neg (by omega)]
    · -- read as it stands: only the range of `int` is left to check
      rw [if_neg hlo, if_neg hhi]
      simp only [List.length_nil, ne_eq, not_true_eq_false, Bool.false_eq_true, and_false,
        false_or, hread.symm]
      by_cases hv : intMin ≤ v ∧ v ≤ intMax
      · rw [if_neg (by omega), if_pos hv]
      · rw [if_pos (by omega), if_neg hv]

/-- Everything else is 0. -/
theorem parseIntOn_of_not_denotes {bits : Nat} {s : Text} (h : ¬ ∃ v, Denotes s v) :
    parseIntOn bits s = 0 := by
  refine if_pos ?_
  by_contra hc
  simp only [not_or, not_not] at hc
  exact h (denotes_of_strtol hc.2.1 hc.1)

/-! ## 2. The settings -/

def defaultName : Text := ascii "imq-broker"
def defaultPort : Int := 63000
def defaultInterval : Int := 1
def defaultPodsRefresh : Int := 5
def defaultPodsTimeout : Int := 5

/-- `get_env_seconds`, on the variable's value, where `long` has `bits` bits. -/
def getEnvSecondsOn (bits : Nat) (env : Option CString) (min fallback : Int) : Int :=
  match env with
  | some env =>
    let value := parseIntOn bits env.bytes
    if value ≥ min then value else fallback
  | none => fallback

namespace Environ

variable (e : Environ)

def getServiceName : Text :=
  match e.broadcastName with
  | some name => name.bytes
  | none => defaultName

/-- `get_port`, where `long` has `bits` bits; so are the other numbers below. -/
def getPortOn (bits : Nat) : Int :=
  match e.broadcastPort with
  | some env =>
    let port := parseIntOn bits env.bytes
    if port > 0 ∧ port ≤ 65535 then port else defaultPort
  | none => defaultPort

def getIntervalOn (bits : Nat) : Int := getEnvSecondsOn bits e.broadcastInterval 1 defaultInterval

def getPodsRefreshOn (bits : Nat) : Int := getEnvSecondsOn bits e.podsRefresh 1 defaultPodsRefresh

def getPodsTimeoutOn (bits : Nat) : Int := getEnvSecondsOn bits e.podsTimeout 1 defaultPodsTimeout

def getPodsMaxAgeOn (bits : Nat) : Int := getEnvSecondsOn bits e.podsMaxAge 0 0

def getPort : Int := e.getPortOn 64

def getInterval : Int := e.getIntervalOn 64

def getPodsRefresh : Int := e.getPodsRefreshOn 64

def getPodsTimeout : Int := e.getPodsTimeoutOn 64

def getPodsMaxAge : Int := e.getPodsMaxAgeOn 64

end Environ

/-- What `get_env_seconds` returns is at least its minimum and fits an `int`, as soon as its
fallback does. -/
theorem getEnvSecondsOn_range (bits : Nat) (env : Option CString) {min fallback : Int}
    (hf : min ≤ fallback) (hm : fallback ≤ intMax) :
    min ≤ getEnvSecondsOn bits env min fallback ∧
      getEnvSecondsOn bits env min fallback ≤ intMax := by
  unfold getEnvSecondsOn
  split
  · rename_i env
    dsimp only
    split
    · rename_i hv
      exact ⟨hv, (parseIntOn_range bits env.bytes).2⟩
    · exact ⟨hf, hm⟩
  · exact ⟨hf, hm⟩

theorem getInterval_range (e : Environ) : 1 ≤ e.getInterval ∧ e.getInterval ≤ intMax :=
  getEnvSecondsOn_range 64 _ (by decide) (by decide)

theorem getPodsRefresh_range (e : Environ) :
    1 ≤ e.getPodsRefresh ∧ e.getPodsRefresh ≤ intMax :=
  getEnvSecondsOn_range 64 _ (by decide) (by decide)

theorem getPodsTimeout_range (e : Environ) :
    1 ≤ e.getPodsTimeout ∧ e.getPodsTimeout ≤ intMax :=
  getEnvSecondsOn_range 64 _ (by decide) (by decide)

theorem getPodsMaxAge_range (e : Environ) :
    0 ≤ e.getPodsMaxAge ∧ e.getPodsMaxAge ≤ intMax :=
  getEnvSecondsOn_range 64 _ (by decide) (by decide)

/-! ## 3. Exactly the documented numbers -/

/-- `result` is the number that `buff` denotes when it denotes one from `lo` to `hi`, and
`fallback` when it does not. -/
def ReadsAs (buff : Text) (lo hi fallback result : Int) : Prop :=
  (∀ v, Denotes buff v → lo ≤ v → v ≤ hi → result = v) ∧
    ((∀ v, Denotes buff v → ¬ (lo ≤ v ∧ v ≤ hi)) → result = fallback)

/-- The same of a variable, which may be unset. -/
def SetTo (env : Option CString) (lo hi fallback result : Int) : Prop :=
  match env with
  | some env => ReadsAs env.bytes lo hi fallback result
  | none => result = fallback

theorem parseIntOn_readsAs {bits : Nat} (hb : 32 ≤ bits) (buff : Text) :
    ReadsAs buff intMin intMax 0 (parseIntOn bits buff) := by
  refine ⟨fun v hv hlo hhi => ?_, fun h => ?_⟩
  · rw [parseIntOn_of_denotes hb hv, if_pos ⟨hlo, hhi⟩]
  · by_cases hv : ∃ v, Denotes buff v
    · obtain ⟨v, hv⟩ := hv
      rw [parseIntOn_of_denotes hb hv, if_neg (h v hv)]
    · exact parseIntOn_of_not_denotes hv

/-- **A caller of `parse_int` that accepts the range `lo` to `hi`, and falls back outside of
it, reads its variable exactly.**  The 0 of a text that is no number must then be out of the
range or the fallback itself. -/
theorem ReadsAs.narrow {buff : Text} {lo hi fallback r : Int}
    (h : ReadsAs buff intMin intMax 0 r) (hlo : intMin ≤ lo) (hhi : hi ≤ intMax)
    (h0 : 0 < lo ∨ 0 = fallback) :
    ReadsAs buff lo hi fallback (if lo ≤ r ∧ r ≤ hi then r else fallback) := by
  refine ⟨fun v hv hl hh => ?_, fun hout => ?_⟩
  · rw [h.1 v hv (by omega) (by omega), if_pos ⟨hl, hh⟩]
  · by_cases hv : ∃ v, Denotes buff v ∧ intMin ≤ v ∧ v ≤ intMax
    · obtain ⟨v, hv, hrange⟩ := hv
      rw [h.1 v hv hrange.1 hrange.2, if_neg (hout v hv)]
    · have hr : r = 0 := h.2 fun v hd hrange => hv ⟨v, hd, hrange⟩
      rcases h0 with h0 | h0
      · rw [if_neg (by omega)]
      · rw [hr, ← h0, ite_self]

theorem getEnvSecondsOn_setTo {bits : Nat} (hb : 32 ≤ bits) (env : Option CString)
    {min fallback : Int} (hmin : intMin ≤ min) (h0 : 0 < min ∨ 0 = fallback) :
    SetTo env min intMax fallback (getEnvSecondsOn bits env min fallback) := by
  cases env with
  | none => exact rfl
  | some env =>
    have hr := (parseIntOn_readsAs hb env.bytes).narrow hmin le_rfl h0
    simp only [(parseIntOn_range bits env.bytes).2, and_true] at hr
    exact hr

theorem getPortOn_setTo {bits : Nat} (hb : 32 ≤ bits) (e : Environ) :
    SetTo e.broadcastPort 1 65535 defaultPort (e.getPortOn bits) := by
  unfold Environ.getPortOn
  cases e.broadcastPort with
  | none => exact rfl
  | some env =>
    exact (parseIntOn_readsAs hb env.bytes).narrow (by decide) (by decide) (Or.inl one_pos)

/-- **The settings accept exactly the numbers they document**, on a `long` of 32 bits and on
one of 64. -/
theorem settings_exact {bits : Nat} (hb : bits = 32 ∨ bits = 64) :
    (∀ buff : CString, ReadsAs buff.bytes intMin intMax 0 (parseIntOn bits buff.bytes)) ∧
      ∀ e : Environ,
        SetTo e.broadcastInterval 1 intMax defaultInterval (e.getIntervalOn bits) ∧
        SetTo e.podsRefresh 1 intMax defaultPodsRefresh (e.getPodsRefreshOn bits) ∧
        SetTo e.podsTimeout 1 intMax defaultPodsTimeout (e.getPodsTimeoutOn bits) ∧
        SetTo e.podsMaxAge 0 intMax 0 (e.getPodsMaxAgeOn bits) ∧
        SetTo e.broadcastPort 1 65535 defaultPort (e.getPortOn bits) := by
  have hb32 : 32 ≤ bits := by omega
  refine ⟨fun buff => parseIntOn_readsAs hb32 buff.bytes, fun e => ⟨?_, ?_, ?_, ?_, ?_⟩⟩
  · exact getEnvSecondsOn_setTo hb32 _ (by decide) (Or.inl one_pos)
  · exact getEnvSecondsOn_setTo hb32 _ (by decide) (Or.inl one_pos)
  · exact getEnvSecondsOn_setTo hb32 _ (by decide) (Or.inl one_pos)
  · exact getEnvSecondsOn_setTo hb32 _ (by decide) (Or.inr rfl)
  · exact getPortOn_setTo hb32 e

/-- An interval of a hundred seconds, with a blank and a sign in front. -/
def hundredSeconds : Environ := { broadcastInterval := some ⟨ascii " +100", by decide⟩ }

theorem settings_exact_hundredSeconds :
    SetTo hundredSeconds.broadcastInterval 1 intMax defaultInterval
      (hundredSeconds.getIntervalOn 32) ∧ hundredSeconds.getIntervalOn 32 = 100 :=
  ⟨((settings_exact (Or.inl rfl)).2 hundredSeconds).1, by decide⟩

end Unicaster
