/-
# `ServerStorage.Hugin.ReconnectDelay` — `compute_reconnect_delay` of `net/muninn_client.cpp`

The delay grows by the factor with every attempt and stops at the maximum; the jitter is
added after that.  Each operation on machine integers says whether it has overflowed.
-/
import ServerStorage.Lib.Bytes

namespace ServerStorage.Hugin

open Lib

/-! ## Options -/

/-- The options that `compute_reconnect_delay` reads; the delays count milliseconds. -/
structure ReconnectOptions where
  reconnectDelay : Int64 := 1500
  reconnectMaxDelay : Int64 := 30000
  reconnectBackoffFactor : UInt32 := 2
  reconnectJitterPercent : UInt32 := 20
  deriving DecidableEq, Repr

/-- What the constructor makes of them. -/
def ReconnectOptions.clamped (options : ReconnectOptions) : ReconnectOptions :=
  let reconnectDelay := if options.reconnectDelay.toInt ≤ 0 then 250 else options.reconnectDelay
  { reconnectDelay := reconnectDelay
    reconnectMaxDelay :=
      if options.reconnectMaxDelay.toInt < reconnectDelay.toInt then reconnectDelay
      else options.reconnectMaxDelay
    reconnectBackoffFactor :=
      if options.reconnectBackoffFactor < 1 then 1 else options.reconnectBackoffFactor
    reconnectJitterPercent :=
      if 100 < options.reconnectJitterPercent then 100 else options.reconnectJitterPercent }

/-! ## The delay -/

/-- A number, and whether an operation on the way to it has overflowed. -/
structure Computed (α : Type) where
  value : α
  overflowed : Bool := false
  deriving DecidableEq, Repr

/-- The loop over the attempts, with the number of rounds that are left. -/
def backoffRounds (factor maxDelayMs : Nat) : Nat → Nat → Computed Nat
  | 0, delayMs => { value := delayMs }
  | rounds + 1, delayMs =>
      if factor ≤ 1 then { value := delayMs }
      else if maxDelayMs ≤ delayMs then { value := maxDelayMs }
      else if (2 ^ 64 - 1) / factor < delayMs then { value := maxDelayMs }
      else
        let product := delayMs * factor
        let next := product % 2 ^ 64
        let rest : Computed Nat :=
          if maxDelayMs < next then { value := maxDelayMs }
          else backoffRounds factor maxDelayMs rounds next
        { rest with overflowed := decide (2 ^ 64 ≤ product) || rest.overflowed }

def backoffDelay (options : ReconnectOptions) (attempt : UInt32) : Computed Nat :=
  let delayMs := (max 1 options.reconnectDelay.toInt).toNat
  let maxDelayMs := (max (delayMs : Int) options.reconnectMaxDelay.toInt).toNat
  backoffRounds options.reconnectBackoffFactor.toNat maxDelayMs (attempt.toNat - 1) delayMs

def jitterSpan (options : ReconnectOptions) (delayMs : Nat) : Computed Nat :=
  let product := delayMs * options.reconnectJitterPercent.toNat
  { value := product % 2 ^ 64 / 100, overflowed := decide (2 ^ 64 ≤ product) }

/-- The delay for an attempt and a draw of the distribution.  The delay is below `2 ^ 63` when it is
cast, like the maximum; a sum from there on overflows. -/
def computeReconnectDelay (options : ReconnectOptions) (attempt : UInt32) (draw : Int) :
    Computed Int :=
  let delay := backoffDelay options attempt
  if options.reconnectJitterPercent = 0 ∨ delay.value = 0 then
    { value := delay.value, overflowed := delay.overflowed }
  else
    let span := jitterSpan options delay.value
    let overflowed := delay.overflowed || span.overflowed
    if span.value = 0 then { value := delay.value, overflowed := overflowed }
    else
      let jittered := (delay.value : Int) + draw
      let overflowed := overflowed || decide (2 ^ 63 ≤ jittered)
      if jittered ≤ 0 then { value := 1, overflowed := overflowed }
      else { value := jittered, overflowed := overflowed }

/-- A draw of the distribution over the span. -/
def Drawn (options : ReconnectOptions) (attempt : UInt32) (draw : Int) : Prop :=
  draw.natAbs ≤ (jitterSpan options (backoffDelay options attempt).value).value

/-! ## The delay without jitter -/

/-- The base delay times a power of the factor, up to the maximum. -/
def unjittered (options : ReconnectOptions) (attempt : UInt32) : Nat :=
  min options.reconnectMaxDelay.toInt.toNat
    (options.reconnectDelay.toInt.toNat *
      options.reconnectBackoffFactor.toNat ^ (attempt.toNat - 1))

/-- The loop computes it without overflow. -/
theorem backoffRounds_eq {factor maxDelayMs : Nat} (hfactor : 1 ≤ factor)
    (hmax : maxDelayMs < 2 ^ 63) : ∀ {rounds delayMs : Nat}, delayMs ≤ maxDelayMs →
      backoffRounds factor maxDelayMs rounds delayMs =
        { value := min maxDelayMs (delayMs * factor ^ rounds) } := by
  intro rounds
  induction rounds with
  | zero =>
      intro delayMs hdelay
      rw [backoffRounds, Nat.pow_zero, Nat.mul_one, Nat.min_eq_right hdelay]
  | succ rounds ih =>
      intro delayMs hdelay
      have hgrows : ∀ {d : Nat}, d ≤ d * factor ^ rounds := fun {d} =>
        Nat.le_mul_of_pos_right d (Nat.pow_pos hfactor)
      have hpow : delayMs * factor ^ (rounds + 1) = delayMs * factor * factor ^ rounds := by
        rw [Nat.pow_succ, Nat.mul_assoc, Nat.mul_comm factor]
      rw [backoffRounds]
      by_cases hone : factor ≤ 1
      · rw [if_pos hone, Nat.le_antisymm hone hfactor, Nat.one_pow, Nat.mul_one,
          Nat.min_eq_right hdelay]
      rw [if_neg hone]
      by_cases hreached : maxDelayMs ≤ delayMs
      · have hle : maxDelayMs ≤ delayMs * factor ^ (rounds + 1) :=
          hreached.trans (Nat.le_mul_of_pos_right _ (Nat.pow_pos hfactor))
        rw [if_pos hreached, Nat.min_eq_left hle]
      rw [if_neg hreached]
      by_cases hlarge : (2 ^ 64 - 1) / factor < delayMs
      · -- the product would not fit, and so is above the maximum
        have hproduct : 2 ^ 64 - 1 < delayMs * factor := (Nat.div_lt_iff_lt_mul hfactor).mp hlarge
        have hle : maxDelayMs ≤ delayMs * factor ^ (rounds + 1) := by
          rw [hpow]
          exact le_trans (by omega) hgrows
        rw [if_pos hlarge, Nat.min_eq_left hle]
      rw [if_neg hlarge]
      have hfits : delayMs * factor < 2 ^ 64 := by
        have hle := (Nat.le_div_iff_mul_le hfactor).mp (Nat.not_lt.mp hlarge)
        omega
      dsimp only
      rw [Nat.mod_eq_of_lt hfits, decide_eq_false (Nat.not_le.mpr hfits), Bool.false_or, hpow]
      by_cases habove : maxDelayMs < delayMs * factor
      · rw [if_pos habove, Nat.min_eq_left (le_trans (Nat.le_of_lt habove) hgrows)]
      · rw [if_neg habove, ih (Nat.not_lt.mp habove)]

section
variable (given : ReconnectOptions) {options : ReconnectOptions}

/-- What holds of options that the constructor has clamped. -/
structure Clamped (options : ReconnectOptions) : Prop where
  delay : 1 ≤ options.reconnectDelay.toInt
  maxDelay : options.reconnectDelay.toInt ≤ options.reconnectMaxDelay.toInt
  factor : 1 ≤ options.reconnectBackoffFactor.toNat
  jitter : options.reconnectJitterPercent.toNat ≤ 100

theorem clamped_spec : Clamped given.clamped where
  delay := by
    have hdefault : (250 : Int64).toInt = 250 := by decide
    dsimp only [ReconnectOptions.clamped]
    split <;> omega
  maxDelay := by
    dsimp only [ReconnectOptions.clamped]
    generalize (if given.reconnectDelay.toInt ≤ 0 then 250 else given.reconnectDelay) = delay
    split <;> omega
  factor := by
    dsimp only [ReconnectOptions.clamped]
    split
    · decide
    next hle => exact UInt32.le_iff_toNat_le.mp (UInt32.not_lt.mp hle)
  jitter := by
    dsimp only [ReconnectOptions.clamped]
    split
    · decide
    next hle => exact UInt32.le_iff_toNat_le.mp (UInt32.not_lt.mp hle)

theorem backoffDelay_eq (h : Clamped options) (attempt : UInt32) :
    backoffDelay options attempt = { value := unjittered options attempt } := by
  have hmax : options.reconnectMaxDelay.toInt < 2 ^ 63 := options.reconnectMaxDelay.toInt_lt
  have hdelay := h.delay
  have hbound := h.maxDelay
  rw [backoffDelay, unjittered]
  rw [max_eq_right hdelay, Int.toNat_of_nonneg (by omega), max_eq_right hbound]
  exact backoffRounds_eq h.factor (by omega) (by omega)

theorem unjittered_pos (h : Clamped options) (attempt : UInt32) : 1 ≤ unjittered options attempt := by
  have hdelay := h.delay
  have hmax := h.maxDelay
  have hpower : 1 ≤ options.reconnectDelay.toInt.toNat *
      options.reconnectBackoffFactor.toNat ^ (attempt.toNat - 1) :=
    Nat.mul_pos (by omega) (Nat.pow_pos h.factor)
  rw [unjittered]
  omega

theorem unjittered_le (h : Clamped options) (attempt : UInt32) :
    (unjittered options attempt : Int) ≤ options.reconnectMaxDelay.toInt := by
  have hdelay := h.delay
  have hmax := h.maxDelay
  have hle : unjittered options attempt ≤ options.reconnectMaxDelay.toInt.toNat :=
    Nat.min_le_left _ _
  omega

/-- Without jitter, a later attempt does not wait for a shorter time. -/
theorem unjittered_mono (h : Clamped options) {earlier attempt : UInt32} (hle : earlier ≤ attempt) :
    unjittered options earlier ≤ unjittered options attempt := by
  have hrounds : earlier.toNat - 1 ≤ attempt.toNat - 1 :=
    Nat.sub_le_sub_right (UInt32.le_iff_toNat_le.mp hle) 1
  exact min_le_min_left _ (Nat.mul_le_mul_left _ (Nat.pow_le_pow_right h.factor hrounds))

/-! ## Within the bounds -/

/-- The delay is at least 1 ms and at most the maximum, and computed without overflow. -/
structure WithinBounds (options : ReconnectOptions) (delay : Computed Int) : Prop where
  positive : 1 ≤ delay.value
  atMost : delay.value ≤ options.reconnectMaxDelay.toInt
  exact : delay.overflowed = false

/-- With jitter disabled, the delay does not fall as the attempts go on. -/
def Climbs (options : ReconnectOptions) (attempt : UInt32) : Prop :=
  options.reconnectJitterPercent = 0 → ∀ earlier ≤ attempt,
    (computeReconnectDelay options earlier 0).value ≤ (computeReconnectDelay options attempt 0).value

theorem computeReconnectDelay_disabled (h : Clamped options)
    (hzero : options.reconnectJitterPercent = 0) (attempt : UInt32) (draw : Int) :
    computeReconnectDelay options attempt draw = { value := unjittered options attempt } := by
  rw [computeReconnectDelay, backoffDelay_eq h]
  dsimp only
  rw [if_pos (.inl hzero)]

theorem climbs (h : Clamped options) (attempt : UInt32) : Climbs options attempt := by
  intro hzero earlier hle
  rw [computeReconnectDelay_disabled h hzero, computeReconnectDelay_disabled h hzero]
  exact Int.ofNat_le.mpr (unjittered_mono h hle)

/-- The jitter leaves room: its product fits, and the draw is no more than what the delay without
jitter leaves up to the maximum. -/
def LeavesRoom (options : ReconnectOptions) (attempt : UInt32) (draw : Int) : Prop :=
  unjittered options attempt * options.reconnectJitterPercent.toNat < 2 ^ 64 ∧
    (unjittered options attempt : Int) + draw ≤ options.reconnectMaxDelay.toInt

theorem withinBounds_iff (h : Clamped options) {attempt : UInt32} {draw : Int}
    (hdraw : Drawn options attempt draw) :
    WithinBounds options (computeReconnectDelay options attempt draw) ↔
      LeavesRoom options attempt draw := by
  have hmax : options.reconnectMaxDelay.toInt < 2 ^ 63 := options.reconnectMaxDelay.toInt_lt
  have hpos := unjittered_pos h attempt
  have hone : (1 : Int) ≤ unjittered options attempt := by exact_mod_cast hpos
  have hle := unjittered_le h attempt
  rw [Drawn, backoffDelay_eq h, jitterSpan] at hdraw
  simp only [computeReconnectDelay, backoffDelay_eq h, jitterSpan, LeavesRoom] at hdraw ⊢
  generalize unjittered options attempt = delayMs at *
  generalize hpercent : options.reconnectJitterPercent = percent at *
  by_cases hdisabled : percent = 0
  · rw [if_pos (.inl hdisabled)]
    have hzero : delayMs * percent.toNat = 0 := by rw [hdisabled]; rfl
    rw [hzero] at hdraw ⊢
    exact iff_of_true ⟨hone, hle, rfl⟩ ⟨by omega, by omega⟩
  rw [if_neg (not_or.mpr ⟨hdisabled, Nat.ne_of_gt hpos⟩)]
  by_cases hfits : delayMs * percent.toNat < 2 ^ 64
  · rw [decide_eq_false (Nat.not_le.mpr hfits), Nat.mod_eq_of_lt hfits] at *
    by_cases hspan : delayMs * percent.toNat / 100 = 0
    · rw [if_pos hspan]
      exact iff_of_true ⟨hone, hle, rfl⟩ ⟨hfits, by omega⟩
    rw [if_neg hspan, Bool.false_or, Bool.false_or]
    by_cases hlow : (delayMs : Int) + draw ≤ 0
    · rw [if_pos hlow]
      refine iff_of_true ⟨le_refl _, ?_, decide_eq_false (by omega)⟩ ⟨hfits, by omega⟩
      show (1 : Int) ≤ _
      omega
    · rw [if_neg hlow]
      constructor
      · rintro ⟨-, hatMost, -⟩
        exact ⟨hfits, hatMost⟩
      · rintro ⟨-, hroom⟩
        exact ⟨Int.not_le.mp hlow, hroom, decide_eq_false (by omega)⟩
  · -- the product for the span has overflowed, whatever is drawn
    rw [decide_eq_true (Nat.not_lt.mp hfits)]
    refine iff_of_false (fun hwithin => ?_) fun hroom => hfits hroom.1
    have hexact := hwithin.exact
    split at hexact
    · cases hexact
    · split at hexact <;> cases hexact

end

/-- After the clamping, whatever is drawn: the delay stays within its bounds, and climbs when there is
no jitter, if and only if the jitter leaves room. -/
theorem reconnect_delay_exact (given : ReconnectOptions) (attempt : UInt32) (draw : Int)
    (hdraw : Drawn given.clamped attempt draw) :
    (WithinBounds given.clamped (computeReconnectDelay given.clamped attempt draw) ∧
        Climbs given.clamped attempt) ↔
      LeavesRoom given.clamped attempt draw := by
  rw [and_iff_left (climbs (clamped_spec given) attempt)]
  exact withinBounds_iff (clamped_spec given) hdraw

/-- With the default options the sixth attempt waits for up to 36 seconds, where 30 are the most. -/
theorem reconnect_delay_exceeds :
    Drawn ({} : ReconnectOptions).clamped 6 6000 ∧
      (computeReconnectDelay ({} : ReconnectOptions).clamped 6 6000).value = 36000 ∧
      ({} : ReconnectOptions).clamped.reconnectMaxDelay.toInt = 30000 := by
  unfold Drawn
  decide

theorem reconnect_delay_exact_first :
    (WithinBounds ({} : ReconnectOptions).clamped
        (computeReconnectDelay ({} : ReconnectOptions).clamped 1 (-300)) ∧
      Climbs ({} : ReconnectOptions).clamped 1) ↔
      LeavesRoom ({} : ReconnectOptions).clamped 1 (-300) :=
  reconnect_delay_exact {} 1 (-300) (by unfold Drawn; decide)

end ServerStorage.Hugin
