import ApexChainx.Contract.Compute

/-!
# The executable specification

`compute_result` of `lib.rs` and of `calculation.rs` with the machine arithmetic of the source,
in which an overflow or a division by zero traps, and the restatement of the documented rules in
`spec.rs`.
-/

namespace ApexChainx

open Host Misc

/-- A computation that returns, fails with an error of the contract, or traps. -/
abbrev Trapping (α : Type) := Except (Fault SLAError) α

/-- An arithmetic operation that panics on `none`. -/
def orTrap {α : Type} (o : Option α) : Trapping α := okOr o .trap

/-- `SLACalculatorContract::compute_result` of `lib.rs`. -/
def Lib.computeResult (outage_id : Symbol) (mttr_minutes : Nat) (cfg : SLAConfig)
    (config_version_hash recorded_at : Nat) : Trapping SLAResult := do
  let threshold := cfg.threshold_minutes
  if mttr_minutes > threshold then
    let overtime : Int ← orTrap ((panickingSub mttr_minutes threshold).map Int.ofNat)
    let penalty ← okOr (checked 128 (overtime * cfg.penalty_per_minute))
      (.err .InvalidPenaltyAmount)
    let amount ← okOr (checked 128 (-penalty)) (.err .InvalidPenaltyAmount)
    refuseIf (amount ≥ 0) (.err .InvalidPenaltyAmount)
    pure ⟨outage_id, .viol, mttr_minutes, threshold, amount, .pen, .poor, config_version_hash,
      recorded_at⟩
  else
    let scaled ← orTrap (panickingMul 64 mttr_minutes 100)
    let performance_ratio := (checkedDiv scaled threshold).getD 0
    let (multiplier, rating) :=
      if performance_ratio < 50 then (200, Rating.top)
      else if performance_ratio < 75 then (150, Rating.excel)
      else (100, Rating.good)
    let val ← okOr (checked 128 (cfg.reward_base * multiplier)) (.err .InvalidRewardAmount)
    let reward ← orTrap (panickingDivEuclid 128 val 100)
    refuseIf (reward ≤ 0) (.err .InvalidRewardAmount)
    pure ⟨outage_id, .met, mttr_minutes, threshold, reward, .rew, rating, config_version_hash,
      recorded_at⟩

/-- `compute_result` of `calculation.rs`. -/
def Calculation.computeResult (outage_id : Symbol) (mttr_minutes : Nat) (cfg : SLAConfig)
    (config_version_hash recorded_at : Nat) : Trapping SLAResult := do
  let threshold := cfg.threshold_minutes
  if mttr_minutes > threshold then
    let overtime : Int ← orTrap ((panickingSub mttr_minutes threshold).map Int.ofNat)
    let penalty ← okOr (checked 128 (overtime * cfg.penalty_per_minute))
      (.err .InvalidPenaltyAmount)
    let amount ← okOr (checked 128 (-penalty)) (.err .InvalidPenaltyAmount)
    refuseIf (amount ≥ 0) (.err .InvalidPenaltyAmount)
    pure ⟨outage_id, .viol, mttr_minutes, threshold, amount, .pen, .poor, config_version_hash,
      recorded_at⟩
  else
    let scaled ← orTrap (panickingMul 64 mttr_minutes 100)
    let performance_ratio := (checkedDiv scaled threshold).getD 0
    let (multiplier, rating) :=
      if performance_ratio < 50 then (200, Rating.top)
      else if performance_ratio < 75 then (150, Rating.excel)
      else (100, Rating.good)
    let val ← okOr (checked 128 (cfg.reward_base * multiplier)) (.err .InvalidRewardAmount)
    let reward ← orTrap (panickingDivEuclid 128 val 100)
    refuseIf (reward ≤ 0) (.err .InvalidRewardAmount)
    pure ⟨outage_id, .met, mttr_minutes, threshold, reward, .rew, rating, config_version_hash,
      recorded_at⟩

namespace Spec

/-! ## Bounds -/

/-- `THRESHOLD_MIN`. -/
def thresholdMin : Nat := 1

/-- `THRESHOLD_MAX`. -/
def thresholdMax : Nat := 1440

/-- `PENALTY_MIN`. -/
def penaltyMin : Int := 1

/-- `PENALTY_MAX`. -/
def penaltyMax : Int := 10000

/-- `REWARD_MIN`. -/
def rewardMin : Int := 1

/-- `REWARD_MAX`. -/
def rewardMax : Int := 100000

/-- `MAX_MTTR_MINUTES`. -/
def maxMttrMinutes : Nat := 525600

/-- `CRITICAL_THRESHOLD_MAX`. -/
def criticalThresholdMax : Nat := 60

/-- `CRITICAL_PENALTY_MIN`. -/
def criticalPenaltyMin : Int := 50

/-- `HIGH_THRESHOLD_MAX`. -/
def highThresholdMax : Nat := 120

/-- `HIGH_PENALTY_MIN`. -/
def highPenaltyMin : Int := 25

/-- `MEDIUM_THRESHOLD_MAX`. -/
def mediumThresholdMax : Nat := 240

/-- `MEDIUM_PENALTY_MIN`. -/
def mediumPenaltyMin : Int := 10

/-- `LOW_PENALTY_MAX`. -/
def lowPenaltyMax : Int := 100

/-- `TIER_TOP_RATIO_EXCLUSIVE`. -/
def tierTopRatioExclusive : Nat := 50

/-- `TIER_EXCEL_RATIO_EXCLUSIVE`. -/
def tierExcelRatioExclusive : Nat := 75

/-- `MULTIPLIER_TOP`. -/
def multiplierTop : Int := 200

/-- `MULTIPLIER_EXCEL`. -/
def multiplierExcel : Int := 150

/-- `MULTIPLIER_GOOD`. -/
def multiplierGood : Int := 100

/-- `CANONICAL_SEVERITIES`. -/
def canonicalSeverities : List Symbol := [critical, high, medium, low]

/-- `is_canonical_severity`. -/
def isCanonicalSeverity (severity : Symbol) : Bool := canonicalSeverities.any (· == severity)

/-! ## Validation and outcome -/

/-- `ExpectedOutcome`. -/
structure ExpectedOutcome where
  status : Status
  payment_type : PaymentType
  rating : Rating
  amount : Int
  deriving DecidableEq, Repr

/-- The severity-specific bounds, step 5 of `expected_validate_config`. -/
def expectedSeverityBounds (severity : Symbol) (threshold_minutes : Nat)
    (penalty_per_minute : Int) : Except SLAError Unit :=
  if canonicalSeverities[0]? = some severity then do
    refuseIf (threshold_minutes > criticalThresholdMax) .InvalidThreshold
    refuseIf (penalty_per_minute < criticalPenaltyMin) .InvalidPenalty
  else if canonicalSeverities[1]? = some severity then do
    refuseIf (threshold_minutes > highThresholdMax) .InvalidThreshold
    refuseIf (penalty_per_minute < highPenaltyMin) .InvalidPenalty
  else if canonicalSeverities[2]? = some severity then do
    refuseIf (threshold_minutes > mediumThresholdMax) .InvalidThreshold
    refuseIf (penalty_per_minute < mediumPenaltyMin) .InvalidPenalty
  else
    refuseIf (penalty_per_minute > lowPenaltyMax) .InvalidPenalty

/-- `expected_validate_config`. -/
def expectedValidateConfig (severity : Symbol) (threshold_minutes : Nat)
    (penalty_per_minute reward_base : Int) : Except SLAError Unit := do
  refuseIf (¬ isCanonicalSeverity severity) .InvalidSeverity
  refuseIf (¬ (thresholdMin ≤ threshold_minutes ∧ threshold_minutes ≤ thresholdMax))
    .InvalidThreshold
  refuseIf (¬ (penaltyMin ≤ penalty_per_minute ∧ penalty_per_minute ≤ penaltyMax)) .InvalidPenalty
  refuseIf (¬ (rewardMin ≤ reward_base ∧ reward_base ≤ rewardMax)) .InvalidReward
  expectedSeverityBounds severity threshold_minutes penalty_per_minute
  let scaled_penalty ← okOr (checked 128 (penalty_per_minute * 3)) .InvalidReward
  let scaled_reward ← okOr (checked 128 (reward_base * 2)) .InvalidReward
  refuseIf (scaled_penalty ≥ scaled_reward) .InvalidReward

/-- `expected_compute_result`. -/
def expectedComputeResult (mttr_minutes : Nat) (cfg : SLAConfig) : Trapping ExpectedOutcome := do
  let threshold := cfg.threshold_minutes
  if mttr_minutes > threshold then
    let overtime : Int ← orTrap ((panickingSub mttr_minutes threshold).map Int.ofNat)
    let penalty ← okOr (checked 128 (overtime * cfg.penalty_per_minute))
      (.err .InvalidPenaltyAmount)
    let amount ← okOr (checked 128 (-penalty)) (.err .InvalidPenaltyAmount)
    refuseIf (amount ≥ 0) (.err .InvalidPenaltyAmount)
    return ⟨.viol, .pen, .poor, amount⟩
  let scaled ← orTrap (panickingMul 64 mttr_minutes 100)
  let performance_ratio := (checkedDiv scaled threshold).getD 0
  let (multiplier, rating) :=
    if performance_ratio < tierTopRatioExclusive then (multiplierTop, Rating.top)
    else if performance_ratio < tierExcelRatioExclusive then (multiplierExcel, Rating.excel)
    else (multiplierGood, Rating.good)
  let v ← okOr (checked 128 (cfg.reward_base * multiplier)) (.err .InvalidRewardAmount)
  let amount ← orTrap (panickingDivEuclid 128 v 100)
  refuseIf (amount ≤ 0) (.err .InvalidRewardAmount)
  return ⟨.met, .rew, rating, amount⟩

end Spec

end ApexChainx
