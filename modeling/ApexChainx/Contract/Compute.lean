import ApexChainx.Contract.Config

/-!
# The decision

`compute_result` of `lib.rs` (its twin in `calculation.rs` has the same body), and the
correlation id of `event_correlation.rs`.
-/

namespace ApexChainx

open Misc

/-- The reward multiplier, in percent, and the rating for a performance ratio in percent. -/
def rewardTier (performance_ratio : Nat) : Nat × Rating :=
  if performance_ratio < 50 then (200, .top)
  else if performance_ratio < 75 then (150, .excel)
  else (100, .good)

/-- Case 1 of `compute_result`: the SLA is violated. -/
def computePenalty (outage_id : Symbol) (mttr_minutes : Nat) (cfg : SLAConfig)
    (config_version_hash recorded_at : Nat) : Except SLAError SLAResult := do
  let overtime : Int := ((mttr_minutes - cfg.threshold_minutes : Nat) : Int)
  let penalty ← okOr (checked 128 (overtime * cfg.penalty_per_minute)) .InvalidPenaltyAmount
  let amount ← okOr (checked 128 (-penalty)) .InvalidPenaltyAmount
  refuseIf (amount ≥ 0) .InvalidPenaltyAmount
  pure ⟨outage_id, .viol, mttr_minutes, cfg.threshold_minutes, amount, .pen, .poor,
    config_version_hash, recorded_at⟩

/-- Case 2 of `compute_result`: the SLA is met. -/
def computeReward (outage_id : Symbol) (mttr_minutes : Nat) (cfg : SLAConfig)
    (config_version_hash recorded_at : Nat) : Except SLAError SLAResult := do
  let performance_ratio := (checkedDiv (mttr_minutes * 100) cfg.threshold_minutes).getD 0
  let tier := rewardTier performance_ratio
  let scaled ← okOr (checked 128 (cfg.reward_base * (tier.1 : Int))) .InvalidRewardAmount
  let reward := scaled / 100
  refuseIf (reward ≤ 0) .InvalidRewardAmount
  pure ⟨outage_id, .met, mttr_minutes, cfg.threshold_minutes, reward, .rew, tier.2,
    config_version_hash, recorded_at⟩

/-- `compute_result`. -/
def computeResult (outage_id : Symbol) (mttr_minutes : Nat) (cfg : SLAConfig)
    (config_version_hash recorded_at : Nat) : Except SLAError SLAResult :=
  if mttr_minutes > cfg.threshold_minutes then
    computePenalty outage_id mttr_minutes cfg config_version_hash recorded_at
  else
    computeReward outage_id mttr_minutes cfg config_version_hash recorded_at

/-- One step of FNV-1a: `hash ^= word; hash = hash.wrapping_mul(prime)`. -/
def fnvStep (hash word : BitVec 64) : BitVec 64 := (hash ^^^ word) * 0x100000001b3#64

/-- `generate_correlation_id`: FNV-1a over the bytes of the outage id, then the ledger
sequence in both halves. -/
def generateCorrelationId (outage_id : Symbol) (ledger_sequence : Nat) : BitVec 64 :=
  let hash := outage_id.chars.foldl (fun hash c => fnvStep hash (BitVec.ofNat 64 c.toNat))
    0xcbf29ce484222325#64
  let sequence := BitVec.ofNat 64 ledger_sequence
  fnvStep hash (sequence <<< 32 ||| sequence)

/-- The UTF-8 bytes of a symbol: `outage_id.to_string().as_bytes()`. -/
def Symbol.stringBytes (outage_id : Symbol) : List UInt8 :=
  outage_id.chars.flatMap String.utf8EncodeChar

/-- The second body of `generate_correlation_id`, over the bytes of the id's string. -/
def generateCorrelationIdOfString (outage_id : Symbol) (ledger_sequence : Nat) : BitVec 64 :=
  let hash := outage_id.stringBytes.foldl
    (fun hash byte => fnvStep hash (BitVec.ofNat 64 byte.toNat)) 0xcbf29ce484222325#64
  let sequence := BitVec.ofNat 64 ledger_sequence
  fnvStep hash (sequence <<< 32 ||| sequence)

end ApexChainx
