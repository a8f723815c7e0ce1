import ApexChainx.Contract.Storage
import ApexChainx.Misc.Machine
import ApexChainx.Misc.Results

/-!
# Severity configuration

Canonical severities, the validation of a configuration, its lookup, its two hashes and its
snapshot (`lib.rs`). All of it only reads the storage.
-/

namespace ApexChainx

open Host Misc

/-- `symbol_short!("critical")`. -/
def critical : Symbol := symbolShort "critical"

/-- `symbol_short!("high")`. -/
def high : Symbol := symbolShort "high"

/-- `symbol_short!("medium")`. -/
def medium : Symbol := symbolShort "medium"

/-- `symbol_short!("low")`. -/
def low : Symbol := symbolShort "low"

/-- `canonical_severities`. -/
def canonicalSeverities : List Symbol := [critical, high, medium, low]

/-- `canonical_severity_index`. -/
def canonicalSeverityIndex (severity : Symbol) : Option Nat :=
  if severity = critical then some 0
  else if severity = high then some 1
  else if severity = medium then some 2
  else if severity = low then some 3
  else none

/-- `is_canonical_severity`. -/
def isCanonicalSeverity (severity : Symbol) : Bool := (canonicalSeverityIndex severity).isSome

/-- The configuration map `initialize` stores. -/
def defaultConfigs : OrdMap Symbol SLAConfig :=
  (((OrdMap.empty.set critical ⟨15, 100, 750⟩).set high ⟨30, 50, 750⟩).set medium
    ⟨60, 25, 750⟩).set low ⟨120, 10, 600⟩

/-! ## Validation -/

/-- `validate_general_bounds`. -/
def validateGeneralBounds (threshold_minutes : Nat) (penalty_per_minute reward_base : Int) :
    Except SLAError Unit := do
  refuseIf (threshold_minutes = 0 ∨ threshold_minutes > 1440) .InvalidThreshold
  refuseIf (penalty_per_minute ≤ 0 ∨ penalty_per_minute > 10000) .InvalidPenalty
  refuseIf (reward_base ≤ 0 ∨ reward_base > 100000) .InvalidReward

/-- The severity-specific branches of `validate_config`. -/
def validateSeverityLimits (severity : Symbol) (threshold_minutes : Nat)
    (penalty_per_minute : Int) : Except SLAError Unit :=
  if severity = critical then do
    refuseIf (threshold_minutes > 60) .InvalidThreshold
    refuseIf (penalty_per_minute < 50) .InvalidPenalty
  else if severity = high then do
    refuseIf (threshold_minutes > 120) .InvalidThreshold
    refuseIf (penalty_per_minute < 25) .InvalidPenalty
  else if severity = medium then do
    refuseIf (threshold_minutes > 240) .InvalidThreshold
    refuseIf (penalty_per_minute < 10) .InvalidPenalty
  else if severity = low then
    refuseIf (penalty_per_minute > 100) .InvalidPenalty
  else pure ()

/-- `validate_config`. -/
def validateConfig (severity : Symbol) (threshold_minutes : Nat)
    (penalty_per_minute reward_base : Int) : Except SLAError Unit := do
  refuseIf (isCanonicalSeverity severity = false) .InvalidSeverity
  validateGeneralBounds threshold_minutes penalty_per_minute reward_base
  validateSeverityLimits severity threshold_minutes penalty_per_minute
  let penalties ← okOr (checked 128 (penalty_per_minute * 3)) .InvalidReward
  let rewards ← okOr (checked 128 (reward_base * 2)) .InvalidReward
  refuseIf (penalties ≥ rewards) .InvalidReward

/-- A check against the configuration of a neighbouring severity, skipped when the map does
not hold it: `if let Some(cfg) = configs.get(severities.get(index)?) { ... }`. -/
def checkNeighbour (configs : OrdMap Symbol SLAConfig) (index : Nat) (bad : SLAConfig → Bool)
    (e : SLAError) : Except SLAError Unit := do
  let neighbour ← okOr canonicalSeverities[index]? .InvalidSeverity
  match configs.get neighbour with
  | some cfg => refuseIf (bad cfg = true) e
  | none => pure ()

/-- `validate_cross_severity_penalty_ordering`. -/
def validateCrossSeverityPenaltyOrdering (updated_severity : Symbol) (new_penalty : Int)
    (s : Storage) : Except SLAError Unit := do
  let configs ← okOr (s .config) .NotInitialized
  let index ← okOr (canonicalSeverityIndex updated_severity) .InvalidSeverity
  if index + 1 < canonicalSeverities.length then
    checkNeighbour configs (index + 1) (fun cfg => new_penalty < cfg.penalty_per_minute)
      .InvalidPenalty
  -- low (index 3) is exempt from the upper check
  if 1 ≤ index ∧ index ≤ 2 then
    checkNeighbour configs (index - 1) (fun cfg => new_penalty > cfg.penalty_per_minute)
      .InvalidPenalty

/-- `validate_cross_severity_threshold_ordering`. -/
def validateCrossSeverityThresholdOrdering (updated_severity : Symbol) (new_threshold : Nat)
    (s : Storage) : Except SLAError Unit := do
  let configs ← okOr (s .config) .NotInitialized
  let index ← okOr (canonicalSeverityIndex updated_severity) .InvalidSeverity
  if index + 1 < canonicalSeverities.length then
    checkNeighbour configs (index + 1) (fun cfg => new_threshold > cfg.threshold_minutes)
      .InvalidThreshold
  if 1 ≤ index ∧ index ≤ 3 then
    checkNeighbour configs (index - 1) (fun cfg => new_threshold < cfg.threshold_minutes)
      .InvalidThreshold

/-! ## Lookup -/

/-- The custom severity map, empty when it was never stored. -/
def customConfigs (s : Storage) : OrdMap Symbol SLAConfig := (s .customConfig).getD OrdMap.empty

/-- `load_config`. -/
def loadConfig (severity : Symbol) (s : Storage) : Except SLAError SLAConfig :=
  if isCanonicalSeverity severity then do
    let configs ← okOr (s .config) .NotInitialized
    okOr (configs.get severity) .ConfigNotFound
  else
    okOr ((customConfigs s).get severity) .ConfigNotFound

/-! ## Hashes -/

/-- One field folded into the hash: the body of the loop of `fold_config_hash_fields`. -/
def foldConfigHashField (acc : Nat × Nat) (field : Nat) : Nat × Nat :=
  let (hash, power) := acc
  (wrap 64 (wrap 64 (wrap 64 (hash * configHashBase) + field) * power) % configHashModulus,
    wrap 64 (power * configHashBase) % configHashModulus)

/-- The fields `fold_config_hash_fields` runs over, cast to `u64`. -/
def configHashFields (cfg : SLAConfig) : List Nat :=
  [cfg.threshold_minutes, castUnsigned 64 cfg.penalty_per_minute,
    castUnsigned 64 cfg.reward_base]

/-- `fold_config_hash_fields`, on the pair `(hash, power)`. -/
def foldConfigHashFields (acc : Nat × Nat) (cfg : SLAConfig) : Nat × Nat :=
  (configHashFields cfg).foldl foldConfigHashField acc

/-- `finish_config_hash`. -/
def finishConfigHash (hash : Nat) : Nat :=
  wrap 64 (wrap 64 (hash * configHashBase) + configHashFinalMix) % configHashModulus

/-- The hash of one configuration: what `compute_severity_config_hash` does once it has loaded
the configuration. -/
def severityConfigHash (cfg : SLAConfig) : Nat :=
  finishConfigHash (foldConfigHashFields (1, 1) cfg).1

/-- `compute_severity_config_hash`. -/
def computeSeverityConfigHash (severity : Symbol) (s : Storage) : Except SLAError Nat := do
  let cfg ← loadConfig severity s
  pure (severityConfigHash cfg)

/-- Load the listed severities in order, folding each into the hash: the first loop of
`compute_config_version_hash`. -/
def foldLoadedConfigs (s : Storage) (acc : Nat × Nat) :
    List Symbol → Except SLAError (Nat × Nat)
  | [] => .ok acc
  | severity :: rest => do
    let cfg ← loadConfig severity s
    foldLoadedConfigs s (foldConfigHashFields acc cfg) rest

/-- `compute_config_version_hash`. -/
def computeConfigVersionHash (s : Storage) : Except SLAError Nat := do
  let acc ← foldLoadedConfigs s (1, 1) canonicalSeverities
  let custom := ((customConfigs s).entries.map Prod.snd).foldl foldConfigHashFields acc
  pure (finishConfigHash custom.1)

/-! ## Snapshots -/

/-- The entries of a snapshot, one for each listed severity. -/
def snapshotEntries (configs : OrdMap Symbol SLAConfig) :
    List Symbol → Except SLAError (List SLAConfigEntry)
  | [] => .ok []
  | severity :: rest => do
    let config ← okOr (configs.get severity) .ConfigNotFound
    let entries ← snapshotEntries configs rest
    pure (⟨severity, config⟩ :: entries)

/-- `build_config_snapshot`. -/
def buildConfigSnapshot (s : Storage) : Except SLAError SLAConfigSnapshot := do
  let configs ← okOr (s .config) .NotInitialized
  let entries ← snapshotEntries configs canonicalSeverities
  pure ⟨symbolShort "v1", entries⟩

/-- `record_config_registry`. -/
def recordConfigRegistry : Contract Unit := do
  let hash ← Contract.reads computeConfigVersionHash
  let snapshot ← Contract.reads buildConfigSnapshot
  let registry ← Contract.getD .configRegistry OrdMap.empty
  Contract.set .configRegistry (registry.set hash snapshot)

/-- `config_metadata::record_config_update`. -/
def recordConfigUpdate : Contract Unit := do
  let ledger ← Prog.sequence
  Contract.set .lastCfgUpdate ledger

end ApexChainx
